import StellaLang.Ty.Basic

/-! Scopes: frames of variables and type variables, the innermost first. The outermost
frame always stays, so a scope has a current frame at all times. -/
namespace StellaLang

/-- What one block introduces. The latest entry for a name counts. -/
structure Frame where
  vars : List (String × Ty) := []
  typeVars : List String := []

structure Scope where
  current : Frame := {}
  /-- The frames around the current one, from the inside out. -/
  outer : List Frame := []

namespace Scope

def frames (scope : Scope) : List Frame :=
  scope.current :: scope.outer

def depth (scope : Scope) : Nat :=
  scope.frames.length

/-- Enters a new frame. -/
def push (scope : Scope) : Scope where
  outer := scope.frames

/-- Leaves the current frame, unless it is the outermost one. -/
def pop (scope : Scope) : Scope :=
  match scope.outer with
  | [] => scope
  | frame :: outer => ⟨frame, outer⟩

/-- Gives a variable its type in the current frame. -/
def bind (scope : Scope) (name : String) (type : Ty) : Scope :=
  { scope with current.vars := (name, type) :: scope.current.vars }

/-- Binds from left to right, so of equal names the last counts. -/
def bindAll (scope : Scope) (bindings : List (String × Ty)) : Scope :=
  bindings.foldl (fun scope (name, type) => scope.bind name type) scope

def bindTypeVar (scope : Scope) (name : String) : Scope :=
  { scope with current.typeVars := name :: scope.current.typeVars }

def bindTypeVars (scope : Scope) (names : List String) : Scope :=
  names.foldl bindTypeVar scope

/-- The type of a variable in the innermost frame that binds it. -/
def lookup (scope : Scope) (name : String) : Option Ty :=
  scope.frames.findSome? (·.vars.lookup name)

def hasTypeVar (scope : Scope) (name : String) : Bool :=
  scope.frames.any (·.typeVars.contains name)

theorem depth_pos (scope : Scope) : 0 < scope.depth :=
  Nat.succ_pos _

@[simp] theorem lookup_bind (scope : Scope) (x y : String) (t : Ty) :
    (scope.bind x t).lookup y = if y = x then some t else scope.lookup y := by
  by_cases h : y = x
  · simp [lookup, frames, bind, h]
  · have other : (y == x) = false := by simpa using h
    simp [lookup, frames, bind, List.findSome?_cons, List.lookup_cons, other, h]

theorem hasTypeVar_bindTypeVar (scope : Scope) (x y : String) :
    (scope.bindTypeVar x).hasTypeVar y = (decide (y = x) || scope.hasTypeVar y) := by
  simp [hasTypeVar, frames, bindTypeVar, Bool.or_assoc]

theorem hasTypeVar_bindTypeVars (scope : Scope) (xs : List String) (y : String) :
    (scope.bindTypeVars xs).hasTypeVar y = (decide (y ∈ xs) || scope.hasTypeVar y) := by
  induction xs generalizing scope with
  | nil => rfl
  | cons x xs ih =>
    have first := ih (scope.bindTypeVar x)
    rw [hasTypeVar_bindTypeVar] at first
    rw [show scope.bindTypeVars (x :: xs) = (scope.bindTypeVar x).bindTypeVars xs from rfl, first]
    simp only [List.mem_cons, Bool.decide_or]
    cases decide (y = x) <;> simp

@[simp] theorem lookup_bindTypeVars (scope : Scope) (xs : List String) (y : String) :
    (scope.bindTypeVars xs).lookup y = scope.lookup y := by
  induction xs generalizing scope with
  | nil => rfl
  | cons x xs ih => exact ih (scope.bindTypeVar x)

end Scope

end StellaLang
