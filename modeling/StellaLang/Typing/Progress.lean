import StellaLang.Memo
import StellaLang.Scope
import StellaLang.Syntax.Expr
import StellaLang.Ty.Conformance
import StellaLang.Ty.Merge
import StellaLang.Typing.Fault

/-! What checking knows at a place of a program, and what it has found out so far. A
`Context` is passed down and never changed by what is below; `Progress` grows
from node to node. -/
namespace StellaLang.Typing

open Syntax (Expr TypeExpr)

/-- When checking stops looking for more errors. -/
structure Limits where
  /-- Stop at the first error. -/
  failFast : Bool := false
  /-- Stop at this many errors, but not before the first one. -/
  maxErrors : Option Nat := none
deriving DecidableEq, Repr

/-- Whether so many errors are enough. -/
def Limits.reached (limits : Limits) (count : Nat) : Bool :=
  limits.failFast || limits.maxErrors.any (· ≤ count)

/-- What is declared besides variables, and the mode of checking. -/
structure Environment where
  /-- The latest entry for a name counts. -/
  aliases : List (String × Ty) := []
  exceptionType : Option Ty := none
  exceptionVariants : List (String × Option Ty) := []
  /-- Whether a value of a subtype may stand wherever a type is asked for. -/
  subtyping : Bool := false

/-- All that an expression, a pattern or an annotation may refer to. -/
structure Context extends Environment where
  scope : Scope := {}

namespace Context

def push (ctx : Context) : Context :=
  { ctx with scope := ctx.scope.push }

def bindAll (ctx : Context) (bindings : List (String × Ty)) : Context :=
  { ctx with scope := ctx.scope.bindAll bindings }

def bind (ctx : Context) (name : String) (type : Ty) : Context :=
  { ctx with scope := ctx.scope.bind name type }

def bindTypeVars (ctx : Context) (names : List String) : Context :=
  { ctx with scope := ctx.scope.bindTypeVars names }

/-- The type of raised values: the declared one, or else the variants declared one by
one. -/
def exception? (ctx : Context) : Option Ty :=
  match ctx.exceptionType with
  | some t => some t
  | none => if ctx.exceptionVariants.isEmpty then none else some (.variant ctx.exceptionVariants)

/-- Conformance in the mode of the context. -/
def conforms (ctx : Context) (found expected : Ty) : Bool :=
  Ty.conforms ctx.subtyping found expected

end Context

/-- That an expression has a type in a context. -/
structure Judgement where
  context : Context
  expr : Located Expr
  type : Ty

structure Progress where
  limits : Limits := {}
  errors : List TypeError := []
  /-- Set once the limits are reached; nothing is reported from then on. -/
  halted : Bool := false
  /-- The meaning of annotations that refer to no name. -/
  cache : Memo (Located TypeExpr) Ty := {}
  log : List Log.Entry := []
  /-- What was found of each expression so far, the latest first. Nothing is decided by it. -/
  judgements : List Judgement := []

namespace Progress

def note (p : Progress) (level : Log.Level) (topic text : String) : Progress :=
  { p with log := p.log ++ [⟨level, topic, text⟩] }

/-- Adds an error, and halts if that reaches the limits. -/
def record (p : Progress) (error : TypeError) : Progress :=
  if p.halted then p
  else
    let topic := "stella_typecheck::check"
    let errors := p.errors ++ [error]
    let noted := { p with errors }.note .debug topic (error.fault.code ++ ": " ++ error.fault.message)
    if p.limits.reached errors.length then
      { noted with halted := true }.note .trace topic
        ("halting after " ++ toString errors.length ++ " errors")
    else noted

section Record

variable {p : Progress} (error : TypeError)

theorem record_of_halted (halted : p.halted = true) : p.record error = p :=
  if_pos halted

theorem record_errors (active : p.halted = false) :
    (p.record error).errors = p.errors ++ [error] := by
  simp only [record, active, Bool.false_eq_true, if_false]
  split <;> rfl

theorem record_halted (active : p.halted = false) :
    (p.record error).halted = p.limits.reached (p.errors.length + 1) := by
  simp only [record, active, Bool.false_eq_true, if_false, List.length_append, List.length_singleton]
  split
  · exact (‹p.limits.reached (p.errors.length + 1) = true›).symm
  · simp_all [note]

theorem record_limits : (p.record error).limits = p.limits := by
  unfold record
  split
  · rfl
  · dsimp only
    split <;> rfl

theorem record_cache : (p.record error).cache = p.cache := by
  unfold record
  split
  · rfl
  · dsimp only
    split <;> rfl

theorem record_judgements : (p.record error).judgements = p.judgements := by
  unfold record
  split
  · rfl
  · dsimp only
    split <;> rfl

end Record

end Progress

/-- A step of checking. -/
abbrev Check := StateM Progress

namespace Check

theorem bind_apply (x : Check α) (f : α → Check β) (p : Progress) :
    (x >>= f) p = f (x p).1 (x p).2 := rfl

def note (level : Log.Level) (topic text : String) : Check Unit :=
  modify (·.note level topic text)

def halted : Check Bool :=
  return (← get).halted

/-- A step that is skipped once checking has halted. -/
def guarded (skipped : α) (x : Check α) : Check α := do
  if ← halted then return skipped else x

/-- Keeps the type that was found for an expression. -/
def judge (ctx : Context) (e : Located Expr) (t : Ty) : Check Unit :=
  modify fun p => { p with judgements := ⟨ctx, e, t⟩ :: p.judgements }

/-- Reports a fault. The node at fault has the type that this returns. -/
def report (fault : Fault) (position : Option Position) : Check Ty := do
  modify (·.record (fault.at position))
  return .error

theorem halted_apply (p : Progress) : halted p = (p.halted, p) := rfl

theorem guarded_apply (skipped : α) (x : Check α) (p : Progress) :
    guarded skipped x p = if p.halted = true then (skipped, p) else x p := by
  unfold guarded
  rw [bind_apply, halted_apply]
  cases p.halted <;> rfl

theorem guarded_of_active (skipped : α) (x : Check α) {p : Progress} (active : p.halted = false) :
    guarded skipped x p = x p := by
  rw [guarded_apply, active]
  rfl

theorem report_apply (fault : Fault) (position : Option Position) (p : Progress) :
    report fault position p = (.error, p.record (fault.at position)) := rfl

/-- Reports a mismatch unless one type conforms to the other. -/
def require (ctx : Context) (found expected : Ty) (position : Option Position) : Check Unit := do
  unless ctx.conforms found expected do
    let _ ← report (.mismatch expected found) position

/-- Whether two types can describe one value: one conforms to the other. -/
def related (ctx : Context) (t u : Ty) : Bool :=
  ctx.conforms t u || ctx.conforms u t

/-- Whether the labels that two variants share have related payloads. -/
def compatibleAlternatives (ctx : Context) (fs gs : List (String × Option Ty)) : Bool :=
  fs.all fun (l, payload) =>
    match payload, gs.lookup l with
    | _, none => true
    | some t, some (some u) => related ctx t u
    | none, some none => true
    | _, _ => false

/-- Whether two alternatives of one expression may have these types. -/
def compatible (ctx : Context) : Ty → Ty → Bool
  | .variant fs, .variant gs => compatibleAlternatives ctx fs gs
  | t, u => related ctx t u

/-- The type of an expression with two alternatives. -/
def join (ctx : Context) (t u : Ty) (position : Option Position) : Check Ty :=
  if compatible ctx t u then return t.merge u
  else report (.mismatch t u) position

end Check

end StellaLang.Typing
