import Mathlib.Data.List.Forall2
import Mathlib.Logic.Function.Basic
import StellaLang.Proofs.Typing.Following
import StellaLang.Proofs.Typing.Quiet

/-! The core of the language, and its typing rules. Its types are made of `Nat`, `Bool`, `Unit`,
functions, tuples, lists and references. Between these types conformance in exact mode is
equality, so nothing but equality is left in the rules. -/
namespace StellaLang

namespace Ty

mutual

/-- Whether a type is one of the core. -/
def isCore : Ty → Bool
  | bool | nat | unit => true
  | arrow ps r => isCoreAll ps && r.isCore
  | tuple ts => isCoreAll ts
  | list t | ref t => t.isCore
  | _ => false

def isCoreAll : List Ty → Bool
  | [] => true
  | t :: ts => t.isCore && isCoreAll ts

end

theorem isCoreAll_iff {ts : List Ty} : isCoreAll ts = true ↔ ∀ t ∈ ts, t.isCore = true := by
  induction ts with
  | nil => simp [isCoreAll]
  | cons t ts ih => simp [isCoreAll, ih]

theorem isWildcard_of_isCore {t : Ty} (core : t.isCore = true) : t.isWildcard = false := by
  cases t with
  | never | unknown | error => contradiction
  | _ => rfl

/-- In exact mode a type of the core conforms to no other one. -/
theorem Conforms.eq_of_core {t u : Ty} (conforming : Conforms false t u) (first : t.isCore = true)
    (second : u.isCore = true) : t = u := by
  induction conforming with
  | wildcard h =>
    rw [isWildcard_of_isCore first, isWildcard_of_isCore second] at h
    contradiction
  | toTop | fromBottom | top | bottom | var | forAll | recursive | sum | record | variant =>
    contradiction
  | bool | nat | unit => rfl
  | @arrow r s ps qs length _ _ params result =>
    rw [isCore, Bool.and_eq_true, isCoreAll_iff] at first second
    have sameParams : ps = qs := by
      rw [← List.forall₂_eq_eq_eq, List.forall₂_iff_zip]
      refine ⟨length, fun {p q} member => ?_⟩
      obtain ⟨left, right⟩ := List.of_mem_zip member
      exact (params p q member (second.1 q right) (first.1 p left)).symm
    rw [sameParams, result first.2 second.2]
  | @tuple ts us length _ elements =>
    rw [isCore, isCoreAll_iff] at first second
    have same : ts = us := by
      rw [← List.forall₂_eq_eq_eq, List.forall₂_iff_zip]
      refine ⟨length, fun {t u} member => ?_⟩
      obtain ⟨left, right⟩ := List.of_mem_zip member
      exact elements t u member (first t left) (second u right)
    rw [same]
  | list _ element => rw [element first second]
  | ref _ _ there _ => rw [there first second]

mutual

theorem Conforms.refl_of_core {t : Ty} (core : t.isCore = true) : Conforms false t t := by
  cases t with
  | bool => exact .bool
  | nat => exact .nat
  | unit => exact .unit
  | arrow ps r =>
    rw [isCore, Bool.and_eq_true] at core
    have params := List.forall₂_iff_zip.mp (List.forall₂_same.mpr (refl_of_coreAll core.1))
    exact .arrow rfl (fun p q member => params.2 (mem_zip_swap member)) (refl_of_core core.2)
  | tuple ts =>
    rw [isCore] at core
    have elements := List.forall₂_iff_zip.mp (List.forall₂_same.mpr (refl_of_coreAll core))
    exact .tuple rfl fun t u member => elements.2 member
  | list t => exact .list (refl_of_core core)
  | ref t => exact .ref (refl_of_core core) (refl_of_core core)
  | _ => contradiction
termination_by structural t

theorem Conforms.refl_of_coreAll {ts : List Ty} (core : isCoreAll ts = true) :
    ∀ t ∈ ts, Conforms false t t := by
  match ts with
  | [] => exact fun _ member => nomatch member
  | t :: ts =>
    rw [isCoreAll, Bool.and_eq_true] at core
    exact List.forall_mem_cons.mpr ⟨refl_of_core core.1, Conforms.refl_of_coreAll core.2⟩
termination_by structural ts

end

theorem conforms_core_iff {t u : Ty} (first : t.isCore = true) (second : u.isCore = true) :
    conforms false t u = true ↔ t = u := by
  rw [conforms_iff]
  constructor
  · exact fun conforming => conforming.eq_of_core first second
  · rintro rfl
    exact .refl_of_core first

mutual

/-- A type of the core adds nothing to itself. -/
theorem merge_self {t : Ty} (core : t.isCore = true) : t.merge t = t := by
  cases t with
  | bool | nat | unit => simp [merge, isError, isWildcard]
  | arrow ps r =>
    rw [isCore, Bool.and_eq_true] at core
    simp [merge, isError, isWildcard, mergeAll_self core.1, merge_self core.2]
  | tuple ts =>
    rw [isCore] at core
    simp [merge, isError, isWildcard, mergeAll_self core]
  | list t | ref t =>
    rw [isCore] at core
    simp [merge, isError, isWildcard, merge_self core]
  | _ => contradiction
termination_by structural t

theorem mergeAll_self {ts : List Ty} (core : isCoreAll ts = true) : mergeAll ts ts = ts := by
  match ts with
  | [] => rfl
  | t :: ts =>
    rw [isCoreAll, Bool.and_eq_true] at core
    rw [mergeAll, merge_self core.1, mergeAll_self core.2]
termination_by structural ts

end

end Ty

namespace Typing

open Check
open Syntax (BinaryOp Expr Literal TypeExpr UnaryOp)

/-- The type that an annotation stands for where no name is known. -/
def annotated (t : Located TypeExpr) : Ty :=
  denote {} [] t

section Forms

/-- Whether a literal is one of a type of the core; an address refers to a cell of which
nothing is known. -/
def coreLiteral : Literal → Bool
  | .bool _ | .unit | .nat _ => true
  | .address _ => false

def coreOperator : UnaryOp → Bool
  | .succ | .pred | .isZero | .not | .fix | .ref | .deref | .head | .tail | .isEmpty => true
  | .inl | .inr | .throw => false

mutual

/-- Whether an expression is one of the core. -/
def coreExpr : Located Expr → Bool
  | ⟨e, _⟩ => coreNode e

def coreNode : Expr → Bool
  | .sequence a b => coreExpr a && coreExpr b
  | .assign target value => coreExpr target && coreExpr value
  | .cond condition a b => coreExpr condition && coreExpr a && coreExpr b
  | .letIn bs body => coreBindings bs && coreExpr body
  | .binary _ a b => coreExpr a && coreExpr b
  | .ascribe e type => coreExpr e && (annotated type).isCore
  | .abstraction params body => params.all (fun param => (annotated param.2).isCore) && coreExpr body
  | .list es => !es.isEmpty && coreExprs es
  | .unary op e => coreOperator op && coreExpr e
  | .application f args => coreExpr f && coreExprs args
  | .component e _ => coreExpr e
  | .tuple es => coreExprs es
  | .cons h tail => coreExpr h && coreExpr tail
  | .natRec count initial step => coreExpr count && coreExpr initial && coreExpr step
  | .literal l => coreLiteral l
  | .var _ => true
  | _ => false

def coreExprs : List (Located Expr) → Bool
  | [] => true
  | e :: es => coreExpr e && coreExprs es

/-- Only plain variables are bound. -/
def coreBindings : List (Located Syntax.Pattern × Located Expr) → Bool
  | [] => true
  | (⟨.var _, _⟩, e) :: bs => coreExpr e && coreBindings bs
  | _ => false

end

end Forms

section Rules

/-- The types of both operands of an operator, and of its result. -/
inductive Operates : BinaryOp → Ty → Ty → Prop where
  | add : Operates .add .nat .nat
  | subtract : Operates .subtract .nat .nat
  | multiply : Operates .multiply .nat .nat
  | divide : Operates .divide .nat .nat
  | or : Operates .or .bool .bool
  | and : Operates .and .bool .bool
  | less : Operates .less .nat .bool
  | lessOrEqual : Operates .lessOrEqual .nat .bool
  | greater : Operates .greater .nat .bool
  | greaterOrEqual : Operates .greaterOrEqual .nat .bool
  | equal (t : Ty) : Operates .equal t .bool
  | notEqual (t : Ty) : Operates .notEqual t .bool

/-- The types of the operand of an operator, and of its result. -/
inductive Applies : UnaryOp → Ty → Ty → Prop where
  | succ : Applies .succ .nat .nat
  | pred : Applies .pred .nat .nat
  | isZero : Applies .isZero .nat .bool
  | not : Applies .not .bool .bool
  | fix (t : Ty) : Applies .fix (.arrow [t] t) t
  | ref (t : Ty) : Applies .ref t (.ref t)
  | deref (t : Ty) : Applies .deref (.ref t) t
  | head (t : Ty) : Applies .head (.list t) t
  | tail (t : Ty) : Applies .tail (.list t) (.list t)
  | isEmpty (t : Ty) : Applies .isEmpty (.list t) .bool

/-- The types of variables. -/
abbrev Assignment := String → Option Ty

/-- The assignment with one more variable. -/
def Assignment.bind (Γ : Assignment) (x : String) (t : Ty) : Assignment :=
  Function.update Γ x (some t)

/-- The assignment with the parameters of a function. -/
def Assignment.bindParams (Γ : Assignment) (params : List (String × Located TypeExpr)) : Assignment :=
  params.foldl (fun Γ (x, type) => Γ.bind x (annotated type)) Γ

/-- The typing rules of the core. -/
inductive Typed : Assignment → Expr → Ty → Prop where
  | bool (b : Bool) : Typed Γ (.literal (.bool b)) .bool
  | unit : Typed Γ (.literal .unit) .unit
  | nat (n : Nat) : Typed Γ (.literal (.nat n)) .nat
  | var (found : Γ x = some t) : Typed Γ (.var x) t
  | abstraction (body : Typed (Γ.bindParams params) e.node r) :
      Typed Γ (.abstraction params e) (.arrow (params.map fun param => annotated param.2) r)
  | application (function : Typed Γ f.node (.arrow ps r)) (length : args.length = ps.length)
      (each : ∀ e p, (e, p) ∈ args.zip ps → Typed Γ (Located.node e) p) :
      Typed Γ (.application f args) r
  | cond (condition : Typed Γ c.node .bool) (first : Typed Γ a.node t) (second : Typed Γ b.node t) :
      Typed Γ (.cond c a b) t
  | letNil (body : Typed Γ e.node t) : Typed Γ (.letIn [] e) t
  | letCons (bound : Typed Γ e.node u) (rest : Typed (Γ.bind x u) (.letIn bs body) t) :
      Typed Γ (.letIn ((⟨.var x, position⟩, e) :: bs) body) t
  | sequence (first : Typed Γ a.node .unit) (second : Typed Γ b.node t) : Typed Γ (.sequence a b) t
  | binary (operator : Operates op t r) (left : Typed Γ a.node t) (right : Typed Γ b.node t) :
      Typed Γ (.binary op a b) r
  | unary (operator : Applies op t r) (operand : Typed Γ e.node t) : Typed Γ (.unary op e) r
  | natRec (count : Typed Γ n.node .nat) (initial : Typed Γ z.node t)
      (step : Typed Γ s.node (.arrow [.nat] (.arrow [t] t))) : Typed Γ (.natRec n z s) t
  | tuple (length : es.length = ts.length)
      (each : ∀ e t, (e, t) ∈ es.zip ts → Typed Γ (Located.node e) t) : Typed Γ (.tuple es) (.tuple ts)
  | component (product : Typed Γ e.node (.tuple ts)) (found : ts[i]? = some t) :
      Typed Γ (.component e (i + 1)) t
  | list (present : es ≠ []) (each : ∀ e ∈ es, Typed Γ (Located.node e) t) :
      Typed Γ (.list es) (.list t)
  | cons (first : Typed Γ h.node t) (rest : Typed Γ tail.node (.list t)) :
      Typed Γ (.cons h tail) (.list t)
  | assign (target : Typed Γ a.node (.ref t)) (value : Typed Γ b.node t) :
      Typed Γ (.assign a b) .unit
  | ascribe (inner : Typed Γ e.node (annotated type)) : Typed Γ (.ascribe e type) (annotated type)

end Rules

section Annotations

mutual

/-- An annotation of the core means the same everywhere, and no fault is found in it. -/
theorem resolve_core (ctx : Context) (bound : List String) {t : Located TypeExpr}
    (core : (annotated t).isCore = true) (p : Progress) :
    resolve ctx bound t p = (annotated t, p) := by
  obtain ⟨t, position⟩ := t
  exact resolveNode_core ctx bound position core p
termination_by structural t

theorem resolveNode_core (ctx : Context) (bound : List String) (position : Option Position)
    {t : TypeExpr} (core : (denoteNode {} [] t).isCore = true) (p : Progress) :
    resolveNode ctx bound position t p = (denoteNode {} [] t, p) := by
  cases t with
  | bool | nat | unit => rfl
  | arrow ps r =>
    rw [denoteNode, Ty.isCore, Bool.and_eq_true] at core
    rw [resolveNode, bind_apply, resolveAll_core ctx bound core.1, bind_apply,
      resolve_core ctx bound core.2]
    rfl
  | tuple ts =>
    rw [denoteNode, Ty.isCore] at core
    rw [resolveNode, bind_apply, resolveAll_core ctx bound core]
    rfl
  | list t | ref t =>
    rw [denoteNode, Ty.isCore] at core
    rw [resolveNode, bind_apply, resolve_core ctx bound core]
    rfl
  | _ => contradiction
termination_by structural t

theorem resolveAll_core (ctx : Context) (bound : List String) {ts : List (Located TypeExpr)}
    (core : Ty.isCoreAll (denoteAll {} [] ts) = true) (p : Progress) :
    resolveAll ctx bound ts p = (denoteAll {} [] ts, p) := by
  match ts with
  | [] => rfl
  | t :: ts =>
    rw [denoteAll, Ty.isCoreAll, Bool.and_eq_true] at core
    rw [resolveAll, bind_apply, resolve_core ctx bound core.1, bind_apply,
      resolveAll_core ctx bound core.2]
    rfl
termination_by structural ts

end

theorem denote_core (ctx : Context) {t : Located TypeExpr} (core : (annotated t).isCore = true) :
    denote ctx [] t = annotated t := by
  rw [← resolve_answer ctx [] t {}, resolve_core ctx [] core]

end Annotations

end Typing

end StellaLang
