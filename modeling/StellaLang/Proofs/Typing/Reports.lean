import Mathlib.Algebra.GroupWithZero.Nat
import StellaLang.Proofs.Syntax.Children
import StellaLang.Proofs.Typing.Findings
import StellaLang.Ty.Equality

/-! How often one error is found. Each node of a tree has its share in an error: none if the error
stands elsewhere, and as a rule one if it stands there. Finding out what an annotation means or what a
pattern binds adds the error at most as often as the shares of its nodes come to. An
expression is judged by what it is a part of too, so its share is split between the two. -/
namespace StellaLang.Syntax

/-- The labels that a pattern asks for. -/
def Node.fieldLabels : Node → List String
  | .pattern ⟨.record fs, _⟩ => fs.map (·.1)
  | _ => []

end StellaLang.Syntax

namespace StellaLang.Typing

open Syntax

deriving instance DecidableEq for Fault, TypeError

/-- Who reports a fault that stands at an expression: the expression, or the construct that it is an
operand of. -/
inductive Reporter where
  | self
  | parent
  | nobody
deriving DecidableEq

def Fault.reporter : Fault → Reporter
  | mismatch .. | notAFunction _ | notATuple _ | notARecord _ | notAReference _ | notAList _
  | notAGeneric _ | wrongTypeArgCount .. | wrongArgCount .. => .parent
  | missingMain => .nobody
  | _ => .self

/-- How often a fault may be found at a node. Only a missing field is looked for more than once, for
each label of a pattern. -/
def Fault.chances (fault : Fault) (n : Node) : Nat :=
  match n, fault with
  | .pattern ⟨.record fs, _⟩, .missingRecordField l _ => (fs.map (·.1)).count l
  | _, _ => 1

namespace TypeError

variable (err : TypeError)

/-- Whether the error stands at a place. -/
def here (position : Option Position) : Nat :=
  if position = err.position then 1 else 0

/-- What an expression at a place may report itself. -/
def own (position : Option Position) : Nat :=
  if err.fault.reporter = .self then err.here position else 0

/-- What may be reported at an expression from outside. -/
def outer (position : Option Position) : Nat :=
  if err.fault.reporter = .parent then err.here position else 0

def share (n : Node) : Nat :=
  if n.position = err.position then err.fault.chances n else 0

/-- The shares of some nodes together. -/
def tally (ns : List Node) : Nat :=
  (ns.map err.share).sum

theorem own_add_outer (position : Option Position) :
    err.own position + err.outer position ≤ err.here position := by
  unfold own outer
  cases err.fault.reporter <;> simp

theorem own_le_here (position : Option Position) : err.own position ≤ err.here position :=
  le_trans (Nat.le_add_right _ _) (err.own_add_outer position)

@[simp] theorem tally_append (ns ms : List Node) : err.tally (ns ++ ms) = err.tally ns + err.tally ms := by
  rw [tally, List.map_append, List.sum_append]
  rfl

theorem tally_single (n : Node) : err.tally [n] = err.share n :=
  Nat.add_zero _

/-- What finding the type of an expression may add, without what is reported from outside. -/
def within (e : Located Expr) : Nat :=
  err.tally (Expr.inside e.node) + err.own e.position

theorem within_add_outer (e : Located Expr) :
    err.within e + err.outer e.position ≤ err.tally (Expr.postOrder e) := by
  obtain ⟨e, position⟩ := e
  have parts := err.own_add_outer position
  have share : err.share (.expr ⟨e, position⟩) = err.here position := rfl
  rw [Expr.postOrder, tally_append, tally_single, within]
  dsimp only
  omega

theorem within_le (e : Located Expr) : err.within e ≤ err.tally (Expr.postOrder e) :=
  le_trans (Nat.le_add_right _ _) (err.within_add_outer e)

end TypeError

/-- A fault of a node stands at the node. -/
theorem Fault.at_eq {fault : Fault} (placed : fault.reporter ≠ .nobody) (position : Option Position) :
    fault.at position = ⟨fault, position⟩ := by
  cases fault with
  | missingMain => exact absurd rfl placed
  | _ => rfl

namespace Check

/-- That a step finds an error at most so often. -/
def Reports (err : TypeError) (most : Nat) (x : Check α) : Prop :=
  ∃ a es, Gives x a es ∧ es.count err ≤ most

namespace Reports

variable {err : TypeError} {m n : Nat} {x : Check α}

/-- A step that finds nothing. -/
theorem answer (a : α) : Reports err m (pure a) :=
  ⟨a, [], .answer a, Nat.zero_le m⟩

theorem bind {f : α → Check β} (first : Reports err m x) (next : ∀ a, Reports err n (f a)) :
    Reports err (m + n) (x >>= f) := by
  obtain ⟨a, es, found, few⟩ := first
  obtain ⟨b, fs, more, few'⟩ := next a
  refine ⟨b, es ++ fs, found.bind more, ?_⟩
  rw [List.count_append]
  omega

theorem mono (first : Reports err m x) (le : m ≤ n) : Reports err n x := by
  obtain ⟨a, es, found, few⟩ := first
  exact ⟨a, es, found, le_trans few le⟩

theorem map (first : Reports err m x) (h : α → β) : Reports err m (x >>= fun a => pure (h a)) :=
  first.bind fun a => answer (m := 0) (h a)

theorem left (first : Reports err m x) : Reports err (m + n) x :=
  first.mono (Nat.le_add_right m n)

theorem right (second : Reports err n x) : Reports err (m + n) x :=
  second.mono (Nat.le_add_left n m)

theorem guarded (skipped : α) (inner : Reports err m x) : Reports err m (guarded skipped x) := by
  obtain ⟨a, es, found, few⟩ := inner
  exact ⟨a, es, found.guarded skipped, few⟩

theorem note (level : Log.Level) (topic text : String) : Reports err 0 (note level topic text) :=
  ⟨(), [], .note level topic text, Nat.le_refl 0⟩

theorem judge (ctx : Context) (e : Located Expr) (t : Ty) : Reports err 0 (judge ctx e t) :=
  ⟨(), [], .judge ctx e t, Nat.le_refl 0⟩

theorem meaning {ctx : Context} {t : Located TypeExpr} (resolved : Reports err m (resolve ctx [] t)) :
    Reports err m (meaning ctx t) := by
  obtain ⟨a, es, found, few⟩ := resolved
  exact ⟨a, es, found.meaning, few⟩

/-- A report adds one error, which is this one or another. -/
theorem report {fault : Fault} {position : Option Position}
    (this : fault.at position = err → 1 ≤ m) : Reports err m (report fault position) := by
  refine ⟨.error, _, .report fault position, ?_⟩
  rw [List.count_singleton]
  split
  · exact this (by simpa using ‹(fault.at position == err) = true›)
  · exact Nat.zero_le m

/-- What a node reports itself, at its own place. -/
theorem report_self {fault : Fault} (own : fault.reporter = .self) (position : Option Position) :
    Reports err (err.own position) (Check.report fault position) := by
  refine report fun this => ?_
  rw [Fault.at_eq (by rw [own]; decide)] at this
  subst this
  simp [TypeError.own, TypeError.here, own]

/-- What is reported at a node by the node around it. -/
theorem report_parent {fault : Fault} (outer : fault.reporter = .parent) (position : Option Position) :
    Reports err (err.outer position) (Check.report fault position) := by
  refine report fun this => ?_
  rw [Fault.at_eq (by rw [outer]; decide)] at this
  subst this
  simp [TypeError.outer, TypeError.here, outer]

theorem require (ctx : Context) (t u : Ty) (position : Option Position) :
    Reports err (err.outer position) (require ctx t u position) := by
  unfold Check.require
  split
  · exact answer ()
  · exact (report_parent rfl position).map _

theorem join (ctx : Context) (t u : Ty) (position : Option Position) :
    Reports err (err.outer position) (join ctx t u position) := by
  unfold Check.join
  split
  · exact answer _
  · exact report_parent rfl position

theorem eliminate {fault : Ty → Fault} (outer : ∀ t, (fault t).reporter = .parent) (t : Ty)
    (position : Option Position) : Reports err (err.outer position) (eliminate t fault position) := by
  unfold Typing.eliminate
  split
  · exact answer _
  split
  · exact answer _
  · exact report_parent (outer t) position

end Reports

end Check

open Check (Reports)

variable {err : TypeError}

section Annotations

mutual

/-- A name that stands for nothing is reported where it stands. -/
theorem resolve_reports (ctx : Context) (bound : List String) (t : Located TypeExpr) :
    Reports err (err.tally (TypeExpr.postOrder t)) (resolve ctx bound t) := by
  obtain ⟨t, position⟩ := t
  rw [TypeExpr.postOrder, err.tally_append, err.tally_single]
  exact resolveNode_reports ctx bound position t
termination_by structural t

theorem resolveNode_reports (ctx : Context) (bound : List String) (position : Option Position)
    (t : TypeExpr) :
    Reports err (err.tally (TypeExpr.inside t) + err.here position) (resolveNode ctx bound position t) := by
  cases t with
  | auto | bool | nat | unit | top | bottom => exact .answer _
  | var x =>
    rw [resolveNode]
    split
    · exact .answer _
    split
    · exact .answer _
    · exact ((Reports.report_self rfl position).mono (err.own_le_here position)).right
  | arrow ps r =>
    rw [TypeExpr.inside, err.tally_append]
    exact ((resolveAll_reports ctx bound ps).bind fun _ => (resolve_reports ctx bound r).map _).left
  | sum l r =>
    rw [TypeExpr.inside, err.tally_append]
    exact ((resolve_reports ctx bound l).bind fun _ => (resolve_reports ctx bound r).map _).left
  | forAll xs b => exact ((resolve_reports ctx (bound ++ xs) b).map _).left
  | recursive x b => exact ((resolve_reports ctx (bound ++ [x]) b).map _).left
  | tuple ts => exact ((resolveAll_reports ctx bound ts).map _).left
  | record fs => exact ((resolveFields_reports ctx bound fs).map _).left
  | variant fs => exact ((resolveAlternatives_reports ctx bound fs).map _).left
  | list t => exact ((resolve_reports ctx bound t).map _).left
  | ref t => exact ((resolve_reports ctx bound t).map _).left
termination_by structural t

theorem resolveAll_reports (ctx : Context) (bound : List String) (ts : List (Located TypeExpr)) :
    Reports err (err.tally (TypeExpr.postOrderAll ts)) (resolveAll ctx bound ts) := by
  match ts with
  | [] => exact .answer _
  | t :: ts =>
    rw [TypeExpr.postOrderAll, err.tally_append]
    exact (resolve_reports ctx bound t).bind fun _ => (resolveAll_reports ctx bound ts).map _
termination_by structural ts

theorem resolveFields_reports (ctx : Context) (bound : List String)
    (fs : List (String × Located TypeExpr)) :
    Reports err (err.tally (TypeExpr.postOrderFields fs)) (resolveFields ctx bound fs) := by
  match fs with
  | [] => exact .answer _
  | (_, t) :: fs =>
    rw [TypeExpr.postOrderFields, err.tally_append]
    exact (resolve_reports ctx bound t).bind fun _ => (resolveFields_reports ctx bound fs).map _
termination_by structural fs

theorem resolveAlternatives_reports (ctx : Context) (bound : List String)
    (fs : List (String × Option (Located TypeExpr))) :
    Reports err (err.tally (TypeExpr.postOrderAlternatives fs)) (resolveAlternatives ctx bound fs) := by
  match fs with
  | [] => exact .answer _
  | (_, none) :: fs => exact (resolveAlternatives_reports ctx bound fs).map _
  | (_, some t) :: fs =>
    rw [TypeExpr.postOrderAlternatives, err.tally_append]
    exact (resolve_reports ctx bound t).bind fun _ => (resolveAlternatives_reports ctx bound fs).map _
termination_by structural fs

end

theorem meaning_reports (ctx : Context) (t : Located TypeExpr) :
    Reports err (err.tally (TypeExpr.postOrder t)) (meaning ctx t) :=
  (resolve_reports ctx [] t).meaning

theorem meanings_reports (ctx : Context) (ts : List (Located TypeExpr)) :
    Reports err (err.tally (TypeExpr.postOrderAll ts)) (meanings ctx ts) := by
  induction ts with
  | nil => exact .answer _
  | cons t ts ih =>
    rw [TypeExpr.postOrderAll, err.tally_append]
    exact (meaning_reports ctx t).bind fun _ => ih.map _

theorem bindParams_reports (ctx : Context) (params : List (String × Located TypeExpr)) :
    Reports err (err.tally (TypeExpr.postOrderFields params)) (bindParams ctx params) := by
  induction params generalizing ctx with
  | nil => exact .answer _
  | cons param params ih =>
    rw [TypeExpr.postOrderFields, err.tally_append]
    exact (meaning_reports ctx param.2).bind fun t => (ih (ctx.bind param.1 t)).map _

end Annotations

section Patterns

/-- The fields that a pattern may report as missing. -/
def TypeError.missed (err : TypeError) (position : Option Position) (labels : List String) : Nat :=
  match err.fault with
  | .missingRecordField l _ => if position = err.position then labels.count l else 0
  | _ => 0

/-- A label may be missing in addition to those after it. -/
theorem TypeError.missed_cons (err : TypeError) (position : Option Position) (l : String)
    (labels : List String) :
    err.missed position (l :: labels) = err.missed position [l] + err.missed position labels := by
  unfold missed
  split
  · split
    · rw [← List.singleton_append, List.count_append]
    · rfl
  · rfl

theorem report_missing (position : Option Position) (l : String) (t : Ty) :
    Reports err (err.missed position [l]) (Check.report (.missingRecordField l t) position) := by
  refine .report fun this => ?_
  subst this
  simp [TypeError.missed, Fault.at]

theorem missed_le_share (position : Option Position) (fs : List (String × Located Pattern)) :
    err.missed position (fs.map (·.1)) ≤ err.share (.pattern ⟨.record fs, position⟩) := by
  unfold TypeError.missed
  split
  · rename_i l t fault
    rw [TypeError.share, fault]
    exact Nat.le_refl _
  · exact Nat.zero_le _

/-- Whether a fault is that of a node and not of a part of it that is no node. -/
def Fault.isOfWhole : Fault → Bool
  | missingMain | missingRecordField .. => false
  | _ => true

/-- What a pattern may report where it stands, apart from missing fields. -/
theorem report_pattern {fault : Fault} (once : fault.isOfWhole = true) (position : Option Position)
    (p : Pattern) :
    Reports err (err.share (.pattern ⟨p, position⟩)) (Check.report fault position) := by
  refine .report fun this => ?_
  rw [Fault.at_eq (by rintro nobody; cases fault <;> contradiction)] at this
  subst this
  have chances : fault.chances (.pattern ⟨p, position⟩) = 1 := by
    unfold Fault.chances
    split
    · contradiction
    · rfl
  have stands : (Node.pattern ⟨p, position⟩).position = position := rfl
  rw [TypeError.share, if_pos stands, chances]

theorem unexpectedPattern_reports (t : Ty) (position : Option Position) (p : Pattern) :
    Reports err (err.share (.pattern ⟨p, position⟩)) (unexpectedPattern t position) :=
  (report_pattern rfl position p).map _

theorem require_pattern (ctx : Context) (t u : Ty) (position : Option Position) (p : Pattern) :
    Reports err (err.share (.pattern ⟨p, position⟩)) (Check.require ctx t u position) := by
  unfold Check.require
  split
  · exact .answer _
  · exact (report_pattern rfl position p).map _

theorem literalBindings_reports (ctx : Context) (t expected : Ty) (position : Option Position)
    (p : Pattern) :
    Reports err (err.share (.pattern ⟨p, position⟩)) (literalBindings ctx t expected position) := by
  unfold literalBindings
  split
  · exact .answer _
  · exact unexpectedPattern_reports t position p

mutual

/-- A pattern that does not fit is reported where it stands, once. -/
theorem bindings_reports (ctx : Context) (t : Ty) (p : Located Pattern) :
    Reports err (err.tally (Pattern.postOrder p)) (bindings ctx t p) := by
  obtain ⟨p, position⟩ := p
  rw [Pattern.postOrder, err.tally_append, err.tally_single]
  exact .guarded [] (bindingsNode_reports ctx t position p)
termination_by structural p

theorem bindingsNode_reports (ctx : Context) (t : Ty) (position : Option Position) (p : Pattern) :
    Reports err (err.tally (Pattern.inside p) + err.share (.pattern ⟨p, position⟩))
      (bindingsNode ctx t position p) := by
  cases p with
  | castAs q type =>
    have cast (target : Ty) : Reports err
        (err.share (.pattern ⟨.castAs q type, position⟩) + err.tally (Pattern.postOrder q)) (do
        unless t.castableTo target do
          let _ ← Check.report (.illegalCast t target) position
        bindings ctx target q) := by
      split
      · exact (bindings_reports ctx target q).right
      · exact .bind (report_pattern rfl position _) fun _ =>
          bindings_reports ctx target q
    refine ((meaning_reports ctx type).bind cast).mono ?_
    rw [Pattern.inside, err.tally_append]
    omega
  | ascribed q type =>
    refine ((meaning_reports ctx type).bind fun ascribed =>
      (require_pattern ctx t ascribed position (.ascribed q type)).bind fun _ =>
        bindings_reports ctx ascribed q).mono ?_
    rw [Pattern.inside, err.tally_append]
    omega
  | variant l payload =>
    cases t with
    | variant fs =>
      rw [bindingsNode_variant]
      rcases fs.lookup l with _ | _ | u
      · exact ((report_pattern rfl position _).map _).right
      · cases payload with
        | none => exact .answer _
        | some q => exact (unexpectedPattern_reports _ position _).right
      · cases payload with
        | none => exact (unexpectedPattern_reports _ position _).right
        | some q => exact (bindings_reports ctx u q).left
    | never | unknown | error =>
      cases payload with
      | none => exact .answer _
      | some q => exact (bindings_reports ctx _ q).left
    | _ => exact ((report_pattern rfl position _).map _).right
  | inl q =>
    cases t with
    | sum l _ => exact (bindings_reports ctx l q).left
    | never | unknown | error => exact (bindings_reports ctx _ q).left
    | _ => exact (unexpectedPattern_reports _ position _).right
  | inr q =>
    cases t with
    | sum _ r => exact (bindings_reports ctx r q).left
    | never | unknown | error => exact (bindings_reports ctx _ q).left
    | _ => exact (unexpectedPattern_reports _ position _).right
  | tuple ps =>
    cases t with
    | tuple ts =>
      simp only [bindingsNode]
      split
      · exact (bindingsEach_reports ctx ts ps).left
      · exact (unexpectedPattern_reports _ position _).right
    | never | unknown | error => exact (bindingsAll_reports ctx _ ps).left
    | _ => exact (unexpectedPattern_reports _ position _).right
  | record fs =>
    cases t with
    | record gs =>
      exact (bindingsFields_reports ctx gs position fs).mono
        (Nat.add_le_add_left (missed_le_share position fs) _)
    | never | unknown | error => exact (bindingsFieldsAll_reports ctx _ fs).left
    | _ => exact (unexpectedPattern_reports _ position _).right
  | list ps =>
    cases t with
    | list u => exact (bindingsAll_reports ctx u ps).left
    | never | unknown | error => exact (bindingsAll_reports ctx _ ps).left
    | _ => exact (unexpectedPattern_reports _ position _).right
  | cons h tail =>
    have both (u v : Ty) : Reports err (err.tally (Pattern.inside (.cons h tail)))
        (do return (← bindings ctx u h) ++ (← bindings ctx v tail)) := by
      rw [Pattern.inside, err.tally_append]
      exact (bindings_reports ctx u h).bind fun _ => (bindings_reports ctx v tail).map _
    cases t with
    | list u => exact (both u (.list u)).left
    | never | unknown | error => exact (both _ _).left
    | _ => exact (unexpectedPattern_reports _ position _).right
  | bool _ => exact (literalBindings_reports ctx t .bool position _).right
  | unit => exact (literalBindings_reports ctx t .unit position _).right
  | nat _ => exact (literalBindings_reports ctx t .nat position _).right
  | succ q =>
    refine ((literalBindings_reports ctx t .nat position (.succ q)).bind fun _ =>
      (bindings_reports ctx .nat q).map _).mono ?_
    exact Nat.le_of_eq (Nat.add_comm _ _)
  | var x => exact .answer _
termination_by structural p

theorem bindingsAll_reports (ctx : Context) (t : Ty) (ps : List (Located Pattern)) :
    Reports err (err.tally (Pattern.postOrderAll ps)) (bindingsAll ctx t ps) := by
  match ps with
  | [] => exact .answer _
  | p :: ps =>
    rw [Pattern.postOrderAll, err.tally_append]
    exact (bindings_reports ctx t p).bind fun _ => (bindingsAll_reports ctx t ps).map _
termination_by structural ps

theorem bindingsEach_reports (ctx : Context) (ts : List Ty) (ps : List (Located Pattern)) :
    Reports err (err.tally (Pattern.postOrderAll ps)) (bindingsEach ctx ts ps) := by
  match ps, ts with
  | [], _ => exact .answer _
  | _ :: _, [] => exact .answer _
  | p :: ps, t :: ts =>
    rw [Pattern.postOrderAll, err.tally_append]
    exact (bindings_reports ctx t p).bind fun _ => (bindingsEach_reports ctx ts ps).map _
termination_by structural ps

theorem bindingsFields_reports (ctx : Context) (gs : List (String × Ty)) (position : Option Position)
    (fs : List (String × Located Pattern)) :
    Reports err (err.tally (Pattern.postOrderFields fs) + err.missed position (fs.map (·.1)))
      (bindingsFields ctx gs position fs) := by
  match fs with
  | [] => exact .answer _
  | (l, p) :: fs =>
    have rest := bindingsFields_reports ctx gs position fs
    rw [bindingsFields_cons, Pattern.postOrderFields, err.tally_append, List.map_cons, err.missed_cons]
    cases gs.lookup l with
    | some t =>
      refine ((bindings_reports ctx t p).bind fun _ => rest.map _).mono ?_
      omega
    | none =>
      refine ((report_missing position l (.record gs)).bind fun _ => rest).mono ?_
      dsimp only
      omega
termination_by structural fs

theorem bindingsFieldsAll_reports (ctx : Context) (t : Ty) (fs : List (String × Located Pattern)) :
    Reports err (err.tally (Pattern.postOrderFields fs)) (bindingsFieldsAll ctx t fs) := by
  match fs with
  | [] => exact .answer _
  | (_, p) :: fs =>
    rw [Pattern.postOrderFields, err.tally_append]
    exact (bindings_reports ctx t p).bind fun _ => (bindingsFieldsAll_reports ctx t fs).map _
termination_by structural fs

end

end Patterns

end StellaLang.Typing
