import StellaLang.Proofs.Ty.Conformance
import StellaLang.Proofs.Typing.Run
import StellaLang.Typing.Block

/-! The checker beside itself under structural subtyping. A step is followed by another
if both are built alike from the operations of the checker, except that where the
first reports a fault the second may do anything. Every step of the checker is
followed by the same step under structural subtyping. -/
namespace StellaLang.Typing

open Syntax (Decl Expr Pattern TypeExpr UnaryOp)

namespace Context

/-- The context under structural subtyping. -/
def subtyped (ctx : Context) : Context :=
  { ctx with subtyping := true }

theorem conforms_subtyped {ctx : Context} {t u : Ty} (h : ctx.conforms t u = true) :
    ctx.subtyped.conforms t u = true :=
  Ty.conforms_with_subtyping h

end Context

namespace Check

/-- That the second step does what the first one does, and answers with the image of its
answer, unless the first one reports a fault. Only where `judging` is set may they keep the
types of expressions. -/
inductive Follows (judging : Bool) : {α β : Type} → (α → β) → Check α → Check β → Prop where
  | answer (φ : α → β) (a : α) : Follows judging φ (pure a) (pure (φ a))
  | bind {x : Check α} {y : Check β} {φ : α → β} {f : α → Check γ} {g : β → Check δ} {ψ : γ → δ}
      (first : Follows judging φ x y) (next : ∀ a, Follows judging ψ (f a) (g (φ a))) :
      Follows judging ψ (x >>= f) (y >>= g)
  | guarded {x : Check α} {y : Check β} {φ : α → β} (skipped : α) (inner : Follows judging φ x y) :
      Follows judging φ (guarded skipped x) (guarded (φ skipped) y)
  | report (fault : Fault) (position : Option Position) :
      Follows judging id (report fault position) (report fault position)
  | milder {φ : Ty → β} (fault : Fault) (position : Option Position) (y : Check β) :
      Follows judging φ (report fault position) y
  | note (level : Log.Level) (topic text : String) :
      Follows judging id (note level topic text) (note level topic text)
  | judge (allowed : judging = true) (ctx : Context) (e : Located Expr) (t : Ty) :
      Follows judging id (judge ctx e t) (judge ctx.subtyped e t)
  | meaning (ctx : Context) {t : Located TypeExpr}
      (resolved : Follows judging id (resolve ctx [] t) (resolve ctx.subtyped [] t)) :
      Follows judging id (meaning ctx t) (meaning ctx.subtyped t)

namespace Follows

theorem built {φ : α → β} {x : Check α} {y : Check β} (follows : Follows true φ x y) : Built x := by
  induction follows with
  | answer _ a => exact .answer a
  | bind _ _ first next => exact .bind first next
  | guarded skipped _ inner => exact .guarded skipped inner
  | report fault position => exact .report fault position
  | milder fault position => exact .report fault position
  | note level topic text => exact .note level topic text
  | judge _ ctx e t => exact .judge ctx e t
  | meaning ctx _ resolved => exact .meaning ctx resolved

variable {judging : Bool} {β γ : Type} {x y : Check α} {f g : α → Check β}

/-- Steps whose answers agree, one after the other. -/
theorem andThen (first : Follows judging id x y) (next : ∀ a, Follows judging id (f a) (g a)) :
    Follows judging id (x >>= f) (y >>= g) :=
  .bind first next

theorem same (a : α) : Follows judging id (pure a) (pure a) :=
  .answer id a

theorem map (first : Follows judging id x y) (h : α → γ) :
    Follows judging id (x >>= fun a => pure (h a)) (y >>= fun a => pure (h a)) :=
  .bind first fun a => same (h a)

end Follows

end Check

open Check Follows

variable {judging : Bool}

mutual

theorem resolve_follows (ctx : Context) (bound : List String) (t : Located TypeExpr) :
    Follows judging id (resolve ctx bound t) (resolve ctx.subtyped bound t) := by
  obtain ⟨t, position⟩ := t
  exact resolveNode_follows ctx bound position t
termination_by structural t

theorem resolveNode_follows (ctx : Context) (bound : List String) (position : Option Position)
    (t : TypeExpr) :
    Follows judging id (resolveNode ctx bound position t) (resolveNode ctx.subtyped bound position t) := by
  cases t with
  | auto | bool | nat | unit | top | bottom => exact same _
  | var x =>
    simp only [resolveNode]
    change Follows judging id _ (if bound.contains x || ctx.scope.hasTypeVar x then _ else
      match ctx.aliases.lookup x with | some t => _ | none => _)
    split
    · exact same _
    · cases ctx.aliases.lookup x with
      | some t => exact same t
      | none => exact .report _ _
  | arrow ps r =>
    exact .andThen (resolveAll_follows ctx bound ps) fun _ => .map (resolve_follows ctx bound r) _
  | forAll xs b => exact .map (resolve_follows ctx (bound ++ xs) b) _
  | recursive x b => exact .map (resolve_follows ctx (bound ++ [x]) b) _
  | sum l r =>
    exact .andThen (resolve_follows ctx bound l) fun _ => .map (resolve_follows ctx bound r) _
  | tuple ts => exact .map (resolveAll_follows ctx bound ts) _
  | record fs => exact .map (resolveFields_follows ctx bound fs) _
  | variant fs => exact .map (resolveAlternatives_follows ctx bound fs) _
  | list t => exact .map (resolve_follows ctx bound t) _
  | ref t => exact .map (resolve_follows ctx bound t) _
termination_by structural t

theorem resolveAll_follows (ctx : Context) (bound : List String) (ts : List (Located TypeExpr)) :
    Follows judging id (resolveAll ctx bound ts) (resolveAll ctx.subtyped bound ts) := by
  match ts with
  | [] => exact same _
  | t :: ts =>
    exact .andThen (resolve_follows ctx bound t) fun _ => .map (resolveAll_follows ctx bound ts) _
termination_by structural ts

theorem resolveFields_follows (ctx : Context) (bound : List String)
    (fs : List (String × Located TypeExpr)) :
    Follows judging id (resolveFields ctx bound fs) (resolveFields ctx.subtyped bound fs) := by
  match fs with
  | [] => exact same _
  | (l, t) :: fs =>
    exact .andThen (resolve_follows ctx bound t) fun _ =>
      .map (resolveFields_follows ctx bound fs) _
termination_by structural fs

theorem resolveAlternatives_follows (ctx : Context) (bound : List String)
    (fs : List (String × Option (Located TypeExpr))) :
    Follows judging id (resolveAlternatives ctx bound fs) (resolveAlternatives ctx.subtyped bound fs) := by
  match fs with
  | [] => exact same _
  | (l, none) :: fs => exact .map (resolveAlternatives_follows ctx bound fs) _
  | (l, some t) :: fs =>
    exact .andThen (resolve_follows ctx bound t) fun _ =>
      .map (resolveAlternatives_follows ctx bound fs) _
termination_by structural fs

end

theorem meaning_follows (ctx : Context) (t : Located TypeExpr) :
    Follows judging id (meaning ctx t) (meaning ctx.subtyped t) :=
  .meaning ctx (resolve_follows ctx [] t)

theorem meanings_follows (ctx : Context) (ts : List (Located TypeExpr)) :
    Follows judging id (meanings ctx ts) (meanings ctx.subtyped ts) := by
  induction ts with
  | nil => exact same _
  | cons t ts ih => exact .andThen (meaning_follows ctx t) fun _ => .map ih _

theorem require_follows (ctx : Context) (found expected : Ty) (position : Option Position) :
    Follows judging id (Check.require ctx found expected position)
      (Check.require ctx.subtyped found expected position) := by
  unfold Check.require
  cases conforming : ctx.conforms found expected with
  | true =>
    rw [Context.conforms_subtyped conforming]
    exact same ()
  | false =>
    cases ctx.subtyped.conforms found expected with
    | true => exact .bind (φ := fun _ => ()) (.milder _ _ (pure ())) fun _ => same ()
    | false => exact .map (.report _ _) _

section Patterns

theorem unexpectedPattern_follows (t : Ty) (position : Option Position) :
    Follows judging id (unexpectedPattern t position) (unexpectedPattern t position) :=
  .map (.report _ _) _

theorem literalBindings_follows (ctx : Context) (t expected : Ty) (position : Option Position) :
    Follows judging id (literalBindings ctx t expected position)
      (literalBindings ctx.subtyped t expected position) := by
  unfold literalBindings
  cases conforming : ctx.conforms t expected with
  | true =>
    rw [Context.conforms_subtyped conforming]
    exact same []
  | false =>
    cases ctx.subtyped.conforms t expected with
    | true =>
      change Follows judging id (Check.report _ position >>= fun _ => pure []) (pure () >>= fun _ => pure [])
      exact .bind (φ := fun _ => ()) (.milder _ _ (pure ())) fun _ => same []
    | false => exact unexpectedPattern_follows t position

/-- A report that nothing depends on, followed by an empty answer. -/
theorem reported_follows (fault : Fault) (position : Option Position) (answer : Bindings) :
    Follows judging id (Check.report fault position >>= fun _ => pure answer)
      (Check.report fault position >>= fun _ => pure answer) :=
  .map (.report _ _) _

mutual

theorem bindings_follows (ctx : Context) (t : Ty) (p : Located Pattern) :
    Follows judging id (bindings ctx t p) (bindings ctx.subtyped t p) := by
  obtain ⟨p, position⟩ := p
  exact .guarded [] (bindingsNode_follows ctx t position p)
termination_by structural p

theorem bindingsNode_follows (ctx : Context) (t : Ty) (position : Option Position) (p : Pattern) :
    Follows judging id (bindingsNode ctx t position p) (bindingsNode ctx.subtyped t position p) := by
  cases p with
  | castAs q type =>
    refine .andThen (meaning_follows ctx type) fun target => ?_
    dsimp only
    split
    · exact bindings_follows ctx target q
    · exact .andThen (.report _ _) fun _ => bindings_follows ctx target q
  | ascribed q type =>
    exact .andThen (meaning_follows ctx type) fun ascribed =>
      .andThen (require_follows ctx t ascribed position) fun _ => bindings_follows ctx ascribed q
  | variant l payload =>
    cases t with
    | variant fs =>
      rw [bindingsNode_variant, bindingsNode_variant]
      rcases fs.lookup l with _ | _ | u
      · exact reported_follows _ _ _
      · cases payload with
        | none => exact same _
        | some q => exact unexpectedPattern_follows _ _
      · cases payload with
        | none => exact unexpectedPattern_follows _ _
        | some q => exact bindings_follows ctx u q
    | never | unknown | error =>
      cases payload with
      | none => exact same _
      | some q => exact bindings_follows ctx _ q
    | _ => exact reported_follows _ _ _
  | inl q =>
    cases t with
    | sum l _ => exact bindings_follows ctx l q
    | never | unknown | error => exact bindings_follows ctx _ q
    | _ => exact unexpectedPattern_follows _ _
  | inr q =>
    cases t with
    | sum _ r => exact bindings_follows ctx r q
    | never | unknown | error => exact bindings_follows ctx _ q
    | _ => exact unexpectedPattern_follows _ _
  | tuple ps =>
    cases t with
    | tuple ts =>
      simp only [bindingsNode]
      split
      · exact bindingsEach_follows ctx ts ps
      · exact unexpectedPattern_follows _ _
    | never | unknown | error => exact bindingsAll_follows ctx _ ps
    | _ => exact unexpectedPattern_follows _ _
  | record fs =>
    cases t with
    | record gs => exact bindingsFields_follows ctx gs position fs
    | never | unknown | error => exact bindingsFieldsAll_follows ctx _ fs
    | _ => exact unexpectedPattern_follows _ _
  | list ps =>
    cases t with
    | list u => exact bindingsAll_follows ctx u ps
    | never | unknown | error => exact bindingsAll_follows ctx _ ps
    | _ => exact unexpectedPattern_follows _ _
  | cons h tail =>
    cases t with
    | list u =>
      exact .andThen (bindings_follows ctx u h) fun _ => .map (bindings_follows ctx (.list u) tail) _
    | never | unknown | error =>
      exact .andThen (bindings_follows ctx _ h) fun _ => .map (bindings_follows ctx _ tail) _
    | _ => exact unexpectedPattern_follows _ _
  | bool _ => exact literalBindings_follows ctx t .bool position
  | unit => exact literalBindings_follows ctx t .unit position
  | nat _ => exact literalBindings_follows ctx t .nat position
  | succ q =>
    exact .andThen (literalBindings_follows ctx t .nat position) fun _ =>
      .map (bindings_follows ctx .nat q) _
  | var x => exact same _
termination_by structural p

theorem bindingsAll_follows (ctx : Context) (t : Ty) (ps : List (Located Pattern)) :
    Follows judging id (bindingsAll ctx t ps) (bindingsAll ctx.subtyped t ps) := by
  match ps with
  | [] => exact same _
  | p :: ps =>
    exact .andThen (bindings_follows ctx t p) fun _ => .map (bindingsAll_follows ctx t ps) _
termination_by structural ps

theorem bindingsEach_follows (ctx : Context) (ts : List Ty) (ps : List (Located Pattern)) :
    Follows judging id (bindingsEach ctx ts ps) (bindingsEach ctx.subtyped ts ps) := by
  match ps, ts with
  | [], _ => exact same _
  | _ :: _, [] => exact same _
  | p :: ps, t :: ts =>
    exact .andThen (bindings_follows ctx t p) fun _ => .map (bindingsEach_follows ctx ts ps) _
termination_by structural ps

theorem bindingsFields_follows (ctx : Context) (gs : List (String × Ty))
    (position : Option Position) (fs : List (String × Located Pattern)) :
    Follows judging id (bindingsFields ctx gs position fs)
      (bindingsFields ctx.subtyped gs position fs) := by
  match fs with
  | [] => exact same _
  | (l, p) :: fs =>
    rw [bindingsFields_cons, bindingsFields_cons]
    cases gs.lookup l with
    | some t =>
      exact .andThen (bindings_follows ctx t p) fun _ =>
        .map (bindingsFields_follows ctx gs position fs) _
    | none => exact .andThen (.report _ _) fun _ => bindingsFields_follows ctx gs position fs
termination_by structural fs

theorem bindingsFieldsAll_follows (ctx : Context) (t : Ty)
    (fs : List (String × Located Pattern)) :
    Follows judging id (bindingsFieldsAll ctx t fs) (bindingsFieldsAll ctx.subtyped t fs) := by
  match fs with
  | [] => exact same _
  | (_, p) :: fs =>
    exact .andThen (bindings_follows ctx t p) fun _ => .map (bindingsFieldsAll_follows ctx t fs) _
termination_by structural fs

end

end Patterns

end StellaLang.Typing
