import Mathlib.Data.List.Forall2
import StellaLang.Proofs.Typing.Cache

/-! What the steps of the checker find when nothing limits them. A step then has one answer and one
list of errors, whatever was found out before it. So two steps, also of different
programs, can be set beside each other by what they find. -/
namespace StellaLang.Typing

open Syntax (Expr TypeExpr)

/-- The states in which nothing stops the checker and the cache can be relied on. -/
structure Progress.Free (p : Progress) : Prop where
  limits : p.limits = {}
  active : p.halted = false
  sound : p.CacheSound

namespace Progress.Free

variable {p q : Progress}

theorem start : Free {} :=
  ⟨rfl, rfl, .start {}⟩

theorem of_eq (free : p.Free) (limits : q.limits = p.limits) (halted : q.halted = p.halted)
    (sound : q.CacheSound) : q.Free :=
  ⟨limits.trans free.limits, halted.trans free.active, sound⟩

theorem record (free : p.Free) (error : TypeError) : (p.record error).Free := by
  have unlimited := (Grown.record p error).unlimited free.limits free.active
  exact ⟨(record_limits error).trans free.limits, unlimited,
    free.sound.of_entries (congrArg Memo.entries (record_cache error))⟩

end Progress.Free

namespace Check

/-- That a step answers `a` and adds the errors `es`, wherever it starts from. -/
def Gives (x : Check α) (a : α) (es : List TypeError) : Prop :=
  ∀ p, p.Free → (x p).1 = a ∧ (x p).2.errors = p.errors ++ es ∧ (x p).2.Free

namespace Gives

variable {x : Check α} {a : α} {es : List TypeError}

theorem answer (a : α) : Gives (pure a) a [] :=
  fun p free => ⟨rfl, (List.append_nil p.errors).symm, free⟩

theorem bind {f : α → Check β} {b : β} {fs : List TypeError} (first : Gives x a es)
    (next : Gives (f a) b fs) : Gives (x >>= f) b (es ++ fs) := by
  intro p free
  obtain ⟨rfl, added, still⟩ := first p free
  obtain ⟨found, more, after⟩ := next _ still
  refine ⟨found, ?_, after⟩
  rw [bind_apply, more, added, List.append_assoc]

theorem guarded (skipped : α) (inner : Gives x a es) : Gives (guarded skipped x) a es := by
  intro p free
  rw [guarded_of_active skipped x free.active]
  exact inner p free

theorem report (fault : Fault) (position : Option Position) :
    Gives (report fault position) .error [fault.at position] :=
  fun _ free => ⟨rfl, Progress.record_errors _ free.active, free.record _⟩

theorem note (level : Log.Level) (topic text : String) : Gives (note level topic text) () [] :=
  fun p free => ⟨rfl, (List.append_nil p.errors).symm,
    free.of_eq rfl rfl (free.sound.of_entries rfl)⟩

theorem judge (ctx : Context) (e : Located Expr) (t : Ty) : Gives (judge ctx e t) () [] :=
  fun p free => ⟨rfl, (List.append_nil p.errors).symm,
    free.of_eq rfl rfl (free.sound.of_entries rfl)⟩

/-- The cache hides nothing. -/
theorem meaning {ctx : Context} {t : Located TypeExpr} {u : Ty}
    (resolved : Gives (resolve ctx [] t) u es) : Gives (meaning ctx t) u es := by
  intro p free
  obtain ⟨found, added, after⟩ := resolved p free
  have built : Built (Typing.meaning ctx t) := (meaning_follows ctx t).built
  have sound := built.cacheSound free.sound
  have same := meaning_eq_resolve ctx t free.sound
  refine ⟨?_, ?_, ?_, ?_, sound⟩
  · rw [same, found]
  · rw [same, added]
  · rw [same, after.limits]
  · rw [same, after.active]

/-- A step finds one thing. -/
theorem unique {b : α} {fs : List TypeError} (first : Gives x a es) (second : Gives x b fs) :
    b = a ∧ fs = es := by
  obtain ⟨rfl, added, -⟩ := first {} .start
  obtain ⟨rfl, added', -⟩ := second {} .start
  exact ⟨rfl, List.append_cancel_left (added'.symm.trans added)⟩

end Gives

/-- A relation of lists of errors that can be shown piece by piece. -/
class Additive (E : List TypeError → List TypeError → Prop) : Prop where
  none : E [] []
  append {es es' fs fs' : List TypeError} (first : E es fs) (second : E es' fs') :
    E (es ++ es') (fs ++ fs')

/-- That two steps find something, with answers and errors in given relations. -/
def Agree (E : List TypeError → List TypeError → Prop) (R : α → β → Prop) (x : Check α) (y : Check β) :
    Prop :=
  ∃ a b es fs, Gives x a es ∧ Gives y b fs ∧ R a b ∧ E es fs

namespace Agree

variable {E : List TypeError → List TypeError → Prop} [Additive E] {R : α → β → Prop}
  {S : γ → δ → Prop} {x : Check α} {y : Check β}

theorem answer {a : α} {b : β} (related : R a b) : Agree E R (pure a) (pure b) :=
  ⟨a, b, [], [], .answer a, .answer b, related, Additive.none⟩

theorem bind {f : α → Check γ} {g : β → Check δ} (first : Agree E R x y)
    (next : ∀ a b, R a b → Agree E S (f a) (g b)) : Agree E S (x >>= f) (y >>= g) := by
  obtain ⟨a, b, es, fs, found, found', related, errors⟩ := first
  obtain ⟨c, d, es', fs', more, more', related', errors'⟩ := next a b related
  exact ⟨c, d, es ++ es', fs ++ fs', found.bind more, found'.bind more', related',
    Additive.append errors errors'⟩

/-- Steps with one answer. -/
theorem andThen {x y : Check α} {f : α → Check γ} {g : α → Check δ} (first : Agree E Eq x y)
    (next : ∀ a, Agree E S (f a) (g a)) : Agree E S (x >>= f) (y >>= g) :=
  first.bind fun a _ same => same ▸ next a

omit [Additive E] in
theorem guarded {a : α} {b : β} (inner : Agree E R x y) :
    Agree E R (guarded a x) (guarded b y) := by
  obtain ⟨c, d, es, fs, found, found', related⟩ := inner
  exact ⟨c, d, es, fs, found.guarded a, found'.guarded b, related⟩

omit [Additive E] in
theorem report {f g : Fault} {position position' : Option Position}
    (moved : E [f.at position] [g.at position']) :
    Agree E Eq (report f position) (report g position') :=
  ⟨.error, .error, _, _, .report f position, .report g position', rfl, moved⟩

theorem note (level : Log.Level) (topic text text' : String) :
    Agree E Eq (note level topic text) (note level topic text') :=
  ⟨(), (), [], [], .note level topic text, .note level topic text', rfl, Additive.none⟩

theorem judge (ctx ctx' : Context) (e e' : Located Expr) (t t' : Ty) :
    Agree E Eq (judge ctx e t) (judge ctx' e' t') :=
  ⟨(), (), [], [], .judge ctx e t, .judge ctx' e' t', rfl, Additive.none⟩

omit [Additive E] in
theorem meaning {ctx ctx' : Context} {t t' : Located TypeExpr} {R : Ty → Ty → Prop}
    (resolved : Agree E R (resolve ctx [] t) (resolve ctx' [] t')) :
    Agree E R (meaning ctx t) (meaning ctx' t') := by
  obtain ⟨a, b, es, fs, found, found', related⟩ := resolved
  exact ⟨a, b, es, fs, found.meaning, found'.meaning, related⟩

theorem same (a : α) : Agree E Eq (pure a) (pure a) :=
  answer rfl

theorem map {x y : Check α} (first : Agree E Eq x y) (h : α → γ) :
    Agree E Eq (x >>= fun a => pure (h a)) (y >>= fun a => pure (h a)) :=
  first.andThen fun a => same (h a)

end Agree

end Check

/-- One fault, at a place and where that place is moved to. -/
def TypeError.Moved (f : Option Position → Option Position) (e e' : TypeError) : Prop :=
  ∃ fault position, e = Fault.at position fault ∧ e' = Fault.at (f position) fault

/-- The same faults in the same order, at places that are moved. -/
abbrev Moved (f : Option Position → Option Position) (es es' : List TypeError) : Prop :=
  List.Forall₂ (TypeError.Moved f) es es'

instance (f : Option Position → Option Position) : Check.Additive (Moved f) where
  none := .nil
  append first second := List.rel_append first second

theorem Moved.report (f : Option Position → Option Position) (fault : Fault) (position : Option Position) :
    Moved f [fault.at position] [fault.at (f position)] :=
  .cons ⟨fault, position, rfl, rfl⟩ .nil

/-- Faults that stay where they are do not change. -/
theorem Moved.eq {es es' : List TypeError} (moved : Moved id es es') : es' = es := by
  induction moved with
  | nil => rfl
  | cons first _ ih =>
    obtain ⟨fault, position, rfl, rfl⟩ := first
    exact congrArg (_ :: ·) ih

namespace Context

/-- Two contexts in which all types mean the same. -/
structure SameTypes (ctx ctx' : Context) : Prop where
  environment : ctx'.toEnvironment = ctx.toEnvironment
  typeVars : ∀ x, ctx'.scope.hasTypeVar x = ctx.scope.hasTypeVar x

/-- Two contexts in which all names mean the same, in whatever frames they are. -/
structure Alike (ctx ctx' : Context) : Prop extends ctx.SameTypes ctx' where
  vars : ∀ x, ctx'.scope.lookup x = ctx.scope.lookup x

namespace SameTypes

variable {ctx ctx' ctx'' : Context}

theorem refl (ctx : Context) : ctx.SameTypes ctx :=
  ⟨rfl, fun _ => rfl⟩

theorem symm (same : ctx.SameTypes ctx') : ctx'.SameTypes ctx :=
  ⟨same.environment.symm, fun x => (same.typeVars x).symm⟩

theorem trans (first : ctx.SameTypes ctx') (second : ctx'.SameTypes ctx'') : ctx.SameTypes ctx'' :=
  ⟨second.environment.trans first.environment,
    fun x => (second.typeVars x).trans (first.typeVars x)⟩

theorem bind (ctx : Context) (x : String) (t : Ty) : ctx.SameTypes (ctx.bind x t) :=
  ⟨rfl, fun _ => rfl⟩

theorem push (same : ctx.SameTypes ctx') : ctx.push.SameTypes ctx'.push :=
  ⟨same.environment, same.typeVars⟩

theorem bindTypeVars (same : ctx.SameTypes ctx') (xs : List String) :
    (ctx.bindTypeVars xs).SameTypes (ctx'.bindTypeVars xs) := by
  refine ⟨same.environment, fun x => ?_⟩
  rw [Context.bindTypeVars, Context.bindTypeVars, Scope.hasTypeVar_bindTypeVars,
    Scope.hasTypeVar_bindTypeVars, same.typeVars x]

theorem conforms (same : ctx.SameTypes ctx') (t u : Ty) : ctx'.conforms t u = ctx.conforms t u := by
  rw [Context.conforms, Context.conforms, same.environment]

theorem exception? (same : ctx.SameTypes ctx') : ctx'.exception? = ctx.exception? := by
  unfold Context.exception?
  rw [same.environment]

end SameTypes

namespace Alike

variable {ctx ctx' ctx'' : Context}

theorem refl (ctx : Context) : ctx.Alike ctx :=
  ⟨.refl ctx, fun _ => rfl⟩

theorem trans (first : ctx.Alike ctx') (second : ctx'.Alike ctx'') : ctx.Alike ctx'' :=
  ⟨first.toSameTypes.trans second.toSameTypes, fun x => (second.vars x).trans (first.vars x)⟩

theorem push (alike : ctx.Alike ctx') : ctx.push.Alike ctx'.push :=
  ⟨alike.toSameTypes.push, alike.vars⟩

theorem bind (alike : ctx.Alike ctx') (x : String) (t : Ty) : (ctx.bind x t).Alike (ctx'.bind x t) := by
  refine ⟨⟨alike.environment, alike.typeVars⟩, fun y => ?_⟩
  rw [Context.bind, Context.bind, Scope.lookup_bind, Scope.lookup_bind, alike.vars y]

theorem bindTypeVars (alike : ctx.Alike ctx') (xs : List String) :
    (ctx.bindTypeVars xs).Alike (ctx'.bindTypeVars xs) := by
  refine ⟨alike.toSameTypes.bindTypeVars xs, fun x => ?_⟩
  rw [Context.bindTypeVars, Context.bindTypeVars, Scope.lookup_bindTypeVars,
    Scope.lookup_bindTypeVars, alike.vars x]

/-- Of two variables with different names it does not matter which is bound first. -/
theorem bind_bind (ctx : Context) {x y : String} (different : x ≠ y) (t u : Ty) :
    ((ctx.bind x t).bind y u).Alike ((ctx.bind y u).bind x t) := by
  refine ⟨⟨rfl, fun _ => rfl⟩, fun z => ?_⟩
  simp only [Context.bind, Scope.lookup_bind]
  by_cases first : z = x
  · have other : z ≠ y := first ▸ different
    rw [if_pos first, if_neg other, if_pos first]
  · rw [if_neg first, if_neg first]

end Alike

end Context

end StellaLang.Typing
