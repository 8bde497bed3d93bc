import StellaLang.Proofs.Coverage.Blocking
import StellaLang.Proofs.Typing.Judged
import StellaLang.Proofs.Typing.Quiet
import StellaLang.Proofs.Typing.Renaming

/-! Two runs of the checker beside each other, of which the second knows some types less well: parts
of them are errors there. As long as the first has nothing to report, neither has the second, except
where it comes to a match that it cannot search through. Steps with this property are put together
from steps with this property. -/
namespace StellaLang.Typing

open Syntax (Expr TypeExpr)

namespace Check.Built

section Runs

variable {x : Check α}

/-- The types that were kept stay. -/
theorem judgements (built : Built x) : ∀ p, p.judgements <:+ (x p).2.judgements := by
  induction built with
  | answer => exact fun p => List.suffix_refl _
  | bind _ _ first next => exact fun p => (first p).trans (next _ _)
  | guarded skipped _ inner =>
    intro p
    rw [guarded_apply]
    split
    · exact List.suffix_refl _
    · exact inner p
  | report fault position =>
    intro p
    exact ⟨[], (Progress.record_judgements (fault.at position)).symm⟩
  | note => exact fun p => List.suffix_refl _
  | judge => exact fun p => List.suffix_cons _ _
  | @meaning ctx t _ resolved =>
    intro p
    rw [meaning_apply]
    split
    · exact resolved p
    split
    · exact List.suffix_refl _
    · exact resolved { p with cache := p.cache.count t }

/-- All runs of a step that report nothing have one answer. -/
theorem answer_unique (built : Built x) : ∀ {p q}, Quiet x p → Quiet x q → (x q).1 = (x p).1 := by
  induction built with
  | answer => exact fun _ _ => rfl
  | bind first next one other =>
    intro p q quiet quiet'
    obtain ⟨before, after⟩ := quiet.bind first next
    obtain ⟨before', after'⟩ := quiet'.bind first next
    rw [one before before'] at after'
    rw [bind_apply, bind_apply, one before before']
    exact other _ after after'
  | guarded skipped _ inner =>
    intro p q quiet quiet'
    rw [guarded_of_active _ _ quiet.active, guarded_of_active _ _ quiet'.active]
    exact inner quiet.guarded quiet'.guarded
  | report => exact fun quiet => absurd quiet Quiet.not_report
  | note => exact fun _ _ => rfl
  | judge => exact fun _ _ => rfl
  | meaning ctx =>
    intro p q quiet quiet'
    rw [meaning_answer ctx _ quiet.sound, meaning_answer ctx _ quiet'.sound]

/-- Whether a run reports something depends on the cache only. -/
theorem again (built : Built x) : ∀ {p q : Progress}, Quiet x p → q.halted = false →
    q.cache = p.cache → Quiet x q ∧ (x q).2.cache = (x p).2.cache := by
  induction built with
  | answer => exact fun quiet active cache => ⟨⟨active, quiet.sound.of_entries (congrArg _ cache), rfl⟩, cache⟩
  | bind first next one other =>
    intro p q quiet active cache
    obtain ⟨before, after⟩ := quiet.bind first next
    obtain ⟨before', cache'⟩ := one before active cache
    have active' := ((first.grown q).quiet before'.errors).trans active
    have answer := first.answer_unique before before'
    rw [← answer] at after
    obtain ⟨after', cache''⟩ := other _ after active' cache'
    rw [bind_apply, bind_apply, ← answer]
    exact ⟨⟨active, before'.sound, after'.errors.trans before'.errors⟩, cache''⟩
  | guarded skipped _ inner =>
    intro p q quiet active cache
    obtain ⟨quiet', cache'⟩ := inner quiet.guarded active cache
    rw [guarded_of_active _ _ quiet.active, guarded_of_active _ _ active]
    refine ⟨⟨active, quiet'.sound, ?_⟩, cache'⟩
    rw [guarded_of_active _ _ active]
    exact quiet'.errors
  | report => exact fun quiet => absurd quiet Quiet.not_report
  | note => exact fun quiet active cache => ⟨⟨active, quiet.sound.of_entries (congrArg _ cache), rfl⟩, cache⟩
  | judge => exact fun quiet active cache => ⟨⟨active, quiet.sound.of_entries (congrArg _ cache), rfl⟩, cache⟩
  | @meaning ctx t known resolved =>
    intro p q quiet active cache
    have sound := quiet.sound
    have errors := quiet.errors
    rw [meaning_apply] at errors
    rw [and_comm]
    suffices (Typing.meaning ctx t q).2.cache = (Typing.meaning ctx t p).2.cache ∧
        (Typing.meaning ctx t q).2.errors = q.errors from
      this.imp_right fun same => ⟨active, sound.of_entries (congrArg _ cache), same⟩
    rw [meaning_apply, meaning_apply, cache]
    split
    · rename_i named
      rw [if_pos named] at errors
      obtain ⟨quiet', cache'⟩ := resolved ⟨quiet.active, sound, errors⟩ active cache
      exact ⟨cache', quiet'.errors⟩
    · rename_i closed
      rw [if_neg closed] at errors
      split
      · exact ⟨rfl, rfl⟩
      · rename_i unknown
        rw [unknown] at errors
        have counted : Quiet (resolve ctx [] t) { p with cache := p.cache.count t } :=
          ⟨quiet.active, sound.count t, errors⟩
        obtain ⟨quiet', cache'⟩ := resolved (q := { q with cache := p.cache.count t }) counted active rfl
        have answer := known.answer_unique counted quiet'
        exact ⟨congrArg₂ (fun c u => Memo.put c t u) cache' answer, quiet'.errors⟩

end Runs

end Check.Built

attribute [class] Check.Built

section Instances

open Check (Built)

instance : Built (pure a : Check α) :=
  .answer a

instance {x : Check α} {f : α → Check β} [first : Built x] [next : ∀ a, Built (f a)] : Built (x >>= f) :=
  .bind first next

instance {c : Prop} [Decidable c] {x y : Check α} [first : Built x] [second : Built y] :
    Built (if c then x else y) := by
  split
  · exact first
  · exact second

instance : Built (Check.report fault position) :=
  .report fault position

instance : Built (Check.judge ctx e t) :=
  .judge ctx e t

variable (ctx : Context)

instance : Built (meaning ctx t) :=
  (meaning_follows ctx t).built

instance : Built (meanings ctx ts) :=
  (meanings_follows ctx ts).built

instance : Built (Check.require ctx t u position) :=
  (require_follows ctx t u position).built

instance : Built (Check.join ctx t u position) :=
  (join_follows t u position).built

instance : Built (unexpectedPattern t position) :=
  (unexpectedPattern_follows t position).built

instance : Built (literalBindings ctx t u position) :=
  (literalBindings_follows ctx t u position).built

instance : Built (bindings ctx t p) :=
  (bindings_follows ctx t p).built

instance : Built (bindingsNode ctx t position p) :=
  (bindingsNode_follows ctx t position p).built

instance : Built (bindingsAll ctx t ps) :=
  (bindingsAll_follows ctx t ps).built

instance : Built (bindingsEach ctx ts ps) :=
  (bindingsEach_follows ctx ts ps).built

instance : Built (bindingsFields ctx gs position fs) :=
  (bindingsFields_follows ctx gs position fs).built

instance : Built (bindingsFieldsAll ctx t fs) :=
  (bindingsFieldsAll_follows ctx t fs).built

instance : Built (eliminate t fault position) :=
  (eliminate_follows t fault position).built

instance : Built (unaryType ctx operation operand op t) :=
  (unaryType_follows ctx operation operand op t).built

instance : Built (declareRecursive ctx bs) :=
  (declareRecursive_follows ctx bs).built

instance : Built (bindParams ctx params) :=
  (bindParams_follows ctx params).built

instance : Built (synth ctx e) :=
  (synth_follows ctx e).built

instance : Built (synthAll ctx es) :=
  (synthAll_follows ctx es).built

instance : Built (synthFields ctx ls) :=
  (synthFields_follows ctx ls).built

instance : Built (expectEach ctx ts es) :=
  (expectEach_follows ctx ts es).built

instance : Built (joinAll ctx t es) :=
  (joinAll_follows ctx t es).built

instance : Built (synthBindings ctx bs) :=
  (synthBindings_follows ctx bs).built

instance : Built (expectBindings ctx ts bs) :=
  (expectBindings_follows ctx ts bs).built

instance : Built (joinCases ctx t u bs) :=
  (joinCases_follows ctx t u bs).built

end Instances

/-- That an expression has this type as far as nothing is reported. -/
def Finds (ctx : Context) (e : Located Expr) (t : Ty) : Prop :=
  ∃ p, Quiet (synth ctx e) p ∧ (synth ctx e p).1 = t

/-- A match on a value whose type blocks the search through the cases. -/
def Judgement.Stuck (j : Judgement) : Prop :=
  ∃ e cases t, j.expr.node = .matching e cases ∧ Finds j.context e t ∧ Coverage.Blocked t (cases.map (·.1))

namespace Check

/-- The second of two steps answers what is related to the answer of the first, reports nothing and
comes to no match that is stuck. -/
structure Clean (R : α → β → Prop) (a : Check α) (b : Check β) (p q : Progress) : Prop where
  quiet : Quiet b q
  answers : R (a p).1 (b q).1
  cache : (b q).2.cache = (a p).2.cache
  judgements : ∃ js, (b q).2.judgements = js ++ q.judgements ∧ ∀ j ∈ js, ¬j.Stuck

/-- A step comes to a match that is stuck and reports this before anything else. -/
structure Cut (b : Check β) (q : Progress) : Prop where
  errors : ∃ missing position, q.errors ++ [⟨.nonExhaustiveMatch missing, position⟩] <+: (b q).2.errors
  judgements : ∃ js, (b q).2.judgements = js ++ q.judgements ∧ ∃ j ∈ js, j.Stuck

/-- As long as the first of two steps reports nothing, the second one is clean or cut. -/
structure Spoils (R : α → β → Prop) (a : Check α) (b : Check β) : Prop where
  built : Built a
  built' : Built b
  outcome : ∀ {p q : Progress}, Quiet a p → q.halted = false → q.cache = p.cache → Clean R a b p q ∨ Cut b q

section Runs

variable {R : α → β → Prop} {S : γ → δ → Prop} {a : Check α} {b : Check β} {f : α → Check γ} {g : β → Check δ}
  {p q : Progress}

theorem Clean.active (clean : Clean R a b p q) (built : Built b) : (b q).2.halted = false :=
  ((built.grown q).quiet clean.quiet.errors).trans clean.quiet.active

/-- A clean step and a clean one after it. -/
theorem Clean.bind (first : Clean R a b p q) (next : Clean S (f (a p).1) (g (b q).1) (a p).2 (b q).2) :
    Clean S (a >>= f) (b >>= g) p q where
  quiet := ⟨first.quiet.active, first.quiet.sound, next.quiet.errors.trans first.quiet.errors⟩
  answers := next.answers
  cache := next.cache
  judgements := by
    obtain ⟨js, added, free⟩ := first.judgements
    obtain ⟨ks, more, free'⟩ := next.judgements
    refine ⟨ks ++ js, ?_, fun j member => (List.mem_append.mp member).elim (free' j) (free j)⟩
    rw [bind_apply, more, added, List.append_assoc]

/-- A clean step and one after it that is cut. -/
theorem Clean.cut (first : Clean R a b p q) (next : Cut (g (b q).1) (b q).2) : Cut (b >>= g) q where
  errors := by
    obtain ⟨missing, position, reported⟩ := next.errors
    rw [first.quiet.errors] at reported
    exact ⟨missing, position, reported⟩
  judgements := by
    obtain ⟨js, added, -⟩ := first.judgements
    obtain ⟨ks, more, j, member, stuck⟩ := next.judgements
    refine ⟨ks ++ js, ?_, j, List.mem_append_left js member, stuck⟩
    rw [bind_apply, more, added, List.append_assoc]

/-- What comes after does not undo a cut. -/
theorem Cut.bind (cut : Cut b q) (built : ∀ v, Built (g v)) : Cut (b >>= g) q where
  errors := by
    obtain ⟨missing, position, reported⟩ := cut.errors
    exact ⟨missing, position, reported.trans ((built _).grown _).errors⟩
  judgements := by
    obtain ⟨js, added, j, member, stuck⟩ := cut.judgements
    obtain ⟨ks, more⟩ := (built (b q).1).judgements (b q).2
    refine ⟨ks ++ js, ?_, j, List.mem_append_right ks member, stuck⟩
    rw [bind_apply, ← more, added, List.append_assoc]

end Runs

namespace Spoils

variable {R : α → β → Prop} {S : γ → δ → Prop} {a : Check α} {b : Check β}

theorem answer {u : α} {v : β} (related : R u v) : Spoils R (pure u) (pure v) where
  built := .answer u
  built' := .answer v
  outcome := fun quiet active cache =>
    .inl ⟨⟨active, quiet.sound.of_entries (congrArg _ cache), rfl⟩, related, cache, [], rfl, by simp⟩

/-- A step after another one, also where it depends on the shape of the answer. -/
theorem andThen {f : α → Check γ} {g : β → Check δ} (first : Spoils R a b) (next : ∀ u, Built (f u))
    (next' : ∀ v, Built (g v)) (each : ∀ u v, R u v → Spoils S (f u) (g v)) :
    Spoils S (a >>= f) (b >>= g) where
  built := .bind first.built next
  built' := .bind first.built' next'
  outcome := by
    intro p q quiet active cache
    obtain ⟨before, after⟩ := quiet.bind first.built next
    rcases first.outcome before active cache with clean | cut
    · have later := (each _ _ clean.answers).outcome after (clean.active first.built') clean.cache
      exact later.imp clean.bind clean.cut
    · exact .inr (cut.bind next')

theorem bind {f : α → Check γ} {g : β → Check δ} [next : ∀ u, Built (f u)] [next' : ∀ v, Built (g v)]
    (first : Spoils R a b) (each : ∀ u v, R u v → Spoils S (f u) (g v)) :
    Spoils S (a >>= f) (b >>= g) :=
  first.andThen next next' each

theorem map {f : α → γ} {g : β → δ} (first : Spoils R a b) (each : ∀ u v, R u v → S (f u) (g v)) :
    Spoils S (a >>= fun u => pure (f u)) (b >>= fun v => pure (g v)) :=
  first.bind fun u v related => answer (each u v related)

theorem guarded {u : α} {v : β} (inner : Spoils R a b) : Spoils R (guarded u a) (guarded v b) where
  built := .guarded u inner.built
  built' := .guarded v inner.built'
  outcome := by
    intro p q quiet active cache
    have same := guarded_of_active v b active
    rcases inner.outcome quiet.guarded active cache with clean | cut
    · refine .inl ⟨⟨active, clean.quiet.sound, ?_⟩, ?_, ?_, ?_⟩
      · rw [same]
        exact clean.quiet.errors
      · rw [same, guarded_of_active u a quiet.active]
        exact clean.answers
      · rw [same, guarded_of_active u a quiet.active]
        exact clean.cache
      · rw [same]
        exact clean.judgements
    · refine .inr ⟨?_, ?_⟩
      · rw [same]
        exact cut.errors
      · rw [same]
        exact cut.judgements

/-- Where the first step reports something, nothing is asked of the second. -/
theorem noisy [built : Built a] [built' : Built b] (reports : ∀ p, ¬Quiet a p) : Spoils R a b where
  built := built
  built' := built'
  outcome := fun quiet => absurd quiet (reports _)

theorem report {R : Ty → β → Prop} {fault : Fault} {position : Option Position} [Built b] :
    Spoils R (report fault position) b :=
  noisy fun _ => Quiet.not_report

theorem reported {R : γ → β → Prop} {fault : Fault} {position : Option Position} {f : Ty → Check γ}
    [next : ∀ t, Built (f t)] [Built b] : Spoils R (Check.report fault position >>= f) b :=
  noisy fun _ quiet => Quiet.not_report (quiet.bind (.report _ _) next).1

/-- Where the second step is cut, whatever the first one does. -/
theorem cut [built : Built a] [built' : Built b] (cuts : ∀ q, q.halted = false → Cut b q) : Spoils R a b where
  built := built
  built' := built'
  outcome := fun _ active _ => .inr (cuts _ active)

/-- The second type is found for its expression. -/
theorem found {R : Ty → Ty → Prop} {ctx ctx' : Context} {e : Located Expr}
    (spoils : Spoils R (synth ctx e) (synth ctx' e)) :
    Spoils (fun t u => R t u ∧ Finds ctx' e u) (synth ctx e) (synth ctx' e) where
  built := spoils.built
  built' := spoils.built'
  outcome := fun quiet active cache => (spoils.outcome quiet active cache).imp_left fun clean =>
    ⟨clean.quiet, ⟨clean.answers, _, clean.quiet, rfl⟩, clean.cache, clean.judgements⟩

/-- Only a match can be stuck. -/
theorem judge {ctx ctx' : Context} {e : Located Expr} {t u : Ty}
    (free : ¬Judgement.Stuck ⟨ctx', e, u⟩) : Spoils Eq (judge ctx e t) (judge ctx' e u) where
  built := .judge ctx e t
  built' := .judge ctx' e u
  outcome := fun quiet active cache =>
    .inl ⟨⟨active, quiet.sound.of_entries (congrArg _ cache), rfl⟩, rfl, cache, [_], rfl, by simpa using free⟩

/-- One step on both sides that gives no types. -/
theorem shared {good : α → Prop} {x : Check α} (silent : Judges [] x)
    (known : ∀ p, p.CacheSound → good (x p).1) : Spoils (Shared good) x x where
  built := silent.built
  built' := silent.built
  outcome := by
    intro p q quiet active cache
    obtain ⟨quiet', cache'⟩ := silent.built.again quiet active cache
    have active' := ((silent.built.grown q).quiet quiet'.errors).trans active
    have kept : q.judgements = (x q).2.judgements := by
      refine (silent.built.judgements q).eq_of_length ?_
      simpa [Progress.judged] using congrArg List.length (silent.listed q active').symm
    have answer := silent.built.answer_unique quiet quiet'
    exact .inl ⟨quiet', ⟨answer, known p quiet.sound⟩, cache', [], kept.symm, by simp⟩

end Spoils

end Check

/-- That what names stand for in a context is tidy. -/
structure Context.Tidy (ctx : Context) : Prop where
  vars : ∀ v t, ctx.scope.lookup v = some t → t.Tidy
  aliases : ∀ z t, ctx.aliases.lookup z = some t → t.Tidy
  exceptions : ∀ t, ctx.exception? = some t → t.Tidy

/-- Two contexts of which the second knows the types of variables less well. -/
structure Context.Spoilt (ctx ctx' : Context) : Prop where
  environment : ctx'.toEnvironment = ctx.toEnvironment
  aliases : ∀ z t, ctx.aliases.lookup z = some t → t.Tidy
  exceptions : ∀ t, ctx.exception? = some t → t.Tidy
  vars : ∀ v, Option.Rel Ty.Spoilt (ctx.scope.lookup v) (ctx'.scope.lookup v)
  typeVars : ∀ z, ctx'.scope.hasTypeVar z = ctx.scope.hasTypeVar z

namespace Context.Spoilt

variable {ctx ctx' : Context}

theorem push (h : ctx.Spoilt ctx') : ctx.push.Spoilt ctx'.push :=
  ⟨h.environment, h.aliases, h.exceptions, h.vars, h.typeVars⟩

theorem bind (h : ctx.Spoilt ctx') (v : String) {t u : Ty} (spoilt : t.Spoilt u) :
    (ctx.bind v t).Spoilt (ctx'.bind v u) := by
  refine ⟨h.environment, h.aliases, h.exceptions, fun w => ?_, h.typeVars⟩
  rw [Context.bind, Context.bind, Scope.lookup_bind, Scope.lookup_bind]
  split
  · exact .some spoilt
  · exact h.vars w

theorem bindAll (h : ctx.Spoilt ctx') {bound bound' : Bindings}
    (spoilt : List.Forall₂ (Ty.Labelled Ty.Spoilt) bound bound') :
    (ctx.bindAll bound).Spoilt (ctx'.bindAll bound') := by
  induction spoilt generalizing ctx ctx' with
  | nil => exact h
  | @cons b c bound bound' first _ ih =>
    obtain ⟨v, t⟩ := b
    obtain ⟨w, u⟩ := c
    obtain ⟨same, spoilt⟩ := first
    obtain rfl : v = w := same
    exact ih (h.bind v spoilt)

theorem bindTypeVars (h : ctx.Spoilt ctx') (zs : List String) :
    (ctx.bindTypeVars zs).Spoilt (ctx'.bindTypeVars zs) := by
  refine ⟨h.environment, h.aliases, h.exceptions, fun v => ?_, fun z => ?_⟩
  · rw [Context.bindTypeVars, Context.bindTypeVars, Scope.lookup_bindTypeVars, Scope.lookup_bindTypeVars]
    exact h.vars v
  · rw [Context.bindTypeVars, Context.bindTypeVars, Scope.hasTypeVar_bindTypeVars,
      Scope.hasTypeVar_bindTypeVars, h.typeVars z]

theorem conforms (h : ctx.Spoilt ctx') {t u t' u' : Ty} (first : t.Spoilt u) (second : t'.Spoilt u')
    (fits : ctx.conforms t t' = true) : ctx'.conforms u u' = true := by
  have mode : ctx'.subtyping = ctx.subtyping := congrArg Environment.subtyping h.environment
  rw [Context.conforms, mode]
  exact first.conforms second fits

theorem exception? (h : ctx.Spoilt ctx') : ctx'.exception? = ctx.exception? := by
  unfold Context.exception?
  rw [h.environment]

end Context.Spoilt

/-- A variable whose type is lost. -/
theorem Context.Tidy.spoilt {ctx : Context} {x : String} {t : Ty} (tidy : (ctx.bind x t).Tidy) :
    (ctx.bind x t).Spoilt (ctx.bind x .error) := by
  refine ⟨rfl, tidy.aliases, tidy.exceptions, fun v => ?_, fun z => rfl⟩
  have known := tidy.vars v
  rw [Context.bind, Scope.lookup_bind] at known
  rw [Context.bind, Context.bind, Scope.lookup_bind, Scope.lookup_bind]
  split at known
  · rename_i same
    rw [if_pos same, if_pos same]
    exact .some (.error (known t rfl))
  · rename_i other
    rw [if_neg other, if_neg other]
    cases found : ctx.scope.lookup v with
    | none => exact .none
    | some u => exact .some (.refl (known u found))

end StellaLang.Typing
