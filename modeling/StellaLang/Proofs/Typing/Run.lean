import StellaLang.Typing.Annotation

/-! What every run of the checker keeps, whatever it checks: errors are only added, at the
end and never after checking has halted. All steps of the checker are built from a
few operations of its own, so that such facts are proved once for each of these. -/
namespace StellaLang.Typing

namespace Check

/-- Steps built from the operations of the checker. -/
inductive Built : {α : Type} → Check α → Prop where
  | answer (a : α) : Built (pure a)
  | bind {x : Check α} {f : α → Check β} (first : Built x) (next : ∀ a, Built (f a)) :
      Built (x >>= f)
  | guarded (skipped : α) {x : Check α} (inner : Built x) : Built (guarded skipped x)
  | report (fault : Fault) (position : Option Position) : Built (report fault position)
  | note (level : Log.Level) (topic text : String) : Built (note level topic text)
  | judge (ctx : Context) (e : Located Syntax.Expr) (t : Ty) : Built (judge ctx e t)
  | meaning (ctx : Context) {t : Located Syntax.TypeExpr} (resolved : Built (resolve ctx [] t)) :
      Built (meaning ctx t)

end Check

/-- What a run may have made of the progress: errors only come after those there were,
and none once checking has halted. Without limits it does not halt. -/
structure Grown (p q : Progress) : Prop where
  limits : q.limits = p.limits
  errors : p.errors <+: q.errors
  frozen : p.halted = true → q.halted = true ∧ q.errors = p.errors
  quiet : q.errors = p.errors → q.halted = p.halted
  unlimited : p.limits = {} → p.halted = false → q.halted = false

namespace Grown

variable {p q r : Progress}

theorem of_eq (limits : q.limits = p.limits) (errors : q.errors = p.errors)
    (halted : q.halted = p.halted) : Grown p q where
  limits := limits
  errors := errors ▸ List.prefix_refl _
  frozen := fun h => ⟨halted.trans h, errors⟩
  quiet := fun _ => halted
  unlimited := fun _ active => halted.trans active

theorem refl (p : Progress) : Grown p p :=
  of_eq rfl rfl rfl

/-- Errors that are there at the end of a run, and were at its start, were there all
along. -/
theorem errors_eq (first : Grown p q) (second : Grown q r) (same : r.errors = p.errors) :
    q.errors = p.errors := by
  have bound : q.errors.length ≤ p.errors.length := same ▸ second.errors.length_le
  exact (first.errors.eq_of_length (Nat.le_antisymm first.errors.length_le bound)).symm

/-- Checking does not go on once it has halted. -/
theorem active (grown : Grown p q) (running : q.halted = false) : p.halted = false := by
  cases halted : p.halted with
  | false => rfl
  | true => exact absurd (grown.frozen halted).1 (by simp [running])

theorem trans (first : Grown p q) (second : Grown q r) : Grown p r where
  limits := second.limits.trans first.limits
  errors := first.errors.trans second.errors
  frozen := fun halted => by
    obtain ⟨still, same⟩ := first.frozen halted
    obtain ⟨stays, kept⟩ := second.frozen still
    exact ⟨stays, kept.trans same⟩
  quiet := fun same => by
    have middle := errors_eq first second same
    exact (second.quiet (same.trans middle.symm)).trans (first.quiet middle)
  unlimited := fun free active =>
    second.unlimited (first.limits.trans free) (first.unlimited free active)

theorem record (p : Progress) (error : TypeError) : Grown p (p.record error) := by
  cases active : p.halted with
  | true => rw [Progress.record_of_halted error active]; exact refl p
  | false =>
    have added := Progress.record_errors error active
    refine ⟨Progress.record_limits error, added ▸ ⟨[error], rfl⟩,
      fun halted => by simp [active] at halted, fun same => ?_, fun free _ => ?_⟩
    · rw [added] at same
      simp at same
    · rw [Progress.record_halted error active, free]
      rfl

end Grown

namespace Check.Built

theorem grown {x : Check α} (built : Built x) : ∀ p, Grown p (x p).2 := by
  induction built with
  | answer => exact Grown.refl
  | bind _ _ first next => exact fun p => (first p).trans (next _ _)
  | guarded skipped _ inner =>
    intro p
    rw [guarded_apply]
    split
    · exact Grown.refl p
    · exact inner p
  | report fault position => exact fun p => Grown.record p (fault.at position)
  | note => exact fun _ => Grown.of_eq rfl rfl rfl
  | judge => exact fun _ => Grown.of_eq rfl rfl rfl
  | @meaning ctx t _ resolved =>
    intro p
    rw [meaning_apply]
    split
    · exact resolved p
    split
    · exact Grown.of_eq rfl rfl rfl
    · have asked : Grown p { p with cache := p.cache.count t } := Grown.of_eq rfl rfl rfl
      exact (asked.trans (resolved _)).trans (Grown.of_eq rfl rfl rfl)

end Check.Built

end StellaLang.Typing
