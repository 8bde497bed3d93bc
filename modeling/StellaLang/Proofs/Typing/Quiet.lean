import Mathlib.Tactic.ByContra
import StellaLang.Proofs.Typing.Meaning

/-! Runs that report nothing. A step reports nothing just if all the steps in it report
nothing, so what each of these is known to answer then makes up what the whole step is
known to answer. -/
namespace StellaLang.Typing

open Check

/-- That a step reports nothing, taken by a checker that looks for errors and whose cache
is sound. -/
structure Quiet (x : Check α) (p : Progress) : Prop where
  active : p.halted = false
  sound : p.CacheSound
  errors : (x p).2.errors = p.errors

namespace Quiet

variable {p : Progress}

theorem bind {x : Check α} {f : α → Check β} (quiet : Quiet (x >>= f) p) (first : Built x)
    (next : ∀ a, Built (f a)) : Quiet x p ∧ Quiet (f (x p).1) (x p).2 := by
  have all := quiet.errors
  rw [bind_apply] at all
  have grown := first.grown p
  have firstErrors := grown.errors_eq ((next _).grown _) all
  refine ⟨⟨quiet.active, quiet.sound, firstErrors⟩, ?_, first.cacheSound quiet.sound, ?_⟩
  · exact (grown.quiet firstErrors).trans quiet.active
  · exact all.trans firstErrors.symm

theorem guarded {x : Check α} {skipped : α} (quiet : Quiet (Check.guarded skipped x) p) :
    Quiet x p := by
  refine ⟨quiet.active, quiet.sound, ?_⟩
  rw [← guarded_of_active skipped x quiet.active]
  exact quiet.errors

theorem not_report {fault : Fault} {position : Option Position} :
    ¬Quiet (Check.report fault position) p := by
  intro quiet
  have added := Progress.record_errors (fault.at position) quiet.active
  have same : (p.record (fault.at position)).errors = p.errors := quiet.errors
  simp [same] at added

theorem not_reported {fault : Fault} {position : Option Position} {a : α} :
    ¬Quiet (Check.report fault position >>= fun _ => pure a) p :=
  fun quiet => not_report (quiet.bind (.report _ _) fun _ => .answer a).1

theorem conforms_of_require {ctx : Context} {t u : Ty} {position : Option Position}
    (quiet : Quiet (Check.require ctx t u position) p) : ctx.conforms t u = true := by
  by_contra refused
  rw [Check.require, if_neg refused] at quiet
  exact not_reported quiet

end Quiet

/-- What a step that reports nothing answers, and what types it keeps, if something is given
before it. -/
structure Yields (kept : Judgement → Prop) (given : Prop) (good : α → Prop) (x : Check α) : Prop where
  built : Built x
  quiet : given → ∀ {p : Progress}, Quiet x p →
    good (x p).1 ∧ ∃ js, (x p).2.judgements = js ++ p.judgements ∧ ∀ j ∈ js, kept j

namespace Yields

variable {kept : Judgement → Prop} {given : Prop} {β : Type} {good : α → Prop} {x : Check α}

theorem answer {a : α} (h : given → good a) : Yields kept given good (pure a) where
  built := .answer a
  quiet := fun present _ _ => ⟨h present, [], rfl, by simp⟩

/-- What the first step answers is given to the next one. -/
theorem bind {f : α → Check β} {good' : β → Prop} (first : Yields kept given good x)
    (next : ∀ a, Yields kept (good a ∧ given) good' (f a)) : Yields kept given good' (x >>= f) := by
  refine ⟨.bind first.built fun a => (next a).built, fun present p quiet => ?_⟩
  obtain ⟨before, after⟩ := quiet.bind first.built fun a => (next a).built
  obtain ⟨answer, js, added, all⟩ := first.quiet present before
  obtain ⟨result, ks, more, others⟩ := (next _).quiet ⟨answer, present⟩ after
  refine ⟨result, ks ++ js, by rw [bind_apply, more, added, List.append_assoc], fun j member => ?_⟩
  exact (List.mem_append.mp member).elim (others j) (all j)

theorem imp {given' : Prop} {good' : α → Prop} (yields : Yields kept given good x)
    (enough : given' → given) (follows : ∀ a, given' → good a → good' a) :
    Yields kept given' good' x := by
  refine ⟨yields.built, fun present p quiet => ?_⟩
  obtain ⟨answer, added⟩ := yields.quiet (enough present) quiet
  exact ⟨follows _ present answer, added⟩

theorem of_given {given' : Prop} (yields : Yields kept given good x) (enough : given' → given) :
    Yields kept given' good x :=
  yields.imp enough fun _ _ => id

theorem map {f : α → β} {good' : β → Prop} (first : Yields kept given good x)
    (follows : ∀ a, good a ∧ given → good' (f a)) :
    Yields kept given good' (x >>= fun a => pure (f a)) :=
  first.bind fun a => .answer (follows a)

theorem guarded {skipped : α} (inner : Yields kept given good x) :
    Yields kept given good (Check.guarded skipped x) := by
  refine ⟨.guarded skipped inner.built, fun present p quiet => ?_⟩
  rw [guarded_of_active skipped x quiet.active]
  exact inner.quiet present quiet.guarded

/-- There is no run without a report to speak of. -/
theorem report {fault : Fault} {position : Option Position} :
    Yields kept given (fun _ => False) (Check.report fault position) where
  built := .report fault position
  quiet := fun _ _ quiet => absurd quiet Quiet.not_report

theorem require {ctx : Context} {t u : Ty} {position : Option Position} :
    Yields kept given (fun _ => ctx.conforms t u = true) (Check.require ctx t u position) := by
  unfold Check.require
  split
  · exact .answer fun _ => ‹_›
  · exact report.bind fun _ => .answer fun ⟨absent, _⟩ => absent.elim

theorem judge {ctx : Context} {e : Located Syntax.Expr} {t : Ty} (h : given → kept ⟨ctx, e, t⟩) :
    Yields kept given (fun _ => True) (Check.judge ctx e t) where
  built := .judge ctx e t
  quiet := fun present _ _ => ⟨trivial, [⟨ctx, e, t⟩], rfl, by simpa using h present⟩

/-- The meaning of an annotation is what it stands for. What is known of it is known if the
annotation is closed, or from its resolution. -/
theorem meaning {ctx : Context} {t : Located Syntax.TypeExpr} {good : Ty → Prop}
    (resolved : Yields kept given good (resolve ctx [] t))
    (closed : Syntax.TypeExpr.isClosed t = true → good (denote ctx [] t)) :
    Yields kept given good (meaning ctx t) := by
  refine ⟨.meaning ctx resolved.built, fun present p quiet => ?_⟩
  have active := quiet.active
  have sound := quiet.sound
  have errors := quiet.errors
  rw [meaning_apply] at errors ⊢
  split
  · rename_i named
    rw [if_pos named] at errors
    exact resolved.quiet present ⟨active, sound, errors⟩
  · rename_i known
    rw [if_neg known] at errors
    split
    · rename_i u found
      have stands := sound.get? found ctx
      exact ⟨stands ▸ closed (by simpa using known), [], rfl, by simp⟩
    · rename_i unknown
      rw [unknown] at errors
      exact resolved.quiet present (p := { p with cache := p.cache.count t })
        ⟨active, sound.count t, errors⟩

end Yields

/-- What a checker may have found out so far: it starts with nothing, takes steps, and gives
its errors away at the end of a program. -/
inductive Progress.Reached : Progress → Prop where
  | start (limits : Limits) : Reached { limits }
  | step {x : Check α} {p : Progress} (before : Reached p) (built : Built x) : Reached (x p).2
  | taken {p : Progress} (before : Reached p) : Reached { p with errors := [] }

theorem Progress.Reached.cacheSound {p : Progress} (reached : p.Reached) : p.CacheSound := by
  induction reached with
  | start limits => exact .start limits
  | step _ built ih => exact built.cacheSound ih
  | taken _ ih => exact ih.of_entries rfl

end StellaLang.Typing
