import StellaLang.Proofs.Typing.FollowingExpr
import StellaLang.Typing.Checker

/-! Limits only cut the list of errors. A run with limits is compared with the run without
them: up to the error at which it halts both do the same, and from then on it reports
nothing, while the other only adds errors. -/
namespace StellaLang.Typing

open Syntax (Program TypeExpr)

namespace Limits

/-- How many errors are enough, if any number is. -/
def cap (limits : Limits) : Option Nat :=
  if limits.failFast then some 1 else limits.maxErrors.map (max · 1)

/-- The errors up to the limits. -/
def cut (limits : Limits) (errors : List TypeError) : List TypeError :=
  match limits.cap with
  | none => errors
  | some n => errors.take n

theorem reached_succ (limits : Limits) (n : Nat) :
    limits.reached (n + 1) = limits.cap.any (· ≤ n + 1) := by
  unfold reached cap
  cases limits.failFast with
  | true => simp
  | false =>
    cases limits.maxErrors with
    | none => rfl
    | some m =>
      have atLeastOne : m ≤ n + 1 ↔ max m 1 ≤ n + 1 := by omega
      exact decide_eq_decide.mpr atLeastOne

theorem cap_pos (limits : Limits) : ∀ n ∈ limits.cap, 0 < n := by
  intro n bound
  unfold cap at bound
  split at bound
  · obtain rfl : 1 = n := by simpa using bound
    omega
  · obtain ⟨m, -, rfl⟩ := Option.map_eq_some_iff.mp bound
    omega

/-- No errors are never enough. -/
theorem not_any_le_zero (limits : Limits) : limits.cap.any (· ≤ 0) = false := by
  cases bound : limits.cap with
  | none => rfl
  | some n =>
    have positive := limits.cap_pos n bound
    simp
    omega

theorem cut_prefix (limits : Limits) (es : List TypeError) : limits.cut es <+: es := by
  unfold cut
  cases limits.cap with
  | none => exact List.prefix_refl es
  | some n => exact List.take_prefix n es

/-- Errors beyond the limits do not matter. -/
theorem cut_of_prefix {limits : Limits} {es fs : List TypeError}
    (enough : limits.cap.any (· ≤ es.length) = true) (longer : es <+: fs) :
    limits.cut fs = limits.cut es := by
  unfold cut
  cases bound : limits.cap with
  | none => simp [bound] at enough
  | some n =>
    have enough : n ≤ es.length := by simpa [bound] using enough
    obtain ⟨more, rfl⟩ := longer
    exact List.take_append_of_le_length enough

theorem cut_of_within {limits : Limits} {es : List TypeError}
    (within : ∀ n ∈ limits.cap, es.length ≤ n) : limits.cut es = es := by
  unfold cut
  cases bound : limits.cap with
  | none => rfl
  | some n => exact List.take_of_length_le (within n bound)

theorem cut_eq_nil (limits : Limits) (es : List TypeError) : limits.cut es = [] ↔ es = [] := by
  unfold cut
  cases bound : limits.cap with
  | none => rfl
  | some n =>
    have positive := limits.cap_pos n bound
    rw [List.take_eq_nil_iff]
    exact or_iff_right (Nat.ne_of_gt positive)

end Limits

/-- That a run with limits is where a run without them is, or has halted before. -/
structure Behind (p q : Progress) : Prop where
  unlimited : p.limits = {}
  active : p.halted = false
  errors : q.errors = q.limits.cut p.errors
  halted : q.halted = q.limits.cap.any (· ≤ p.errors.length)
  cache : q.halted = false → q.cache = p.cache

namespace Behind

variable {p q p' q' : Progress}

theorem start (limits : Limits) : Behind {} { limits } := by
  refine ⟨rfl, rfl, ?_, ?_, fun _ => rfl⟩
  · exact ((limits.cut_eq_nil []).mpr rfl).symm
  · exact limits.not_any_le_zero.symm

theorem below_cap (behind : Behind p q) (active : q.halted = false) :
    ∀ n ∈ q.limits.cap, p.errors.length < n := by
  intro n bound
  have tooFew := behind.halted.symm.trans active
  rw [bound] at tooFew
  simpa using tooFew

/-- Until it halts, the run with limits has all errors. -/
theorem errors_eq (behind : Behind p q) (active : q.halted = false) : q.errors = p.errors := by
  rw [behind.errors]
  exact Limits.cut_of_within fun n bound => Nat.le_of_lt (behind.below_cap active n bound)

/-- Once it has halted, it stays behind whatever either run does. -/
theorem of_halted (behind : Behind p q) (halted : q.halted = true) (left : Grown p p')
    (right : Grown q q') : Behind p' q' := by
  obtain ⟨still, kept⟩ := right.frozen halted
  have enough : q.limits.cap.any (· ≤ p.errors.length) = true := behind.halted.symm.trans halted
  refine ⟨left.limits.trans behind.unlimited, left.unlimited behind.unlimited behind.active, ?_, ?_,
    fun active => ?_⟩
  · rw [kept, right.limits, behind.errors, Limits.cut_of_prefix enough left.errors]
  · rw [still, right.limits]
    cases bound : q.limits.cap with
    | none => simp [bound] at enough
    | some n =>
      have enough : n ≤ p.errors.length := by simpa [bound] using enough
      have longer := left.errors.length_le
      simp
      omega
  · rw [still] at active
    contradiction

/-- So nothing is asked of the answers of its steps any more. -/
theorem step_of_halted (behind : Behind p q) (halted : q.halted = true) (left : Grown p p')
    (right : Grown q q') {a b : α} : Behind p' q' ∧ (q'.halted = false → b = a) := by
  refine ⟨behind.of_halted halted left right, fun running => ?_⟩
  rw [(right.frozen halted).1] at running
  contradiction

theorem record (behind : Behind p q) (error : TypeError) :
    Behind (p.record error) (q.record error) := by
  cases active : q.halted with
  | true => exact behind.of_halted active (.record p error) (.record q error)
  | false =>
    have added := Progress.record_errors error active
    have all := behind.errors_eq active
    have unlimited := behind.unlimited
    refine ⟨(Progress.record_limits error).trans unlimited,
      (Grown.record p error).unlimited unlimited behind.active, ?_, ?_, fun _ => ?_⟩
    · rw [added, Progress.record_limits, Progress.record_errors error behind.active, all]
      refine (Limits.cut_of_within fun n bound => ?_).symm
      rw [List.length_append, List.length_singleton]
      exact behind.below_cap active n bound
    · rw [Progress.record_halted error active, Progress.record_limits, Limits.reached_succ,
        Progress.record_errors error behind.active, all, List.length_append, List.length_singleton]
    · rw [Progress.record_cache, Progress.record_cache]
      exact behind.cache active

/-- What is known of annotations only matters until the run with limits halts. -/
theorem with_cache (behind : Behind p q) {c d : Memo (Located TypeExpr) Ty}
    (agree : q.halted = false → d = c) : Behind { p with cache := c } { q with cache := d } :=
  ⟨behind.unlimited, behind.active, behind.errors, behind.halted, agree⟩

theorem note (behind : Behind p q) (level : Log.Level) (topic text : String) :
    Behind (p.note level topic text) (q.note level topic text) :=
  ⟨behind.unlimited, behind.active, behind.errors, behind.halted, behind.cache⟩

theorem judge (behind : Behind p q) (judgement : Judgement) :
    Behind { p with judgements := judgement :: p.judgements }
      { q with judgements := judgement :: q.judgements } :=
  ⟨behind.unlimited, behind.active, behind.errors, behind.halted, behind.cache⟩

end Behind

namespace Check.Built

/-- With limits a step does what it does without, unless it halts. -/
theorem behind {x : Check α} (built : Built x) : ∀ {p q}, Behind p q →
    Behind (x p).2 (x q).2 ∧ ((x q).2.halted = false → (x q).1 = (x p).1) := by
  induction built with
  | answer a => exact fun behind => ⟨behind, fun _ => rfl⟩
  | @bind _ _ x f first next firstBehind nextBehind =>
    intro p q behind
    obtain ⟨middle, agree⟩ := firstBehind behind
    rw [bind_apply, bind_apply]
    cases active : (x q).2.halted with
    | false =>
      rw [agree active]
      exact nextBehind _ middle
    | true => exact middle.step_of_halted active ((next _).grown _) ((next _).grown _)
  | @guarded _ skipped x inner innerBehind =>
    intro p q behind
    rw [guarded_of_active skipped x behind.active, guarded_apply]
    split
    · rename_i halted
      exact behind.step_of_halted halted (inner.grown p) (.refl q)
    · exact innerBehind behind
  | report fault position => exact fun behind => ⟨behind.record _, fun _ => rfl⟩
  | note => exact fun behind => ⟨behind.note _ _ _, fun _ => rfl⟩
  | judge => exact fun behind => ⟨behind.judge _, fun _ => rfl⟩
  | @meaning ctx t resolved resolvedBehind =>
    intro p q behind
    cases active : q.halted with
    | true =>
      have built := Built.meaning ctx resolved
      exact behind.step_of_halted active (built.grown p) (built.grown q)
    | false =>
      rw [meaning_apply, meaning_apply, behind.cache active]
      split
      · exact resolvedBehind behind
      have counted : Behind { p with cache := p.cache.count t } { q with cache := p.cache.count t } :=
        behind.with_cache fun _ => rfl
      split
      · exact ⟨counted.note _ _ _, fun _ => rfl⟩
      · obtain ⟨after, agree⟩ := resolvedBehind counted
        refine ⟨after.with_cache fun running => ?_, agree⟩
        rw [after.cache running, agree running]

end Check.Built

section Programs

variable (program : Located Program)

theorem checking_built (c : Checker) : Check.Built (c.checking program) := by
  unfold Checker.checking
  dsimp only
  split
  · exact .bind (.note _ _ _) fun _ => (checkModule_follows _ _).built
  · exact (checkModule_follows _ _).built

/-- The errors of a new checker are those of its run from nothing. -/
theorem check_new (limits : Limits) :
    ((Checker.new limits).check program).1 =
      (({} : Checker).checking program { limits }).2.errors := rfl

/-- A checker with limits reports the errors up to its limits. -/
theorem check_new_eq_cut (limits : Limits) :
    ((Checker.new limits).check program).1 = limits.cut (checkProgram program) := by
  have built := checking_built program {}
  obtain ⟨after, -⟩ := built.behind (.start limits)
  have kept := (built.grown { limits }).limits
  rw [check_new, after.errors, kept]
  rfl

/-- Limits only cut the list of errors of a program: `maxErrors` leaves the first so
many of them, but never less than one, and `failFast` the first one. So they have no
part in whether a program is accepted. -/
theorem limits_only_cut_errors :
    (∀ m, ((Checker.new { maxErrors := some m }).check program).1 =
      (checkProgram program).take (max m 1)) ∧
    (∀ maxErrors, ((Checker.new { failFast := true, maxErrors }).check program).1 =
      (checkProgram program).take 1) ∧
    ∀ limits, ((Checker.new limits).check program).1 = [] ↔ checkProgram program = [] := by
  refine ⟨fun m => check_new_eq_cut program _, fun maxErrors => check_new_eq_cut program _,
    fun limits => ?_⟩
  rw [check_new_eq_cut, Limits.cut_eq_nil]

end Programs

end StellaLang.Typing
