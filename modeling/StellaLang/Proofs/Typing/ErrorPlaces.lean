import StellaLang.Proofs.Typing.Repeats

/-! Where errors stand. What the check of a program adds to the errors of a checker stands at nodes of
that program, whatever the limits are and whatever the checker was used for before: what it
remembers of annotations in other places has no part in the errors that it finds. -/
namespace StellaLang.Typing

open Syntax (Decl Node Program)
open Check (Gives)

section Resuming

variable {p q : Progress}

/-- A run that has not halted is where it would be without limits. -/
theorem Behind.unlimit (behind : Behind p q) (active : q.halted = false) :
    Behind { q with limits := {} } q where
  unlimited := rfl
  active := active
  errors := by
    refine (Limits.cut_of_within fun n bound => ?_).symm
    rw [behind.errors_eq active]
    exact Nat.le_of_lt (behind.below_cap active n bound)
  halted := by
    rw [behind.errors_eq active]
    exact behind.halted
  cache := fun _ => rfl

theorem Progress.Reached.behind (reached : q.Reached) (active : q.halted = false) :
    Behind { q with limits := {} } q := by
  induction reached with
  | start limits => exact .start limits
  | step _ built before =>
    have running := (built.grown _).active active
    obtain ⟨after, -⟩ := built.behind (before running)
    exact after.unlimit active
  | @taken q _ _ =>
    refine ⟨rfl, active, ?_, ?_, fun _ => rfl⟩
    · exact ((q.limits.cut_eq_nil []).mpr rfl).symm
    · exact active.trans q.limits.not_any_le_zero.symm

/-- A checker adds errors of the program in their order, and stops at its limits. -/
theorem Checker.Reachable.check_errors {c : Checker} (reachable : c.Reachable) {program : Located Program}
    {answer : Context} {es : List TypeError} (found : Gives (c.checking program) answer es) :
    ∃ added, (c.check program).1 = c.errors ++ added ∧ added <+: es := by
  have reached := reachable.reached
  have built := checking_built program c
  have grown := built.grown c.progress
  obtain ⟨added, whole⟩ := grown.errors
  refine ⟨added, whole.symm, ?_⟩
  cases active : c.progress.halted with
  | true =>
    obtain ⟨-, kept⟩ := grown.frozen active
    rw [List.append_right_eq_self.mp (whole.trans kept)]
    exact List.nil_prefix
  | false =>
    have free : Progress.Free { c.progress with limits := {} } :=
      ⟨rfl, active, reached.cacheSound.of_entries rfl⟩
    obtain ⟨-, all, -⟩ := found _ free
    obtain ⟨after, -⟩ := built.behind (reached.behind active)
    rw [← List.prefix_append_right_inj c.progress.errors, whole, after.errors, all]
    exact Limits.cut_prefix _ _

end Resuming

/-- That an error has the place of a node that a walk of the program comes to. It has no place only if the
node, which is not the program itself, has none, or if there is no `main` to point at. -/
structure StandsIn (program : Located Program) (e : TypeError) : Prop where
  placed : ∀ place, e.position = some place → ∃ n ∈ Program.postOrder program, n.position = some place
  unplaced : e.position = none →
    e.fault = .missingMain ∨ ∃ n ∈ Decl.postOrderAll program.node.decls, n.position = none

theorem standsIn_of_tally {program : Located Program} {e : TypeError}
    (found : 0 < e.tally (Decl.postOrderAll program.node.decls) + noMain e) : StandsIn program e := by
  by_cases missing : Fault.missingMain.at none = e
  · obtain rfl := missing
    refine ⟨fun place there => ?_, fun _ => .inl rfl⟩
    contradiction
  rw [noMain, if_neg missing] at found
  have there : e.position ∈ (Decl.postOrderAll program.node.decls).map Node.position := by
    by_contra elsewhere
    rw [tally_eq_zero elsewhere] at found
    contradiction
  obtain ⟨n, member, same⟩ := List.mem_map.mp there
  refine ⟨fun place there => ?_, fun nowhere => .inr ?_⟩
  · exact ⟨n, List.mem_append_left _ member, same.trans there⟩
  · exact ⟨n, member, same.trans nowhere⟩

theorem Checker.Reachable.check_standsIn {c : Checker} (reachable : c.Reachable)
    (program : Located Program) :
    ∃ added, (c.check program).1 = c.errors ++ added ∧ ∀ e ∈ added, StandsIn program e := by
  obtain ⟨answer, es, found, -⟩ := checking_doubling (Fault.missingMain.at none) c program
  obtain ⟨added, whole, first⟩ := reachable.check_errors found
  refine ⟨added, whole, fun e reported => standsIn_of_tally ?_⟩
  obtain ⟨_, es', found', once, again, total, few, bound⟩ := checking_doubling e c program
  obtain ⟨-, rfl⟩ := found.unique found'
  have some := List.count_pos_iff.mpr (first.subset reported)
  omega

/-- Every place that is reported is real. All errors that the check of a program returns, whatever the
limits, stand at nodes of the program; and a checker that was used before returns the errors
that it had, and more that do. -/
theorem errors_stand_at_nodes :
    (∀ limits program, ∀ e ∈ ((Checker.new limits).check program).1, StandsIn program e) ∧
      ∀ c : Checker, c.Reachable → ∀ program,
        ∃ added, (c.check program).1 = c.errors ++ added ∧ ∀ e ∈ added, StandsIn program e := by
  refine ⟨fun limits program => ?_, fun c reachable => reachable.check_standsIn⟩
  obtain ⟨added, whole, stand⟩ := (Checker.Reachable.new limits).check_standsIn program
  rw [whole]
  exact stand

/-- A program without `main` in which one operand has no place:
`fn f(x : Q) -> Nat { return succ(true) }`. -/
def halfPlaced : Located Program :=
  ⟨⟨[], [⟨.function [] "f" none [("x", ⟨.var "Q", some ⟨1, 10, 9⟩⟩)] (some ⟨.nat, some ⟨1, 16, 15⟩⟩) [] []
    ⟨.unary .succ ⟨.literal (.bool true), none⟩, some ⟨1, 29, 28⟩⟩, some ⟨1, 1, 0⟩⟩]⟩, some ⟨1, 1, 0⟩⟩

/-- Of its errors two stand at the type `Q`, which is looked at twice, one at the operand and one nowhere.
A checker that stops at three errors and has one of another place adds two of them. -/
theorem halfPlaced_errors_stand :
    let used := ((Checker.new { maxErrors := some 3 }).synth {} ⟨.var "z", some ⟨7, 1, 60⟩⟩).2
    checkProgram halfPlaced = [⟨.undefinedVariable "Q", some ⟨1, 10, 9⟩⟩,
        ⟨.undefinedVariable "Q", some ⟨1, 10, 9⟩⟩, ⟨.mismatch .nat .bool, none⟩, ⟨.missingMain, none⟩] ∧
      StandsIn halfPlaced ⟨.undefinedVariable "Q", some ⟨1, 10, 9⟩⟩ ∧
      StandsIn halfPlaced ⟨.mismatch .nat .bool, none⟩ ∧ StandsIn halfPlaced ⟨.missingMain, none⟩ ∧
      used.Reachable ∧ (used.check halfPlaced).1.map (·.position) =
        [some ⟨7, 1, 60⟩, some ⟨1, 10, 9⟩, some ⟨1, 10, 9⟩] ∧
      ∃ added, (used.check halfPlaced).1 = used.errors ++ added ∧ ∀ e ∈ added, StandsIn halfPlaced e := by
  intro used
  obtain ⟨all, more⟩ := errors_stand_at_nodes
  have stands (e : TypeError) (reported : e ∈ checkProgram halfPlaced) : StandsIn halfPlaced e :=
    all {} halfPlaced e reported
  have reachable : used.Reachable := .synth {} _ (.new _)
  exact ⟨by decide +kernel, stands _ (by decide +kernel), stands _ (by decide +kernel),
    stands _ (by decide +kernel), reachable, by decide +kernel, more used reachable halfPlaced⟩

end StellaLang.Typing
