import StellaLang.Proofs.Typing.Judged

/-! Structural subtyping only accepts more. As long as the checker has nothing to report, it
does under structural subtyping what it does without: each step is followed by the
same step, and the types it finds are the same. -/
namespace StellaLang.Typing

open Syntax (Program expressions)

namespace Judgement

/-- The judgement under structural subtyping. -/
def subtyped (j : Judgement) : Judgement :=
  { j with context := j.context.subtyped }

end Judgement

/-- That a run under structural subtyping is where a run without it is. -/
structure Beside (p q : Progress) : Prop where
  limits : q.limits = p.limits
  errors : q.errors = p.errors
  halted : q.halted = p.halted
  cache : q.cache = p.cache
  judgements : q.judgements = p.judgements.map Judgement.subtyped

namespace Beside

variable {p q : Progress}

theorem with_cache (beside : Beside p q) (c : Memo (Located Syntax.TypeExpr) Ty) :
    Beside { p with cache := c } { q with cache := c } :=
  ⟨beside.limits, beside.errors, beside.halted, rfl, beside.judgements⟩

theorem note (beside : Beside p q) (level : Log.Level) (topic text : String) :
    Beside (p.note level topic text) (q.note level topic text) :=
  ⟨beside.limits, beside.errors, beside.halted, beside.cache, beside.judgements⟩

theorem judge (beside : Beside p q) (j : Judgement) :
    Beside { p with judgements := j :: p.judgements }
      { q with judgements := j.subtyped :: q.judgements } := by
  refine ⟨beside.limits, beside.errors, beside.halted, beside.cache, ?_⟩
  rw [List.map_cons]
  exact congrArg (_ :: ·) beside.judgements

end Beside

/-- A report does not go unnoticed. -/
theorem report_errors_ne {p : Progress} (active : p.halted = false) (fault : Fault)
    (position : Option Position) : (Check.report fault position p).2.errors ≠ p.errors := by
  rw [Check.report_apply, Progress.record_errors _ active]
  simp

/-- Where the first step reports nothing, the second does the same. -/
theorem Check.Follows.beside {φ : α → β} {x : Check α} {y : Check β} (follows : Follows true φ x y) :
    ∀ {p q}, Beside p q → p.halted = false → (x p).2.errors = p.errors →
      (y q).1 = φ (x p).1 ∧ Beside (x p).2 (y q).2 := by
  induction follows with
  | answer φ a => exact fun beside _ _ => ⟨rfl, beside⟩
  | @bind _ _ _ _ x y φ f g ψ first next firstBeside nextBeside =>
    intro p q beside active quiet
    rw [bind_apply] at quiet
    have left := first.built.grown p
    have firstQuiet := left.errors_eq ((next _).built.grown _) quiet
    obtain ⟨agree, middle⟩ := firstBeside beside active firstQuiet
    have stillActive := (left.quiet firstQuiet).trans active
    rw [bind_apply, bind_apply, agree]
    exact nextBeside _ middle stillActive (quiet.trans firstQuiet.symm)
  | guarded skipped inner innerBeside =>
    intro p q beside active quiet
    rw [guarded_of_active _ _ active] at quiet ⊢
    rw [guarded_of_active _ _ (beside.halted.trans active)]
    exact innerBeside beside active quiet
  | report fault position =>
    exact fun _ active quiet => absurd quiet (report_errors_ne active fault position)
  | milder fault position =>
    exact fun _ active quiet => absurd quiet (report_errors_ne active fault position)
  | note => exact fun beside _ _ => ⟨rfl, beside.note _ _ _⟩
  | judge _ ctx e t => exact fun beside _ _ => ⟨rfl, beside.judge ⟨ctx, e, t⟩⟩
  | @meaning ctx t resolved resolvedBeside =>
    intro p q beside active quiet
    rw [meaning_apply] at quiet ⊢
    rw [meaning_apply, beside.cache]
    by_cases isOpen : Syntax.TypeExpr.isClosed t = false
    · rw [if_pos isOpen] at quiet ⊢
      rw [if_pos isOpen]
      exact resolvedBeside beside active quiet
    · rw [if_neg isOpen] at quiet ⊢
      rw [if_neg isOpen]
      have counted := beside.with_cache (p.cache.count t)
      cases known : p.cache.get? t with
      | some found => exact ⟨rfl, counted.note _ _ _⟩
      | none =>
        rw [known] at quiet
        obtain ⟨agree, after⟩ := resolvedBeside counted active quiet
        have kept := congrArg₂ (Memo.put · t ·) after.cache agree
        exact ⟨agree, after.limits, after.errors, after.halted, kept, after.judgements⟩

section Programs

theorem typed_subtyped (judgements : List Judgement) :
    (judgements.map Judgement.subtyped).map Judgement.typed = judgements.map Judgement.typed := by
  rw [List.map_map]
  rfl

variable {program extended : Located Program}

/-- Accepted without structural subtyping, the declarations of a program are checked
alike with it. -/
theorem checkModule_beside (block : List (Located Syntax.Decl)) (ctx : Context)
    (quiet : (checkModule ctx block {}).2.errors = []) (q : Progress) (start : Beside {} q) :
    Beside (checkModule ctx block {}).2 (checkModule ctx.subtyped block q).2 :=
  ((checkModule_follows ctx block).beside start rfl quiet).2

theorem checking_beside (sameDecls : extended.node.decls = program.node.decls)
    (plain : program.node.hasExtension Checker.subtypingExtension = false)
    (asked : extended.node.hasExtension Checker.subtypingExtension = true)
    (accepted : checkProgram program = []) :
    Beside (({} : Checker).checking program {}).2 (({} : Checker).checking extended {}).2 := by
  have quiet : (({} : Checker).checking program {}).2.errors = [] := accepted
  unfold Checker.checking at quiet ⊢
  rw [plain] at quiet ⊢
  rw [asked, sameDecls]
  exact checkModule_beside program.node.decls _ quiet _ ⟨rfl, rfl, rfl, rfl, rfl⟩

/-- A program that is accepted is accepted under structural subtyping too, and the types
found, one for each of its expressions, are the same there. -/
theorem accepted_with_subtyping (sameDecls : extended.node.decls = program.node.decls)
    (asked : extended.node.hasExtension Checker.subtypingExtension = true)
    (accepted : checkProgram program = []) :
    checkProgram extended = [] ∧ typesFound extended = typesFound program ∧
      (typesFound program).map (·.1) = expressions (Syntax.Program.postOrder program) := by
  cases mode : program.node.hasExtension Checker.subtypingExtension with
  | true =>
    have same : ({} : Checker).checking extended = ({} : Checker).checking program := by
      unfold Checker.checking
      rw [asked, mode, sameDecls]
    have errors : checkProgram extended = checkProgram program :=
      congrArg (fun x : Check Context => (x {}).2.errors) same
    refine ⟨errors.trans accepted, ?_, typesFound_expressions program⟩
    rw [typesFound_eq, typesFound_eq, same]
  | false =>
    have beside := checking_beside sameDecls mode asked accepted
    refine ⟨beside.errors.trans accepted, ?_, typesFound_expressions program⟩
    rw [typesFound_eq, typesFound_eq, beside.judgements, typed_subtyped]

end Programs

/-- A program of one function, which adds one to a number below it in a record. -/
def nextField (extensions : List (List String)) : Located Program where
  node :=
    { extensions
      decls := [⟨.function [] "main" none
        [("r", ⟨.record [("x", ⟨.nat, none⟩)], none⟩)] (some ⟨.nat, none⟩) [] []
        ⟨.unary .succ ⟨.field ⟨.var "r", none⟩ "x", none⟩, none⟩, none⟩] }
  position := none

theorem nextField_with_subtyping :
    checkProgram (nextField []) = [] ∧ checkProgram (nextField [["#structural-subtyping"]]) = [] ∧
      typesFound (nextField [["#structural-subtyping"]]) = typesFound (nextField []) ∧
      (typesFound (nextField [])).map (·.1) =
        expressions (Syntax.Program.postOrder (nextField [])) := by
  have accepted : checkProgram (nextField []) = [] := by decide +kernel
  exact ⟨accepted, accepted_with_subtyping rfl (by decide +kernel) accepted⟩

end StellaLang.Typing
