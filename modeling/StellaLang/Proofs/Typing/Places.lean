import StellaLang.Proofs.Syntax.SameTrees
import StellaLang.Proofs.Typing.Pairing
import StellaLang.Proofs.Typing.RetypingBlocks

/-! Places never influence checking. Declarations and programs are checked alike at all places, so
equal programs have the same faults. -/
namespace StellaLang.Typing

open Syntax (Decl Expr Program TypeExpr)
open Check Agree

variable {f : Option Position → Option Position} {ctx ctx' : Context}

/-- The same answer, in contexts in which names mean the same. -/
abbrev Declares (a b : Context × α) : Prop :=
  Declaring Context.Alike a b

section Declarations

/-- Where annotations stand has no part in what they mean. -/
theorem relocation_sameMeanings (f : Option Position → Option Position) :
    SameMeanings (TypeExpr.relocation f) f fun _ => Context.SameTypes where
  resolve same t := resolve_relocated same [] t
  push same := same.push
  bindTypeVars same := same.bindTypeVars

theorem relocation_unnoticed (f : Option Position → Option Position) :
    Unnoticed (TypeExpr.relocation f) f (fun _ => True) fun _ => Context.Alike where
  resolve alike t := resolve_relocated alike.toSameTypes [] t
  push alike := alike.push
  bindTypeVars alike := alike.bindTypeVars
  alike related := related
  bind alike := alike.bind
  typeAlias alike x t _ := by
    refine ⟨⟨?_, alike.typeVars⟩, alike.vars⟩
    rw [alike.environment]
  exceptionType alike t := by
    refine ⟨⟨?_, alike.typeVars⟩, alike.vars⟩
    rw [alike.environment]
  exceptionVariant alike l t := by
    refine ⟨⟨?_, alike.typeVars⟩, alike.vars⟩
    rw [alike.environment]

theorem introduces_any (d : Located Decl) : Introduces (fun _ => True) d :=
  fun _ _ _ _ => trivial

theorem bindParams_relocated (alike : ctx.Alike ctx') (params : List (String × Located TypeExpr)) :
    Agree (Moved f) Declares (bindParams ctx params)
      (bindParams ctx' (TypeExpr.relocateFields f params)) := by
  rw [← TypeExpr.retypeFields_relocation f []]
  exact bindParams_retyped (relocation_unnoticed f) alike params

/-- An expression has one type wherever it stands, and the same faults. -/
theorem synth_relocated (alike : ctx.Alike ctx') (e : Located Expr) :
    Agree (Moved f) Eq (synth ctx e) (synth ctx' (Expr.relocate f e)) := by
  rw [← Expr.retype_relocation f []]
  exact synth_retyped (relocation_unnoticed f) alike e

theorem signature_relocated (same : ctx.SameTypes ctx') (generics : Option (List String))
    (params : List (String × Located TypeExpr)) (result : Option (Located TypeExpr)) :
    Agree (Moved f) Eq (signature ctx generics params result)
      (signature ctx' generics (TypeExpr.relocateFields f params)
        (result.map (TypeExpr.relocate f))) := by
  rw [← TypeExpr.retypeFields_relocation f ([] ++ generics.getD [])]
  exact (relocation_sameMeanings f).signature same generics params result

theorem declare_relocated (alike : ctx.Alike ctx') (d : Decl) :
    Agree (Moved f) Context.Alike (declare ctx d) (declare ctx' (Decl.relocateNode f d)) := by
  rw [← Decl.retypeNode_relocation f []]
  exact (relocation_unnoticed f).declare alike (introduces_any ⟨d, none⟩)

theorem declareAll_relocated (alike : ctx.Alike ctx') (names : List String) (ds : List (Located Decl)) :
    Agree (Moved f) Declares (declareAll ctx names ds)
      (declareAll ctx' names (Decl.relocateAll f ds)) := by
  rw [← Decl.retypeAll_relocation f []]
  exact (relocation_unnoticed f).declareAll alike names fun d _ => introduces_any d

theorem declareBlock_relocated (alike : ctx.Alike ctx') (block : List (Located Decl)) :
    Agree (Moved f) Context.Alike (declareBlock ctx block)
      (declareBlock ctx' (Decl.relocateAll f block)) := by
  rw [← Decl.retypeAll_relocation f []]
  exact (relocation_unnoticed f).declareBlock alike fun d _ => introduces_any d

theorem checkDecl_relocated (alike : ctx.Alike ctx') (d : Located Decl) :
    Agree (Moved f) Eq (checkDecl ctx d) (checkDecl ctx' (Decl.relocate f d)) := by
  rw [← Decl.retype_relocation f []]
  exact checkDecl_retyped (relocation_unnoticed f) alike d (introduces_any d)

theorem checkDecls_relocated (alike : ctx.Alike ctx') (ds : List (Located Decl)) :
    Agree (Moved f) Eq (checkDecls ctx ds) (checkDecls ctx' (Decl.relocateAll f ds)) := by
  rw [← Decl.retypeAll_relocation f []]
  exact checkDecls_retyped (relocation_unnoticed f) alike ds fun d _ => introduces_any d

theorem checkModule_relocated (alike : ctx.Alike ctx') (block : List (Located Decl)) :
    Agree (Moved f) Context.Alike (checkModule ctx block)
      (checkModule ctx' (Decl.relocateAll f block)) := by
  rw [← Decl.retypeAll_relocation f []]
  exact checkModule_of_checkBlock id
    ((relocation_unnoticed f).checkBlock alike fun d _ => introduces_any d)

end Declarations

section Programs

/-- The step that checks a program finds the errors of the program. -/
theorem Check.Gives.checkProgram {program : Located Program} {ctx : Context} {es : List TypeError}
    (found : Gives (({} : Checker).checking program) ctx es) : checkProgram program = es :=
  (found {} .start).2.1

theorem checking_relocated (c : Checker) (program : Located Program) :
    Agree (Moved f) Context.Alike (c.checking program) (c.checking (Program.relocate f program)) := by
  unfold Checker.checking
  dsimp only [Program.relocate, Program.hasExtension]
  have checked := checkModule_relocated (f := f)
    (.refl ((c.setSubtyping (program.node.hasExtension Checker.subtypingExtension)).within {}))
    program.node.decls
  split
  · exact .andThen (.note _ _ _ _) fun _ => checked
  · exact checked

/-- A program has the faults that it has at other places. -/
theorem checkProgram_relocated (f : Option Position → Option Position) (program : Located Program) :
    Moved f (checkProgram program) (checkProgram (Program.relocate f program)) := by
  obtain ⟨_, _, es, fs, found, found', -, moved⟩ := checking_relocated (f := f) {} program
  rw [found.checkProgram, found'.checkProgram]
  exact moved

/-- Faults are what they were, wherever they are moved. -/
theorem Moved.map_fault {es es' : List TypeError} (moved : Moved f es es') :
    es'.map (·.fault) = es.map (·.fault) := by
  induction moved with
  | nil => rfl
  | cons first _ ih =>
    obtain ⟨fault, position, rfl, rfl⟩ := first
    rw [List.map_cons, List.map_cons, ih, Fault.fault_at, Fault.fault_at]

/-- Two errors that differ at most in their places. -/
def TypeError.SameFault (e e' : TypeError) : Prop :=
  e.fault = e'.fault

/-- Equal programs have the same faults, in the same order. -/
theorem checkProgram_beq {p q : Located Program} (equal : (p == q) = true) :
    List.Forall₂ TypeError.SameFault (checkProgram p) (checkProgram q) := by
  have first := (checkProgram_relocated Syntax.nowhere p).map_fault
  have second := (checkProgram_relocated Syntax.nowhere q).map_fault
  have faults : (checkProgram p).map (·.fault) = (checkProgram q).map (·.fault) := by
    rw [← first, ← second, Syntax.Program.relocate_beq equal]
  rwa [← List.forall₂_eq_eq_eq, List.forall₂_map_left_iff, List.forall₂_map_right_iff] at faults

theorem Limits.forall₂_cut (limits : Limits) {R : TypeError → TypeError → Prop}
    {es es' : List TypeError} (related : List.Forall₂ R es es') :
    List.Forall₂ R (limits.cut es) (limits.cut es') := by
  unfold Limits.cut
  split
  · exact related
  · exact List.forall₂_take _ related

/-- Places never influence checking. Two programs that are equal, so that they differ at most in the
places of their nodes, are both accepted or both rejected under whatever limits, with the same
faults in the same order; and whatever the style and the depth, they are printed as one text. -/
theorem places_never_matter {p q : Located Program} (equal : (p == q) = true) :
    (∀ limits,
      (((Checker.new limits).check p).1 = [] ↔ ((Checker.new limits).check q).1 = []) ∧
        List.Forall₂ TypeError.SameFault ((Checker.new limits).check p).1
          ((Checker.new limits).check q).1) ∧
      ∀ style depth, (Program.doc p).render style depth = (Program.doc q).render style depth := by
  constructor
  · intro limits
    rw [check_new_eq_cut, check_new_eq_cut]
    have errors := limits.forall₂_cut (checkProgram_beq equal)
    refine ⟨?_, errors⟩
    rw [← List.length_eq_zero_iff, errors.length_eq, List.length_eq_zero_iff]
  · intro style depth
    rw [← Program.doc_relocate Syntax.nowhere p, Syntax.Program.relocate_beq equal,
      Program.doc_relocate]

/-- A program with a fault in its last line, written at some place. -/
def faultyAt (line : Nat) : Located Program :=
  ⟨⟨[], [⟨.function [] "main" none [("n", ⟨.nat, some ⟨line, 12, 11⟩⟩)] (some ⟨.nat, none⟩) [] []
    ⟨.unary .succ ⟨.literal (.bool true), some ⟨line + 1, 15, 37⟩⟩, some ⟨line + 1, 10, 32⟩⟩,
    some ⟨line, 1, 0⟩⟩]⟩, some ⟨line, 1, 0⟩⟩

/-- Two copies of a program on different lines, with one fault each. -/
theorem places_never_matter_faulty :
    (faultyAt 1 == faultyAt 7) = true ∧ (checkProgram (faultyAt 7)).length = 1 ∧
      (∀ limits,
        (((Checker.new limits).check (faultyAt 1)).1 = [] ↔
          ((Checker.new limits).check (faultyAt 7)).1 = []) ∧
        List.Forall₂ TypeError.SameFault ((Checker.new limits).check (faultyAt 1)).1
          ((Checker.new limits).check (faultyAt 7)).1) ∧
      ∀ style depth, (Program.doc (faultyAt 1)).render style depth =
        (Program.doc (faultyAt 7)).render style depth :=
  ⟨by decide +kernel, by decide +kernel, places_never_matter (by decide +kernel)⟩

end Programs

end StellaLang.Typing
