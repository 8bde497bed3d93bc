import StellaLang.Proofs.Typing.SpoilingPatterns
import StellaLang.Typing.Checker

/-! Expressions with a variable whose type is lost. One error should not bring about others: whatever
is said of an error holds. All checks keep to this but one, the search through the cases of a match,
which looks for the type `Bool` before it splits a product. Main statement: where the type of a
variable is lost, an expression that was accepted is faulted exactly if a match is stuck there. -/
namespace StellaLang.Typing

open Syntax (Expr Pattern TypeExpr UnaryOp)
open Check (Built Spoils)
open Ty (Labelled)

variable {ctx ctx' : Context}

section Alternatives

variable {t u t' u' : Ty}

theorem related_of_wildcard (ctx : Context) (h : (t.isWildcard || u.isWildcard) = true) :
    Check.related ctx t u = true := by
  rw [Check.related, Context.conforms, Ty.conforms_of_wildcard h, Bool.true_or]

theorem related_spoilt (h : ctx.Spoilt ctx') (first : t.Spoilt u) (second : t'.Spoilt u')
    (fits : Check.related ctx t t' = true) : Check.related ctx' u u' = true := by
  rw [Check.related, Bool.or_eq_true] at fits ⊢
  exact fits.imp (h.conforms first second) (h.conforms second first)

theorem compatibleAlternatives_spoilt (h : ctx.Spoilt ctx') {fs fs' gs gs' : List (String × Option Ty)}
    (first : List.Forall₂ (Labelled (Option.Rel Ty.Spoilt)) fs fs')
    (second : List.Forall₂ (Labelled (Option.Rel Ty.Spoilt)) gs gs')
    (fits : Check.compatibleAlternatives ctx fs gs = true) :
    Check.compatibleAlternatives ctx' fs' gs' = true := by
  unfold Check.compatibleAlternatives at fits ⊢
  induction first with
  | nil => rfl
  | @cons f f' fs fs' one _ ih =>
    obtain ⟨l, payload⟩ := f
    obtain ⟨m, payload'⟩ := f'
    obtain ⟨same, carried⟩ := one
    obtain rfl : l = m := same
    rw [List.all_cons, Bool.and_eq_true] at fits ⊢
    refine ⟨?_, ih fits.2⟩
    have here := fits.1
    have shared := Ty.rel_lookup second l
    dsimp only at here ⊢
    generalize gs.lookup l = other, gs'.lookup l = other' at shared here ⊢
    cases shared with
    | none => rfl
    | some shared =>
      cases carried with
      | none =>
        cases shared with
        | none => rfl
        | some => contradiction
      | some carried =>
        cases shared with
        | none => contradiction
        | some shared => exact related_spoilt h carried shared here

theorem compatible_spoilt (h : ctx.Spoilt ctx') (first : t.Spoilt u) (second : t'.Spoilt u')
    (fits : Check.compatible ctx t t' = true) : Check.compatible ctx' u u' = true := by
  cases first.shape with
  | error => exact related_of_wildcard ctx' rfl
  | variant payloads =>
    cases second.shape with
    | error => exact related_of_wildcard ctx' (Bool.or_true _)
    | variant payloads' => exact compatibleAlternatives_spoilt h payloads payloads' fits
    | constant c => cases c <;> exact related_spoilt h first second fits
    | _ => exact related_spoilt h first second fits
  | constant c => cases c <;> exact related_spoilt h first second fits
  | _ => exact related_spoilt h first second fits

theorem join_spoils (h : ctx.Spoilt ctx') (first : t.Spoilt u) (second : t'.Spoilt u')
    (position : Option Position) :
    Spoils Ty.Spoilt (Check.join ctx t t' position) (Check.join ctx' u u' position) := by
  by_cases fits : Check.compatible ctx t t' = true
  · unfold Check.join
    rw [if_pos fits, if_pos (compatible_spoilt h first second fits)]
    exact .answer (first.merge second)
  · rw [Check.join, if_neg fits]
    exact .report

end Alternatives

section Operations

variable {t u : Ty}

theorem eliminate_spoils (spoilt : t.Spoilt u) (fault : Ty → Fault) (position : Option Position) :
    Spoils Ty.Spoilt (eliminate t fault position) (eliminate u fault position) := by
  have error : Ty.Spoilt .error .error := .constant .error
  have unknown : Ty.Spoilt .unknown .unknown := .constant .unknown
  by_cases lost : u.isError = true
  · have answer : eliminate u fault position = pure .error := if_pos lost
    rw [answer]
    unfold eliminate
    split
    · exact .answer error
    split
    · exact .answer (.error unknown.tidy)
    · exact .report
  · rw [Bool.not_eq_true] at lost
    obtain ⟨sound, same⟩ := spoilt.of_sound lost
    unfold eliminate
    rw [sound, lost, same]
    by_cases wildcard : t.isWildcard = true
    · rw [if_pos wildcard, if_pos wildcard]
      exact .answer unknown
    · rw [if_neg wildcard, if_neg wildcard]
      exact .report

theorem requiring_spoils (h : ctx.Spoilt ctx') {t u t' u' answer answer' : Ty} (first : t.Spoilt u)
    (second : t'.Spoilt u') (position : Option Position) (answers : answer.Spoilt answer') :
    Spoils Ty.Spoilt (Check.require ctx t t' position >>= fun _ => pure answer)
      (Check.require ctx' u u' position >>= fun _ => pure answer') :=
  .map (require_spoils h first second position) fun _ _ _ => answers

/-- A requirement on the first side only. -/
theorem requiring_lost {R : α → β → Prop} {x : Check α} {y : Check β} (spoils : Spoils R x y)
    (ctx : Context) (t u : Ty) (position : Option Position) :
    Spoils R (Check.require ctx t u position >>= fun _ => x) y := by
  have built := spoils.built
  have built' := spoils.built'
  by_cases fits : ctx.conforms t u = true
  · rw [Check.require, if_pos fits]
    exact spoils
  · exact .noisy fun _ quiet => fits (quiet.bind inferInstance fun _ => built).1.conforms_of_require

theorem unaryType_spoils (h : ctx.Spoilt ctx') (operation operand : Option Position) (op : UnaryOp)
    (spoilt : t.Spoilt u) :
    Spoils Ty.Spoilt (unaryType ctx operation operand op t) (unaryType ctx' operation operand op u) := by
  cases op with
  | ref => exact .answer (Ty.Spoilt.ref_iff.mpr spoilt)
  | inl => exact .answer (Ty.Spoilt.sum_iff.mpr ⟨spoilt, .constant .unknown⟩)
  | inr => exact .answer (Ty.Spoilt.sum_iff.mpr ⟨.constant .unknown, spoilt⟩)
  | succ => exact requiring_spoils h spoilt (.constant .nat) operand (.constant .nat)
  | pred => exact requiring_spoils h spoilt (.constant .nat) operand (.constant .nat)
  | isZero => exact requiring_spoils h spoilt (.constant .nat) operand (.constant .bool)
  | not => exact requiring_spoils h spoilt (.constant .bool) operand (.constant .bool)
  | deref =>
    cases spoilt.shape with
    | ref referent => exact .answer referent
    | error =>
      cases t with
      | ref w => exact .answer (.error (Ty.tidy_ref.mp spoilt.tidy))
      | _ => exact eliminate_spoils spoilt .notAReference operand
    | constant c => cases c <;> exact eliminate_spoils spoilt .notAReference operand
    | _ => exact eliminate_spoils spoilt .notAReference operand
  | head =>
    cases spoilt.shape with
    | list element => exact .answer element
    | error =>
      cases t with
      | list w => exact .answer (.error (Ty.tidy_list.mp spoilt.tidy))
      | _ => exact eliminate_spoils spoilt .notAList operand
    | constant c => cases c <;> exact eliminate_spoils spoilt .notAList operand
    | _ => exact eliminate_spoils spoilt .notAList operand
  | tail =>
    cases spoilt.shape with
    | list => exact .answer spoilt
    | error =>
      cases t with
      | list w => exact .answer spoilt
      | _ => exact eliminate_spoils spoilt .notAList operand
    | constant c => cases c <;> exact eliminate_spoils spoilt .notAList operand
    | _ => exact eliminate_spoils spoilt .notAList operand
  | isEmpty =>
    have asked : Spoils Ty.Spoilt (eliminate t .notAList operand >>= fun _ => pure .bool)
        (eliminate u .notAList operand >>= fun _ => pure .bool) :=
      .map (eliminate_spoils spoilt .notAList operand) fun _ _ _ => .constant .bool
    cases spoilt.shape with
    | list => exact .answer (.constant .bool)
    | error =>
      cases t with
      | list => exact .answer (.constant .bool)
      | _ => exact asked
    | constant c => cases c <;> exact asked
    | _ => exact asked
  | fix =>
    cases spoilt.shape with
    | @arrow ps qs r s params result =>
      cases params with
      | nil => exact eliminate_spoils spoilt .notAFunction operand
      | @cons p q _ _ param rest =>
        cases rest with
        | cons => exact eliminate_spoils spoilt .notAFunction operand
        | nil =>
          unfold unaryType
          dsimp only
          by_cases fits : ctx.conforms r p = true
          · rw [if_pos fits, if_pos (h.conforms result param fits)]
            exact .answer (param.merge result)
          · rw [if_neg fits]
            exact .report
    | error =>
      cases t with
      | arrow ps r =>
        cases ps with
        | nil => exact eliminate_spoils spoilt .notAFunction operand
        | cons p rest =>
          cases rest with
          | cons => exact eliminate_spoils spoilt .notAFunction operand
          | nil =>
            obtain ⟨params, result⟩ := Ty.tidy_arrow.mp spoilt.tidy
            have param := params p List.mem_cons_self
            rw [unaryType]
            split
            · exact .answer (.error (Ty.Spoilt.tidy_merge param result))
            · exact .report
      | _ => exact eliminate_spoils spoilt .notAFunction operand
    | constant c => cases c <;> exact eliminate_spoils spoilt .notAFunction operand
    | _ => exact eliminate_spoils spoilt .notAFunction operand
  | throw =>
    rw [unaryType, unaryType, h.exception?]
    cases known : ctx.exception? with
    | some exception =>
      exact requiring_spoils h spoilt (.refl (h.exceptions exception known)) operand (.constant .never)
    | none => exact .reported

theorem tidy_unfold {t : Ty} (tidy : t.Tidy) : t.unfold.Tidy :=
  fun _ part => tidy.of_outlined (Ty.parts_unfold part)

theorem tidy_literalType (l : Syntax.Literal) : (literalType l).Tidy := by
  cases l with
  | address => exact Ty.tidy_ref.mpr (Ty.Spoilt.constant .unknown).tidy
  | bool => exact (Ty.Spoilt.constant .bool).tidy
  | unit => exact (Ty.Spoilt.constant .unit).tidy
  | nat => exact (Ty.Spoilt.constant .nat).tidy

/-- Operators ask for tidy types, and have such types. -/
theorem tidy_operandType (op : Syntax.BinaryOp) :
    (∀ t, (operandType? op).1 = some t → t.Tidy) ∧ (operandType? op).2.Tidy := by
  have number : Ty.Tidy .nat := (Ty.Spoilt.constant .nat).tidy
  have truth : Ty.Tidy .bool := (Ty.Spoilt.constant .bool).tidy
  cases op <;> simp [operandType?, number, truth]

end Operations

section Matches

theorem finds_unique {e : Located Expr} {t u : Ty} (first : Finds ctx e t) (second : Finds ctx e u) :
    u = t := by
  obtain ⟨p, quiet, rfl⟩ := first
  obtain ⟨q, quiet', rfl⟩ := second
  exact (synth_follows ctx e).built.answer_unique quiet quiet'

/-- A match that is searched through without a gap is not stuck. -/
theorem not_stuck {e : Located Expr} {cases : List (Located Pattern × Located Expr)}
    {position : Option Position} {u v : Ty} (found : Finds ctx e u)
    (covered : Coverage.missing u (cases.map (·.1)) = []) :
    ¬Judgement.Stuck ⟨ctx, ⟨.matching e cases, position⟩, v⟩ := by
  rintro ⟨e', cases', u', same, found', blocked⟩
  cases same
  obtain rfl := finds_unique found found'
  exact Coverage.missing_ne_nil blocked covered

/-- The report of a gap, where the match is stuck. -/
theorem stuck_cuts {e : Located Expr} {cases : List (Located Pattern × Located Expr)}
    {position : Option Position} {u v : Ty} {missing : List String} (found : Finds ctx e u)
    (blocked : Coverage.Blocked u (cases.map (·.1))) {q : Progress} (active : q.halted = false) :
    Check.Cut (Check.report (.nonExhaustiveMatch missing) position >>= fun _ =>
      Check.judge ctx ⟨.matching e cases, position⟩ v >>= fun _ => pure v) q where
  errors := ⟨missing, position, by
    rw [Check.bind_apply, Check.report_apply]
    exact (Progress.record_errors _ active).symm ▸ List.prefix_refl _⟩
  judgements := by
    refine ⟨[⟨ctx, ⟨.matching e cases, position⟩, v⟩], ?_, _, List.mem_singleton_self _, ?_⟩
    · rw [Check.bind_apply, Check.report_apply]
      exact congrArg (_ :: ·) (Progress.record_judgements _)
    · exact ⟨e, cases, u, rfl, found, blocked⟩

theorem matching_spoils {e : Located Expr} {cases : List (Located Pattern × Located Expr)}
    {position : Option Position} (scrutinee : Spoils Ty.Spoilt (synth ctx e) (synth ctx' e))
    (each : ∀ t u, t.Spoilt u →
      Spoils Ty.Spoilt (joinCases ctx t .unknown cases) (joinCases ctx' u .unknown cases)) :
    Spoils Ty.Spoilt (synth ctx ⟨.matching e cases, position⟩)
      (synth ctx' ⟨.matching e cases, position⟩) := by
  rw [synth, synth, synthNode, synthNode]
  dsimp only
  rw [bind_assoc, bind_assoc]
  refine .guarded (.bind scrutinee.found ?_)
  rintro t u ⟨taken, found⟩
  cases empty : cases.isEmpty with
  | true => exact .reported
  | false =>
    simp only [Bool.false_eq_true, if_false, bind_assoc]
    apply Spoils.bind (each t u taken)
    intro result result' common
    by_cases covered : Coverage.missing t (cases.map (·.1)) = []
    · rw [if_pos (List.isEmpty_iff.mpr covered)]
      by_cases still : Coverage.missing u (cases.map (·.1)) = []
      · rw [if_pos (List.isEmpty_iff.mpr still)]
        exact .bind (.answer common) fun _ _ common =>
          .bind (.judge (not_stuck found still)) fun _ _ _ => .answer common
      · rw [if_neg fun none => still (List.isEmpty_iff.mp none), bind_assoc]
        have blocked := not_not.mp (mt (Coverage.missing_spoilt_iff taken covered).mpr still)
        exact .cut fun q active => stuck_cuts found blocked active
    · rw [if_neg fun none => covered (List.isEmpty_iff.mp none), bind_assoc]
      exact .reported

end Matches

section Expressions

/-- The context and the types on both sides. -/
def Recovered (a b : Context × List Ty) : Prop :=
  a.1.Spoilt b.1 ∧ List.Forall₂ Ty.Spoilt a.2 b.2

theorem declareRecursive_spoils (h : ctx.Spoilt ctx') {bs : List (Located Pattern × Located Expr)}
    (apart : Apart (Expr.postOrderBindings bs)) :
    Spoils Recovered (declareRecursive ctx bs) (declareRecursive ctx' bs) := by
  induction bs generalizing ctx ctx' with
  | nil => exact .answer ⟨h, .nil⟩
  | cons b bs ih =>
    obtain ⟨⟨p, position⟩, e⟩ := b
    have failed : Spoils Recovered
        (Check.report .ambiguousType position >>= fun t =>
          declareRecursive ctx bs >>= fun r => pure (r.1, t :: r.2))
        (declareRecursive ctx' ((⟨p, position⟩, e) :: bs)) := .reported
    cases p with
    | ascribed p type =>
      have inner := apart.left.left.left
      change Spoils Recovered
        (meaning ctx type >>= fun t => bindings ctx t p >>= fun bound =>
          declareRecursive (ctx.bindAll bound) bs >>= fun r => pure (r.1, t :: r.2))
        (meaning ctx' type >>= fun t => bindings ctx' t p >>= fun bound =>
          declareRecursive (ctx'.bindAll bound) bs >>= fun r => pure (r.1, t :: r.2))
      apply Spoils.bind (meaning_spoils h inner.right)
      rintro _ t ⟨rfl, tidy⟩
      apply Spoils.bind (bindings_spoils h (.refl tidy) inner.left)
      intro _ _ bound
      exact .map (ih (h.bindAll bound) apart.right) fun _ _ rest => ⟨rest.1, .cons (.refl tidy) rest.2⟩
    | _ => exact failed

theorem bindParams_spoils (h : ctx.Spoilt ctx') {params : List (String × Located TypeExpr)}
    (apart : Apart (TypeExpr.postOrderFields params)) :
    Spoils Recovered (bindParams ctx params) (bindParams ctx' params) := by
  induction params generalizing ctx ctx' with
  | nil => exact .answer ⟨h, .nil⟩
  | cons param params ih =>
    obtain ⟨v, type⟩ := param
    change Spoils Recovered
      (meaning ctx type >>= fun t => bindParams (ctx.bind v t) params >>= fun r => pure (r.1, t :: r.2))
      (meaning ctx' type >>= fun t => bindParams (ctx'.bind v t) params >>= fun r => pure (r.1, t :: r.2))
    apply Spoils.bind (meaning_spoils h apart.left)
    rintro _ t ⟨rfl, tidy⟩
    exact .map (ih (h.bind v (.refl tidy)) apart.right) fun _ _ rest => ⟨rest.1, .cons (.refl tidy) rest.2⟩

mutual

theorem synth_spoils {ctx ctx' : Context} (h : ctx.Spoilt ctx') {e : Located Expr}
    (apart : Apart (Expr.postOrder e)) : Spoils Ty.Spoilt (synth ctx e) (synth ctx' e) := by
  obtain ⟨n, position⟩ := e
  have searchless (plain : ¬∃ e cases, n = .matching e cases) :
      Spoils Ty.Spoilt (synth ctx ⟨n, position⟩) (synth ctx' ⟨n, position⟩) :=
    .guarded (.bind (synthNode_spoils h position plain apart) fun _ _ found =>
      .bind (.judge fun ⟨e, cases, _, same, _⟩ => plain ⟨e, cases, same⟩) fun _ _ _ => .answer found)
  cases n with
  | matching e cases =>
    have inside : Apart (Expr.inside (.matching e cases)) := apart.left
    exact matching_spoils (synth_spoils h inside.left) fun t u taken =>
      joinCases_spoils h taken (.constant .unknown) inside.right
  | _ => exact searchless fun ⟨_, _, same⟩ => nomatch same
termination_by structural e

theorem synthNode_spoils {ctx ctx' : Context} (h : ctx.Spoilt ctx') (position : Option Position)
    {n : Expr} (plain : ¬∃ e cases, n = .matching e cases) (apart : Apart (Expr.postOrder ⟨n, position⟩)) :
    Spoils Ty.Spoilt (synthNode ctx position n) (synthNode ctx' position n) := by
  have inside : Apart (Expr.inside n) := apart.left
  cases n with
  | sequence a b =>
    rw [synthNode, synthNode]
    apply Spoils.bind (synth_spoils h inside.left)
    intro _ _ first
    apply Spoils.bind (require_spoils h first (.constant .unit) a.position)
    intro _ _ _
    exact synth_spoils h inside.right
  | assign target value =>
    rw [synthNode, synthNode]
    apply Spoils.andThen (synth_spoils h inside.left)
    iterate 2
      · intro t
        split <;> infer_instance
    intro t u found
    have failed {y : Ty → Check Ty} [∀ v, Built (y v)] : Spoils Ty.Spoilt
        (synth ctx value >>= fun _ =>
          Check.report (.notAReference t) target.position >>= fun _ => pure .unit)
        (synth ctx' value >>= y) :=
      .bind (synth_spoils h inside.right) fun _ _ _ => .reported
    have open_ : Spoils Ty.Spoilt (synth ctx value >>= fun _ => pure .unit)
        (synth ctx' value >>= fun _ => pure .unit) :=
      .map (synth_spoils h inside.right) fun _ _ _ => .constant .unit
    cases found.shape with
    | ref referent =>
      exact .bind (synth_spoils h inside.right) fun _ _ stored =>
        requiring_spoils h stored referent value.position (.constant .unit)
    | error =>
      cases t with
      | ref referent =>
        exact .bind (synth_spoils h inside.right) fun _ _ _ =>
          requiring_lost (.answer (.constant .unit)) ctx _ referent value.position
      | never | unknown | error => exact open_
      | _ => exact failed
    | constant c => cases c with
      | never | unknown | error => exact open_
      | _ => exact failed
    | _ => exact failed
  | cond condition a b =>
    rw [synthNode, synthNode]
    apply Spoils.bind (synth_spoils h inside.left.left)
    intro _ _ truth
    apply Spoils.bind (require_spoils h truth (.constant .bool) condition.position)
    intro _ _ _
    apply Spoils.bind (synth_spoils h inside.left.right)
    intro _ _ first
    apply Spoils.bind (synth_spoils h inside.right)
    intro _ _ second
    exact join_spoils h first second b.position
  | letIn bs body =>
    exact .bind (synthBindings_spoils h.push inside.left) fun _ _ inner => synth_spoils inner inside.right
  | letRec bs body =>
    change Spoils Ty.Spoilt
      (declareRecursive ctx.push bs >>= fun r => expectBindings r.1 r.2 bs >>= fun _ => synth r.1 body)
      (declareRecursive ctx'.push bs >>= fun r => expectBindings r.1 r.2 bs >>= fun _ => synth r.1 body)
    apply Spoils.bind (declareRecursive_spoils h.push inside.left)
    intro _ _ inner
    apply Spoils.bind (expectBindings_spoils inner.1 inner.2 inside.left)
    intro _ _ _
    exact synth_spoils inner.1 inside.right
  | typeAbstraction zs body =>
    exact .map (synth_spoils (h.push.bindTypeVars zs) inside) fun _ _ found => found.forAll apart.last
  | binary op a b =>
    obtain ⟨operands, result⟩ := tidy_operandType op
    rw [synthNode, synthNode]
    generalize operandType? op = type at operands result ⊢
    obtain ⟨asked, type⟩ := type
    cases asked with
    | none =>
      apply Spoils.bind (synth_spoils h inside.left)
      intro _ _ first
      apply Spoils.bind (synth_spoils h inside.right)
      intro _ _ second
      exact .map (join_spoils h first second b.position) fun _ _ _ => .refl result
    | some operand =>
      have operand := operands operand rfl
      apply Spoils.bind (synth_spoils h inside.left)
      intro _ _ first
      apply Spoils.bind (require_spoils h first (.refl operand) a.position)
      intro _ _ _
      apply Spoils.bind (synth_spoils h inside.right)
      intro _ _ second
      exact requiring_spoils h second (.refl operand) b.position (.refl result)
  | ascribe e type =>
    rw [synthNode, synthNode]
    apply Spoils.bind (meaning_spoils h inside.right)
    rintro _ ascribed ⟨rfl, tidy⟩
    apply Spoils.bind (synth_spoils h inside.left)
    intro _ _ found
    exact requiring_spoils h found (.refl tidy) e.position (.refl tidy)
  | cast e type =>
    rw [synthNode, synthNode]
    dsimp only
    apply Spoils.bind (meaning_spoils h inside.right)
    rintro _ target ⟨rfl, tidy⟩
    apply Spoils.bind (synth_spoils h inside.left)
    intro t u found
    by_cases possible : t.castableTo target = true
    · rw [if_pos possible, if_pos (found.castableTo (.refl tidy) possible)]
      exact .answer (.refl tidy)
    · rw [if_neg possible]
      exact .reported
  | abstraction params body =>
    change Spoils Ty.Spoilt
      (bindParams ctx.push params >>= fun r => synth r.1 body >>= fun t => pure (.arrow r.2 t))
      (bindParams ctx'.push params >>= fun r => synth r.1 body >>= fun t => pure (.arrow r.2 t))
    apply Spoils.bind (bindParams_spoils h.push inside.left)
    intro _ _ inner
    exact .map (synth_spoils inner.1 inside.right) fun _ _ result =>
      Ty.Spoilt.arrow_iff.mpr ⟨inner.2, result⟩
  | variant l payload =>
    cases payload with
    | none => exact .answer (Ty.Spoilt.variant_iff.mpr (.cons ⟨rfl, .none⟩ .nil))
    | some e =>
      exact .map (synth_spoils h inside) fun _ _ carried =>
        Ty.Spoilt.variant_iff.mpr (.cons ⟨rfl, .some carried⟩ .nil)
  | matching e cases => exact absurd ⟨e, cases, rfl⟩ plain
  | list es =>
    exact .map (joinAll_spoils h (.constant .unknown) inside) fun _ _ element =>
      Ty.Spoilt.list_iff.mpr element
  | unary op e =>
    rw [synthNode, synthNode]
    exact .bind (synth_spoils h inside) fun _ _ operand => unaryType_spoils h position e.position op operand
  | application f args =>
    rw [synthNode, synthNode]
    apply Spoils.andThen (synth_spoils h inside.left)
    iterate 2
      · intro t
        split
        · dsimp only
          infer_instance
        · infer_instance
    intro t u found
    have failed : Spoils Ty.Spoilt
        (synthAll ctx args >>= fun _ => eliminate t .notAFunction f.position)
        (synthAll ctx' args >>= fun _ => eliminate u .notAFunction f.position) :=
      .bind (synthAll_spoils h inside.right) fun _ _ _ => eliminate_spoils found .notAFunction f.position
    cases found.shape with
    | arrow params result =>
      dsimp only
      rw [params.length_eq]
      split
      · exact .map (expectEach_spoils h params inside.right) fun _ _ _ => result
      · exact .bind (synthAll_spoils h inside.right) fun _ _ _ => .reported
    | error =>
      cases t with
      | arrow ps r =>
        obtain ⟨-, result⟩ := Ty.tidy_arrow.mp found.tidy
        dsimp only
        split
        · rename_i enough
          exact .bind (expectEach_lost h enough inside.right) fun _ _ _ => .answer (.error result)
        · exact .bind (synthAll_spoils h inside.right) fun _ _ _ => .reported
      | _ => exact failed
    | constant c => cases c <;> exact failed
    | _ => exact failed
  | typeApplication f types =>
    rw [synthNode, synthNode]
    apply Spoils.andThen (synth_spoils h inside.left)
    iterate 2
      · intro t
        refine .bind inferInstance fun args => ?_
        split <;> infer_instance
    intro t u found
    have failed : Spoils Ty.Spoilt (meanings ctx types >>= fun _ => eliminate t .notAGeneric f.position)
        (meanings ctx' types >>= fun _ => eliminate u .notAGeneric f.position) :=
      .bind (meanings_spoils h inside.right) fun _ _ _ => eliminate_spoils found .notAGeneric f.position
    cases found.shape with
    | forAll length =>
      apply Spoils.bind (meanings_spoils h inside.right)
      intro args args' all
      dsimp only
      rw [← length, ← all.length_eq]
      split
      · rename_i enough
        exact .answer (found.instantiate all enough)
      · exact .report
    | error =>
      cases t with
      | forAll zs body =>
        apply Spoils.bind (meanings_spoils h inside.right)
        intro args args' all
        obtain ⟨tidy, -⟩ := Ty.forall₂_spoilt.mp all
        dsimp only
        split
        · exact .answer (.error (Ty.tidy_instantiate (Ty.tidy_forAll.mp found.tidy).2 tidy))
        · exact .report
      | _ => exact failed
    | constant c => cases c <;> exact failed
    | _ => exact failed
  | field e l =>
    rw [synthNode, synthNode]
    apply Spoils.andThen (synth_spoils h inside)
    iterate 2
      · intro t
        repeat' split
        all_goals infer_instance
    intro t u found
    have failed := eliminate_spoils found .notARecord e.position
    cases found.shape with
    | @record fs gs fields =>
      have field := Ty.rel_lookup fields l
      dsimp only
      generalize fs.lookup l = known, gs.lookup l = known' at field ⊢
      cases field with
      | some spoilt => exact .answer spoilt
      | none => exact .report
    | error =>
      cases t with
      | record fs =>
        dsimp only
        cases known : fs.lookup l with
        | some t => exact .answer (.error (Ty.tidy_record.mp found.tidy l t (mem_of_lookup known)))
        | none => exact .report
      | _ => exact failed
    | constant c => cases c <;> exact failed
    | _ => exact failed
  | component e index =>
    rw [synthNode, synthNode]
    apply Spoils.andThen (synth_spoils h inside)
    iterate 2
      · intro t
        repeat' split
        all_goals infer_instance
    intro t u found
    have failed := eliminate_spoils found .notATuple e.position
    cases found.shape with
    | @tuple ts us elements =>
      cases index with
      | zero => exact .report
      | succ i =>
        have component := Ty.rel_getElem? elements i
        dsimp only
        generalize ts[i]? = known, us[i]? = known' at component ⊢
        cases component with
        | some spoilt => exact .answer spoilt
        | none => exact .report
    | error =>
      cases t with
      | tuple ts =>
        cases index with
        | zero => exact .report
        | succ i =>
          dsimp only
          cases known : ts[i]? with
          | some t => exact .answer (.error (Ty.tidy_tuple.mp found.tidy t (List.mem_of_getElem? known)))
          | none => exact .report
      | _ => exact failed
    | constant c => cases c <;> exact failed
    | _ => exact failed
  | tuple es => exact .map (synthAll_spoils h inside) fun _ _ elements => Ty.Spoilt.tuple_iff.mpr elements
  | record fs => exact .map (synthFields_spoils h inside) fun _ _ fields => Ty.Spoilt.record_iff.mpr fields
  | cons head tail =>
    rw [synthNode, synthNode]
    apply Spoils.bind (synth_spoils h inside.left)
    intro _ _ element
    apply Spoils.bind (synth_spoils h inside.right)
    intro _ _ rest
    have list := Ty.Spoilt.list_iff.mpr element
    exact requiring_spoils h rest list tail.position (list.merge rest)
  | panic => exact .answer (.constant .never)
  | tryCatch body p handler =>
    have handled {first first' : Ty} (joined : first.Spoilt first') (exception exception' : Ty)
        (raised : exception.Spoilt exception') : Spoils Ty.Spoilt
          (bindings ctx.push exception p >>= fun bound =>
            synth (ctx.push.bindAll bound) handler >>= fun second =>
            Check.join ctx first second handler.position)
          (bindings ctx'.push exception' p >>= fun bound =>
            synth (ctx'.push.bindAll bound) handler >>= fun second =>
            Check.join ctx' first' second handler.position) :=
      .bind (bindings_spoils h.push raised inside.left.right) fun _ _ bound =>
        .bind (synth_spoils (h.push.bindAll bound) inside.right) fun _ _ second =>
        join_spoils h joined second handler.position
    rw [synthNode, synthNode, h.exception?]
    cases known : ctx.exception? with
    | some t =>
      exact .bind (synth_spoils h inside.left.left) fun _ _ first =>
        handled first t t (.refl (h.exceptions t known))
    | none => exact .bind (synth_spoils h inside.left.left) fun _ _ _ => .reported
  | tryWith body fallback =>
    rw [synthNode, synthNode]
    apply Spoils.bind (synth_spoils h inside.left)
    intro _ _ first
    apply Spoils.bind (synth_spoils h inside.right)
    intro _ _ second
    exact join_spoils h first second fallback.position
  | tryCast e type p success failure =>
    rw [synthNode, synthNode]
    apply Spoils.bind (synth_spoils h inside.left.left.left.left)
    intro _ _ _
    apply Spoils.bind (meaning_spoils h inside.left.left.left.right)
    rintro _ target ⟨rfl, tidy⟩
    apply Spoils.bind (bindings_spoils h.push (.refl tidy) inside.left.left.right)
    intro _ _ bound
    apply Spoils.bind (synth_spoils (h.push.bindAll bound) inside.left.right)
    intro _ _ first
    apply Spoils.bind (synth_spoils h inside.right)
    intro _ _ second
    exact join_spoils h first second failure.position
  | natRec count initial step =>
    rw [synthNode, synthNode]
    apply Spoils.bind (synth_spoils h inside.left.left)
    intro _ _ number
    apply Spoils.bind (require_spoils h number (.constant .nat) count.position)
    intro _ _ _
    apply Spoils.bind (synth_spoils h inside.left.right)
    intro _ _ result
    apply Spoils.bind (synth_spoils h inside.right)
    intro _ _ found
    have stepping := Ty.Spoilt.arrow_iff.mpr ⟨.cons result .nil, result⟩
    have counting := Ty.Spoilt.arrow_iff.mpr ⟨.cons (.constant .nat) .nil, stepping⟩
    exact requiring_spoils h found counting step.position result
  | fold type e =>
    rw [synthNode, synthNode]
    apply Spoils.andThen (meaning_spoils h inside.left)
    iterate 2
      · intro target
        refine .bind inferInstance fun t => ?_
        split <;> infer_instance
    rintro _ target ⟨rfl, tidy⟩
    have answer : target.Spoilt target := .refl tidy
    cases target with
    | recursive x b =>
      exact .bind (synth_spoils h inside.right) fun _ _ found =>
        requiring_spoils h found (.refl (tidy_unfold tidy)) e.position answer
    | never | unknown | error => exact .map (synth_spoils h inside.right) fun _ _ _ => answer
    | _ => exact .bind (synth_spoils h inside.right) fun _ _ _ => .report
  | unfold type e =>
    rw [synthNode, synthNode]
    apply Spoils.andThen (meaning_spoils h inside.left)
    iterate 2
      · intro target
        refine .bind inferInstance fun t => ?_
        split <;> infer_instance
    rintro _ target ⟨rfl, tidy⟩
    have answer : target.Spoilt target := .refl tidy
    cases target with
    | recursive x b =>
      exact .bind (synth_spoils h inside.right) fun _ _ found =>
        requiring_spoils h found answer e.position (.refl (tidy_unfold tidy))
    | never | unknown | error => exact .map (synth_spoils h inside.right) fun _ _ _ => answer
    | _ => exact .bind (synth_spoils h inside.right) fun _ _ _ => .report
  | literal l => exact .answer (.refl (tidy_literalType l))
  | var v =>
    have found := h.vars v
    rw [synthNode, synthNode]
    generalize ctx.scope.lookup v = known, ctx'.scope.lookup v = known' at found ⊢
    cases found with
    | some spoilt => exact .answer spoilt
    | none => exact .report
termination_by structural n

theorem synthAll_spoils {ctx ctx' : Context} (h : ctx.Spoilt ctx') {es : List (Located Expr)}
    (apart : Apart (Expr.postOrderAll es)) :
    Spoils (List.Forall₂ Ty.Spoilt) (synthAll ctx es) (synthAll ctx' es) := by
  match es with
  | [] => exact .answer .nil
  | e :: es =>
    apply Spoils.bind (synth_spoils h apart.left)
    intro _ _ first
    exact .map (synthAll_spoils h apart.right) fun _ _ rest => .cons first rest
termination_by structural es

theorem synthFields_spoils {ctx ctx' : Context} (h : ctx.Spoilt ctx') {fs : List (String × Located Expr)}
    (apart : Apart (Expr.postOrderFields fs)) :
    Spoils (List.Forall₂ (Labelled Ty.Spoilt)) (synthFields ctx fs) (synthFields ctx' fs) := by
  match fs with
  | [] => exact .answer .nil
  | (l, e) :: fs =>
    apply Spoils.bind (synth_spoils h apart.left)
    intro _ _ first
    exact .map (synthFields_spoils h apart.right) fun _ _ rest => .cons ⟨rfl, first⟩ rest
termination_by structural fs

theorem expectEach_spoils {ctx ctx' : Context} (h : ctx.Spoilt ctx') {expected expected' : List Ty}
    (types : List.Forall₂ Ty.Spoilt expected expected') {es : List (Located Expr)}
    (apart : Apart (Expr.postOrderAll es)) :
    Spoils Eq (expectEach ctx expected es) (expectEach ctx' expected' es) := by
  match es, types with
  | [], _ => exact .answer rfl
  | _ :: _, .nil => exact .answer rfl
  | e :: es, .cons type types =>
    rw [expectEach, expectEach]
    apply Spoils.bind (synth_spoils h apart.left)
    intro _ _ found
    apply Spoils.bind (require_spoils h found type e.position)
    intro _ _ _
    exact expectEach_spoils h types apart.right
termination_by structural es

/-- The arguments of a function whose type is lost. -/
theorem expectEach_lost {ctx ctx' : Context} (h : ctx.Spoilt ctx') {expected : List Ty}
    {es : List (Located Expr)} (length : expected.length = es.length)
    (apart : Apart (Expr.postOrderAll es)) :
    Spoils (fun _ _ => True) (expectEach ctx expected es) (synthAll ctx' es) := by
  match es, expected with
  | [], _ => exact .answer trivial
  | e :: es, w :: ws =>
    have rest := expectEach_lost h (Nat.succ.inj length) apart.right
    rw [expectEach, synthAll]
    apply Spoils.bind (synth_spoils h apart.left)
    intro t u _
    have spoils : Spoils (fun _ _ => True) (expectEach ctx ws es >>= fun r => pure r)
        (synthAll ctx' es >>= fun us => pure (u :: us)) := .map rest fun _ _ _ => trivial
    rw [bind_pure] at spoils
    exact requiring_lost spoils ctx t w e.position
termination_by structural es

theorem joinAll_spoils {ctx ctx' : Context} (h : ctx.Spoilt ctx') {common common' : Ty}
    (before : common.Spoilt common') {es : List (Located Expr)} (apart : Apart (Expr.postOrderAll es)) :
    Spoils Ty.Spoilt (joinAll ctx common es) (joinAll ctx' common' es) := by
  match es with
  | [] => exact .answer before
  | e :: es =>
    rw [joinAll, joinAll]
    apply Spoils.bind (synth_spoils h apart.left)
    intro _ _ found
    apply Spoils.bind (join_spoils h before found e.position)
    intro _ _ common
    exact joinAll_spoils h common apart.right
termination_by structural es

theorem synthBindings_spoils {ctx ctx' : Context} (h : ctx.Spoilt ctx')
    {bs : List (Located Pattern × Located Expr)} (apart : Apart (Expr.postOrderBindings bs)) :
    Spoils Context.Spoilt (synthBindings ctx bs) (synthBindings ctx' bs) := by
  match bs with
  | [] => exact .answer h
  | (p, e) :: bs =>
    apply Spoils.bind (synth_spoils h apart.left.right)
    intro _ _ found
    apply Spoils.bind (bindings_spoils h found apart.left.left)
    intro _ _ bound
    exact synthBindings_spoils (h.bindAll bound) apart.right
termination_by structural bs

theorem expectBindings_spoils {ctx ctx' : Context} (h : ctx.Spoilt ctx') {expected expected' : List Ty}
    (types : List.Forall₂ Ty.Spoilt expected expected') {bs : List (Located Pattern × Located Expr)}
    (apart : Apart (Expr.postOrderBindings bs)) :
    Spoils Eq (expectBindings ctx expected bs) (expectBindings ctx' expected' bs) := by
  match bs, types with
  | [], _ => exact .answer rfl
  | _ :: _, .nil => exact .answer rfl
  | (p, e) :: bs, .cons type types =>
    rw [expectBindings, expectBindings]
    apply Spoils.bind (synth_spoils h apart.left.right)
    intro _ _ found
    apply Spoils.bind (require_spoils h found type e.position)
    intro _ _ _
    exact expectBindings_spoils h types apart.right
termination_by structural bs

theorem joinCases_spoils {ctx ctx' : Context} (h : ctx.Spoilt ctx') {t u common common' : Ty}
    (taken : t.Spoilt u) (before : common.Spoilt common')
    {cases : List (Located Pattern × Located Expr)} (apart : Apart (Expr.postOrderBindings cases)) :
    Spoils Ty.Spoilt (joinCases ctx t common cases) (joinCases ctx' u common' cases) := by
  match cases with
  | [] => exact .answer before
  | (p, e) :: cases =>
    rw [joinCases, joinCases]
    apply Spoils.bind (bindings_spoils h.push taken apart.left.left)
    intro _ _ bound
    apply Spoils.bind (synth_spoils (h.push.bindAll bound) apart.left.right)
    intro _ _ found
    apply Spoils.bind (join_spoils h before found e.position)
    intro _ _ common
    exact joinCases_spoils h taken common apart.right
termination_by structural cases

end

end Expressions

/-- Where an expression is accepted, and then the type of a variable is lost, an error is reported
exactly if a match is stuck there, and the first error reported is that of a match. Names that one
binder takes have to stay apart: else conforming types would not be the same up to names. -/
theorem lost_type_reported_iff_stuck (c : Checker) (scope : Scope) (x : String) (t : Ty) (e : Located Expr)
    (reached : c.progress.Reached) (tidy : (c.within (scope.bind x t)).Tidy)
    (apart : Apart (Expr.postOrder e)) (accepted : (c.synth (scope.bind x t) e).2.errors = c.errors) :
    let lost := (c.synth (scope.bind x .error) e).2
    ∃ es js, lost.errors = c.errors ++ es ∧ lost.progress.judgements = js ++ c.progress.judgements ∧
      (es = [] ↔ ∀ j ∈ js, ¬j.Stuck) ∧
      ∀ f ∈ es.head?, ∃ missing, f.fault = .nonExhaustiveMatch missing := by
  cases halted : c.progress.halted with
  | true =>
    have nothing : (c.synth (scope.bind x .error) e).2 = c := by
      obtain ⟨n, position⟩ := e
      change { c with progress := (synth _ ⟨n, position⟩ c.progress).2 } = c
      rw [synth, Check.guarded_apply, if_pos halted]
    refine ⟨[], [], ?_, ?_, by simp, by simp⟩
    · rw [nothing, List.append_nil]
    · rw [nothing, List.nil_append]
  | false =>
    have bound : ((c.within scope).bind x t).Tidy := tidy
    have spoils := synth_spoils bound.spoilt apart
    have quiet : Quiet (synth (c.within (scope.bind x t)) e) c.progress :=
      ⟨halted, reached.cacheSound, accepted⟩
    rcases spoils.outcome quiet halted rfl with clean | cut
    · obtain ⟨js, added, free⟩ := clean.judgements
      refine ⟨[], js, ?_, added, by simpa using free, by simp⟩
      rw [List.append_nil]
      exact clean.quiet.errors
    · obtain ⟨missing, position, es, more⟩ := cut.errors
      obtain ⟨js, added, j, member, stuck⟩ := cut.judgements
      refine ⟨⟨.nonExhaustiveMatch missing, position⟩ :: es, js, ?_, added, ?_, ?_⟩
      · rw [List.append_assoc] at more
        exact more.symm
      · constructor
        · intro absent
          cases absent
        · exact fun free => absurd stuck (free j member)
      · rintro f first
        obtain rfl := Option.some.inj first
        exact ⟨missing, rfl⟩

/-- `match {x, true} { {true, true} => 0 | {true, false} => 1 | {false, true} => 2 | {false, false} => 3 }`. -/
def pairMatch : Located Expr :=
  let case (first second : Bool) (n : Nat) : Located Pattern × Located Expr :=
    (⟨.tuple [⟨.bool first, none⟩, ⟨.bool second, none⟩], none⟩, ⟨.literal (.nat n), none⟩)
  ⟨.matching ⟨.tuple [⟨.var "x", none⟩, ⟨.literal (.bool true), none⟩], none⟩
    [case true true 0, case true false 1, case false true 2, case false false 3], none⟩

theorem pairMatch_lost_type :
    ((Checker.within {} (({} : Scope).bind "x" .bool)).Tidy ∧ Apart (Expr.postOrder pairMatch) ∧
      (Checker.synth {} (({} : Scope).bind "x" .bool) pairMatch).2.errors = []) ∧
    let lost := (Checker.synth {} (({} : Scope).bind "x" .error) pairMatch).2
    ∃ es js, lost.errors = [] ++ es ∧ lost.progress.judgements = js ++ [] ∧
      (es = [] ↔ ∀ j ∈ js, ¬j.Stuck) ∧
      ∀ f ∈ es.head?, ∃ missing, f.fault = .nonExhaustiveMatch missing := by
  have tidy : (Checker.within {} (({} : Scope).bind "x" .bool)).Tidy := by
    constructor
    · intro v t known
      change (({} : Scope).bind "x" .bool).lookup v = some t at known
      rw [Scope.lookup_bind] at known
      split at known
      · obtain rfl := Option.some.inj known
        decide
      · contradiction
    · intro _ _ known
      contradiction
    · intro _ known
      contradiction
  have apart : Apart (Expr.postOrder pairMatch) := by
    unfold Apart
    decide +kernel
  have accepted : (Checker.synth {} (({} : Scope).bind "x" .bool) pairMatch).2.errors = [] := by
    decide +kernel
  exact ⟨⟨tidy, apart, accepted⟩,
    lost_type_reported_iff_stuck {} ({} : Scope) "x" .bool pairMatch (.start {}) tidy apart accepted⟩

/-- A match can be stuck: here the cases leave nothing out, and yet a gap is reported once the first
component of the pair is an error. -/
theorem lost_type_reported :
    ¬∀ (c : Checker) (scope : Scope) (x : String) (t : Ty) (e : Located Expr),
      (c.synth (scope.bind x t) e).2.errors = c.errors →
        (c.synth (scope.bind x .error) e).2.errors = c.errors := by
  intro silent
  have accepted : (Checker.synth {} (({} : Scope).bind "x" .bool) pairMatch).2.errors = [] := by
    decide +kernel
  have reported : (Checker.synth {} (({} : Scope).bind "x" .error) pairMatch).2.errors ≠ [] := by
    decide +kernel
  exact reported (silent {} {} "x" .bool pairMatch accepted)

/-- Two binders do not stay apart if one has the name `'1`, which the checker itself gives to others. -/
example :
    let body : Located Expr := ⟨.tuple [
      ⟨.abstraction [("a", ⟨.var "p", none⟩)] ⟨.var "a", none⟩, none⟩,
      ⟨.typeApplication ⟨.var "x", none⟩ [⟨.var "'1", none⟩], none⟩], none⟩
    let twice (z : String) : Located TypeExpr := ⟨.arrow [⟨.var z, none⟩] ⟨.var z, none⟩, none⟩
    let e : Located Expr := ⟨.ascribe ⟨.typeAbstraction ["p", "'1"] body, none⟩
      ⟨.forAll ["q", "r"] ⟨.tuple [twice "q", twice "r"], none⟩, none⟩, none⟩
    let identity : Ty := .forAll ["Z"] (.arrow [.var "Z"] (.var "Z"))
    (Checker.synth {} (({} : Scope).bind "x" identity) e).2.errors = [] ∧
      (Checker.synth {} (({} : Scope).bind "x" .error) e).2.errors ≠ [] := by
  decide +kernel

end StellaLang.Typing
