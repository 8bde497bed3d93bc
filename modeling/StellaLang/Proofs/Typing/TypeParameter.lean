import StellaLang.Proofs.Coverage.Renaming
import StellaLang.Proofs.Typing.Quiet
import StellaLang.Proofs.Typing.Renaming
import StellaLang.Ty.Equality
import StellaLang.Typing.Checker

/-! Expressions under another name for a type parameter. What a generic expression means does not
depend on the name of its parameter, as long as no type around it has that name in it and
no generic expression inside takes the name again. -/
namespace StellaLang.Typing

open Syntax (Expr Node Pattern TypeExpr UnaryOp)
open Check (Paired)
open Ty (Labelled)

variable {x y : String} {old : List TypeError} {ctx ctx' : Context}

section Alternatives

variable {t u t' u' : Ty}

theorem related_renamed (h : ctx.Renamed x y ctx') (first : t.Renamed x y u) (second : t'.Renamed x y u') :
    Check.related ctx' u u' = Check.related ctx t t' := by
  rw [Check.related, Check.related, h.conforms first second, h.conforms second first]

theorem compatibleAlternatives_renamed (h : ctx.Renamed x y ctx')
    {fs fs' gs gs' : List (String × Option Ty)}
    (first : List.Forall₂ (Labelled (Option.Rel (Ty.Renamed x y))) fs fs')
    (second : List.Forall₂ (Labelled (Option.Rel (Ty.Renamed x y))) gs gs') :
    Check.compatibleAlternatives ctx' fs' gs' = Check.compatibleAlternatives ctx fs gs := by
  unfold Check.compatibleAlternatives
  induction first with
  | nil => rfl
  | @cons f f' fs fs' one _ ih =>
    obtain ⟨l, payload⟩ := f
    obtain ⟨m, payload'⟩ := f'
    obtain ⟨same, carried⟩ := one
    obtain rfl : l = m := same
    rw [List.all_cons, List.all_cons, ih]
    refine congrArg (· && _) ?_
    have shared := Ty.rel_lookup second l
    dsimp only
    generalize gs.lookup l = other, gs'.lookup l = other' at shared ⊢
    cases shared with
    | none => cases carried <;> rfl
    | some shared =>
      cases carried with
      | none => cases shared <;> rfl
      | some carried =>
        cases shared with
        | none => rfl
        | some shared => exact related_renamed h carried shared

theorem compatible_renamed (h : ctx.Renamed x y ctx') (first : t.Renamed x y u)
    (second : t'.Renamed x y u') :
    Check.compatible ctx' u u' = Check.compatible ctx t t' := by
  have whole := related_renamed h first second
  cases first.shape with
  | variant payloads =>
    cases second.shape with
    | variant payloads' => exact compatibleAlternatives_renamed h payloads payloads'
    | constant c => cases c <;> exact whole
    | _ => exact whole
  | constant c => cases c <;> exact whole
  | _ => exact whole

theorem join_paired (h : ctx.Renamed x y ctx') (first : t.Renamed x y u) (second : t'.Renamed x y u')
    (position : Option Position) :
    Paired x y old (Ty.Renamed x y) (Check.join ctx t t' position) (Check.join ctx' u u' position) := by
  unfold Check.join
  rw [compatible_renamed h first second]
  split
  · exact .answer (first.merge second)
  · exact .report (.mismatch first second) position

end Alternatives

section Operations

theorem eliminate_paired {t u : Ty} (related : t.Renamed x y u) {fault : Ty → Fault}
    (one : fault ∈ Fault.aboutOne)
    (position : Option Position) :
    Paired x y old (Ty.Renamed x y) (eliminate t fault position) (eliminate u fault position) := by
  unfold eliminate
  rw [related.isError, related.isWildcard]
  split
  · exact .answer (.constant .error)
  split
  · exact .answer (.constant .unknown)
  · exact .report (.one one related) position

theorem requiring_paired (h : ctx.Renamed x y ctx') {t u t' u' answer answer' : Ty}
    (first : t.Renamed x y u)
    (second : t'.Renamed x y u') (position : Option Position) (answers : answer.Renamed x y answer') :
    Paired x y old (Ty.Renamed x y) (Check.require ctx t t' position >>= fun _ => pure answer)
      (Check.require ctx' u u' position >>= fun _ => pure answer') :=
  .map (require_paired h first second position) fun _ _ _ => answers

theorem unaryType_paired (h : ctx.Renamed x y ctx') (operation operand : Option Position) (op : UnaryOp)
    {t u : Ty} (related : t.Renamed x y u) :
    Paired x y old (Ty.Renamed x y) (unaryType ctx operation operand op t)
      (unaryType ctx' operation operand op u) := by
  have notAReference : Fault.notAReference ∈ Fault.aboutOne := by simp [Fault.aboutOne]
  have notAList : Fault.notAList ∈ Fault.aboutOne := by simp [Fault.aboutOne]
  have notAFunction : Fault.notAFunction ∈ Fault.aboutOne := by simp [Fault.aboutOne]
  cases op with
  | ref => exact .answer (Ty.Renamed.ref_iff.mpr related)
  | inl => exact .answer (Ty.Renamed.sum_iff.mpr ⟨related, .constant .unknown⟩)
  | inr => exact .answer (Ty.Renamed.sum_iff.mpr ⟨.constant .unknown, related⟩)
  | succ => exact requiring_paired h related (.constant .nat) operand (.constant .nat)
  | pred => exact requiring_paired h related (.constant .nat) operand (.constant .nat)
  | isZero => exact requiring_paired h related (.constant .nat) operand (.constant .bool)
  | not => exact requiring_paired h related (.constant .bool) operand (.constant .bool)
  | deref =>
    cases related.shape with
    | ref referent => exact .answer referent
    | constant c => cases c <;> exact eliminate_paired related notAReference operand
    | _ => exact eliminate_paired related notAReference operand
  | head =>
    cases related.shape with
    | list element => exact .answer element
    | constant c => cases c <;> exact eliminate_paired related notAList operand
    | _ => exact eliminate_paired related notAList operand
  | tail =>
    cases related.shape with
    | list => exact .answer related
    | constant c => cases c <;> exact eliminate_paired related notAList operand
    | _ => exact eliminate_paired related notAList operand
  | isEmpty =>
    have asked : Paired x y old (Ty.Renamed x y) (eliminate t .notAList operand >>= fun _ => pure .bool)
        (eliminate u .notAList operand >>= fun _ => pure .bool) :=
      .map (eliminate_paired related notAList operand) fun _ _ _ => .constant .bool
    cases related.shape with
    | list => exact .answer (.constant .bool)
    | constant c => cases c <;> exact asked
    | _ => exact asked
  | fix =>
    cases related.shape with
    | arrow params result =>
      cases params with
      | nil => exact eliminate_paired related notAFunction operand
      | cons param rest =>
        cases rest with
        | cons => exact eliminate_paired related notAFunction operand
        | nil =>
          unfold unaryType
          dsimp only
          rw [h.conforms result param]
          split
          · exact .answer (param.merge result)
          · have expected := Ty.Renamed.arrow_iff.mpr ⟨.cons param .nil, param⟩
            exact .report (.mismatch expected related) operand
    | constant c => cases c <;> exact eliminate_paired related notAFunction operand
    | _ => exact eliminate_paired related notAFunction operand
  | throw =>
    rw [unaryType, unaryType, h.exception?]
    cases known : ctx.exception? with
    | some exception =>
      exact requiring_paired h related (h.exceptions exception known) operand (.constant .never)
    | none => exact .map (.report (.plain rfl) operation) fun _ _ _ => .constant .never

theorem literalType_renamed (l : Syntax.Literal) : (literalType l).Renamed x y (literalType l) := by
  cases l with
  | bool => exact .constant .bool
  | unit => exact .constant .unit
  | nat => exact .constant .nat
  | address => exact Ty.Renamed.ref_iff.mpr (.constant .unknown)

/-- Operators ask for types without names, and have such types. -/
theorem operandType_renamed (op : Syntax.BinaryOp) :
    (∀ t, (operandType? op).1 = some t → t.Renamed x y t) ∧
      (operandType? op).2.Renamed x y (operandType? op).2 := by
  have number : Ty.Renamed x y .nat .nat := .constant .nat
  have truth : Ty.Renamed x y .bool .bool := .constant .bool
  cases op <;> simp [operandType?, number, truth]

end Operations

section Expressions

/-- The context and the types on both sides. -/
def Declared (x y : String) (a b : Context × List Ty) : Prop :=
  a.1.Renamed x y b.1 ∧ List.Forall₂ (Ty.Renamed x y) a.2 b.2

theorem declareRecursive_paired (h : ctx.Renamed x y ctx') {bs : List (Located Pattern × Located Expr)}
    (renamable : Renamable x y (Expr.postOrderBindings bs)) :
    Paired x y old (Declared x y) (declareRecursive ctx bs)
      (declareRecursive ctx' (Expr.renameBindings x y bs)) := by
  induction bs generalizing ctx ctx' with
  | nil => exact .answer ⟨h, .nil⟩
  | cons b bs ih =>
    obtain ⟨⟨p, position⟩, e⟩ := b
    have failed : Paired x y old (Declared x y)
        (Check.report .ambiguousType position >>= fun t =>
          declareRecursive ctx bs >>= fun r => pure (r.1, t :: r.2))
        (Check.report .ambiguousType position >>= fun t =>
          declareRecursive ctx' (Expr.renameBindings x y bs) >>= fun r => pure (r.1, t :: r.2)) :=
      .bind (.report (.plain rfl) position) fun _ _ first =>
        .map (ih h renamable.right) fun _ _ rest => ⟨rest.1, .cons first rest.2⟩
    cases p with
    | ascribed p type =>
      have renamable' := renamable.left.left.left
      apply Paired.bind (meaning_paired h renamable'.right)
      intro _ _ first
      apply Paired.bind (bindings_paired h first renamable'.left)
      intro _ _ bound
      exact .map (ih (h.bindAll bound) renamable.right) fun _ _ rest => ⟨rest.1, .cons first rest.2⟩
    | variant l payload => cases payload <;> exact failed
    | _ => exact failed

theorem bindParams_paired (h : ctx.Renamed x y ctx') {params : List (String × Located TypeExpr)}
    (renamable : Renamable x y (TypeExpr.postOrderFields params)) :
    Paired x y old (Declared x y) (bindParams ctx params)
      (bindParams ctx' (TypeExpr.renameFields x y params)) := by
  induction params generalizing ctx ctx' with
  | nil => exact .answer ⟨h, .nil⟩
  | cons param params ih =>
    obtain ⟨v, type⟩ := param
    apply Paired.bind (meaning_paired h renamable.left)
    intro _ _ first
    exact .map (ih (h.bind v first) renamable.right) fun _ _ rest => ⟨rest.1, .cons first rest.2⟩

theorem isEmpty_renameBindings (bs : List (Located Pattern × Located Expr)) :
    (Expr.renameBindings x y bs).isEmpty = bs.isEmpty := by
  cases bs <;> rfl

theorem patterns_renameBindings (bs : List (Located Pattern × Located Expr)) :
    (Expr.renameBindings x y bs).map (·.1) = (bs.map (·.1)).map (Pattern.rename x y) := by
  induction bs with
  | nil => rfl
  | cons b bs ih => rw [Expr.renameBindings, List.map_cons, List.map_cons, List.map_cons, ih]

theorem length_renameAll (es : List (Located Expr)) : (Expr.renameAll x y es).length = es.length := by
  induction es with
  | nil => rfl
  | cons e es ih => rw [Expr.renameAll, List.length_cons, List.length_cons, ih]

mutual

/-- Both sides find one type and one list of errors, but for the name. -/
theorem synth_paired {ctx ctx' : Context} (h : ctx.Renamed x y ctx') {e : Located Expr}
    (renamable : Renamable x y (Expr.postOrder e)) :
    Paired x y old (Ty.Renamed x y) (synth ctx e) (synth ctx' (Expr.rename x y e)) := by
  obtain ⟨e, position⟩ := e
  exact .guarded (.constant .error) (.bind (synthNode_paired h position renamable) fun _ _ found =>
    .bind (.judge _ _ _ _ _ _) fun _ _ _ => .answer found)
termination_by structural e

theorem synthNode_paired {ctx ctx' : Context} (h : ctx.Renamed x y ctx') (position : Option Position)
    {e : Expr} (renamable : Renamable x y (Expr.postOrder ⟨e, position⟩)) :
    Paired x y old (Ty.Renamed x y) (synthNode ctx position e)
      (synthNode ctx' position (Expr.renameNode x y e)) := by
  have inside : Renamable x y (Expr.inside e) := renamable.left
  cases e with
  | sequence a b =>
    rw [Expr.renameNode, synthNode, synthNode, Syntax.Expr.position_rename]
    apply Paired.bind (synth_paired h inside.left)
    intro _ _ first
    apply Paired.bind (require_paired h first (.constant .unit) a.position)
    intro _ _ _
    exact synth_paired h inside.right
  | assign target value =>
    rw [Expr.renameNode, synthNode, synthNode, Syntax.Expr.position_rename, Syntax.Expr.position_rename]
    apply Paired.bind (synth_paired h inside.left)
    intro t u found
    have notAReference : (Fault.notAReference t).Renamed x y (.notAReference u) :=
      .one (by simp [Fault.aboutOne]) found
    have failed : Paired x y old (Ty.Renamed x y)
        (synth ctx value >>= fun _ =>
          Check.report (.notAReference t) target.position >>= fun _ => pure .unit)
        (synth ctx' (Expr.rename x y value) >>= fun _ =>
          Check.report (.notAReference u) target.position >>= fun _ => pure .unit) :=
      .bind (synth_paired h inside.right) fun _ _ _ =>
        .map (.report notAReference target.position) fun _ _ _ => .constant .unit
    cases found.shape with
    | ref referent =>
      exact .bind (synth_paired h inside.right) fun _ _ stored =>
        requiring_paired h stored referent value.position (.constant .unit)
    | constant c => cases c with
      | never | unknown | error => exact .map (synth_paired h inside.right) fun _ _ _ => .constant .unit
      | _ => exact failed
    | _ => exact failed
  | cond condition a b =>
    rw [Expr.renameNode, synthNode, synthNode, Syntax.Expr.position_rename, Syntax.Expr.position_rename]
    apply Paired.bind (synth_paired h inside.left.left)
    intro _ _ truth
    apply Paired.bind (require_paired h truth (.constant .bool) condition.position)
    intro _ _ _
    apply Paired.bind (synth_paired h inside.left.right)
    intro _ _ first
    apply Paired.bind (synth_paired h inside.right)
    intro _ _ second
    exact join_paired h first second b.position
  | letIn bs body =>
    exact .bind (synthBindings_paired h.push inside.left) fun _ _ inner => synth_paired inner inside.right
  | letRec bs body =>
    apply Paired.bind (declareRecursive_paired h.push inside.left)
    intro _ _ inner
    apply Paired.bind (expectBindings_paired inner.1 inner.2 inside.left)
    intro _ _ _
    exact synth_paired inner.1 inside.right
  | typeAbstraction zs body =>
    obtain ⟨unused, outermost, separate⟩ : y ∉ zs ∧ x ∉ zs ∧ Ty.Separate zs := renamable.last
    -- Were `x` among `zs`, variables of type `x` would be captured on one side and not on the other.
    rw [Expr.renameNode, if_neg outermost]
    exact .map (synth_paired (h.push.bindTypeVars zs) inside) fun _ _ found =>
      found.forAll separate outermost unused
  | binary op a b =>
    obtain ⟨operands, result⟩ := operandType_renamed (x := x) (y := y) op
    rw [Expr.renameNode, synthNode, synthNode, Syntax.Expr.position_rename, Syntax.Expr.position_rename]
    apply Paired.bind (synth_paired h inside.left)
    intro _ _ first
    generalize operandType? op = type at operands result ⊢
    obtain ⟨asked, type⟩ := type
    cases asked with
    | none =>
      apply Paired.bind (synth_paired h inside.right)
      intro _ _ second
      exact .map (join_paired h first second b.position) fun _ _ _ => result
    | some operand =>
      have operand := operands operand rfl
      apply Paired.bind (require_paired h first operand a.position)
      intro _ _ _
      apply Paired.bind (synth_paired h inside.right)
      intro _ _ second
      exact requiring_paired h second operand b.position result
  | ascribe e type =>
    rw [Expr.renameNode, synthNode, synthNode, Syntax.Expr.position_rename]
    apply Paired.bind (meaning_paired h inside.right)
    intro _ _ ascribed
    apply Paired.bind (synth_paired h inside.left)
    intro _ _ found
    exact requiring_paired h found ascribed e.position ascribed
  | cast e type =>
    apply Paired.bind (meaning_paired h inside.right)
    intro _ _ target
    apply Paired.bind (synth_paired h inside.left)
    intro _ _ found
    dsimp only
    rw [found.castableTo target]
    split
    · exact .answer target
    · exact .map (.report (.illegalCast found target) position) fun _ _ _ => target
  | abstraction params body =>
    apply Paired.bind (bindParams_paired h.push inside.left)
    intro _ _ inner
    exact .map (synth_paired inner.1 inside.right) fun _ _ result =>
      Ty.Renamed.arrow_iff.mpr ⟨inner.2, result⟩
  | variant l payload =>
    cases payload with
    | none => exact .answer (Ty.Renamed.variant_iff.mpr (.cons ⟨rfl, .none⟩ .nil))
    | some e =>
      exact .map (synth_paired h inside) fun _ _ carried =>
        Ty.Renamed.variant_iff.mpr (.cons ⟨rfl, .some carried⟩ .nil)
  | matching e cases =>
    rw [Expr.renameNode, synthNode, synthNode, isEmpty_renameBindings]
    apply Paired.bind (synth_paired h inside.left)
    intro _ _ taken
    dsimp only
    rw [patterns_renameBindings, Coverage.missing_rename taken]
    split
    · exact .report (.plain rfl) position
    · refine .bind (joinCases_paired h taken (.constant .unknown) inside.right) fun _ _ result => ?_
      split
      · exact .answer result
      · exact .map (.report (.plain rfl) position) fun _ _ _ => result
  | list es =>
    exact .map (joinAll_paired h (.constant .unknown) inside) fun _ _ element =>
      Ty.Renamed.list_iff.mpr element
  | unary op e =>
    rw [Expr.renameNode, synthNode, synthNode, Syntax.Expr.position_rename]
    exact .bind (synth_paired h inside) fun _ _ operand => unaryType_paired h position e.position op operand
  | application f args =>
    rw [Expr.renameNode, synthNode, synthNode, Syntax.Expr.position_rename, length_renameAll]
    apply Paired.bind (synth_paired h inside.left)
    intro t u found
    have failed : Paired x y old (Ty.Renamed x y)
        (synthAll ctx args >>= fun _ => eliminate t .notAFunction f.position)
        (synthAll ctx' (Expr.renameAll x y args) >>= fun _ => eliminate u .notAFunction f.position) :=
      .bind (synthAll_paired h inside.right) fun _ _ _ =>
        eliminate_paired found (by simp [Fault.aboutOne]) f.position
    cases found.shape with
    | arrow params result =>
      dsimp only
      rw [params.length_eq]
      split
      · exact .map (expectEach_paired h params inside.right) fun _ _ _ => result
      · exact .bind (synthAll_paired h inside.right) fun _ _ _ =>
          .map (.report (.plain rfl) f.position) fun _ _ _ => result
    | constant c => cases c <;> exact failed
    | _ => exact failed
  | typeApplication f types =>
    rw [Expr.renameNode, synthNode, synthNode, Syntax.Expr.position_rename]
    apply Paired.bind (synth_paired h inside.left)
    intro t u found
    apply Paired.bind (meanings_paired h inside.right)
    intro args args' all
    have failed : Paired x y old (Ty.Renamed x y) (eliminate t .notAGeneric f.position)
        (eliminate u .notAGeneric f.position) :=
      eliminate_paired found (by simp [Fault.aboutOne]) f.position
    cases found.shape with
    | forAll length =>
      dsimp only
      rw [← length, ← all.length_eq]
      split
      · rename_i enough
        exact .answer (found.instantiate all enough)
      · exact .report (.plain rfl) f.position
    | constant c => cases c <;> exact failed
    | _ => exact failed
  | field e l =>
    rw [Expr.renameNode, synthNode, synthNode, Syntax.Expr.position_rename]
    apply Paired.bind (synth_paired h inside)
    intro t u found
    have failed : Paired x y old (Ty.Renamed x y) (eliminate t .notARecord e.position)
        (eliminate u .notARecord e.position) :=
      eliminate_paired found (by simp [Fault.aboutOne]) e.position
    cases found.shape with
    | @record fs gs fields =>
      have field := Ty.rel_lookup fields l
      dsimp only
      generalize fs.lookup l = known, gs.lookup l = known' at field ⊢
      cases field with
      | some related => exact .answer related
      | none => exact .report (.missingRecordField l found) position
    | constant c => cases c <;> exact failed
    | _ => exact failed
  | component e index =>
    rw [Expr.renameNode, synthNode, synthNode, Syntax.Expr.position_rename]
    apply Paired.bind (synth_paired h inside)
    intro t u found
    have failed : Paired x y old (Ty.Renamed x y) (eliminate t .notATuple e.position)
        (eliminate u .notATuple e.position) :=
      eliminate_paired found (by simp [Fault.aboutOne]) e.position
    cases found.shape with
    | @tuple ts us elements =>
      dsimp only
      rw [← elements.length_eq]
      cases index with
      | zero => exact .report (.plain rfl) position
      | succ i =>
        have component := Ty.rel_getElem? elements i
        dsimp only
        generalize ts[i]? = known, us[i]? = known' at component ⊢
        cases component with
        | some related => exact .answer related
        | none => exact .report (.plain rfl) position
    | constant c => cases c <;> exact failed
    | _ => exact failed
  | tuple es => exact .map (synthAll_paired h inside) fun _ _ elements => Ty.Renamed.tuple_iff.mpr elements
  | record fs => exact .map (synthFields_paired h inside) fun _ _ fields => Ty.Renamed.record_iff.mpr fields
  | cons head tail =>
    rw [Expr.renameNode, synthNode, synthNode, Syntax.Expr.position_rename]
    apply Paired.bind (synth_paired h inside.left)
    intro _ _ element
    apply Paired.bind (synth_paired h inside.right)
    intro _ _ rest
    have list := Ty.Renamed.list_iff.mpr element
    exact requiring_paired h rest list tail.position (list.merge rest)
  | panic => exact .answer (.constant .never)
  | tryCatch body p handler =>
    rw [Expr.renameNode, synthNode, synthNode, Syntax.Expr.position_rename, h.exception?]
    apply Paired.bind (synth_paired h inside.left.left)
    intro first first' joined
    have handled (exception exception' : Ty) (raised : exception.Renamed x y exception') :
        Paired x y old (Ty.Renamed x y)
          (bindings ctx.push exception p >>= fun bound =>
            synth (ctx.push.bindAll bound) handler >>= fun second =>
            Check.join ctx first second handler.position)
          (bindings ctx'.push exception' (Pattern.rename x y p) >>= fun bound =>
            synth (ctx'.push.bindAll bound) (Expr.rename x y handler) >>= fun second =>
            Check.join ctx' first' second handler.position) :=
      .bind (bindings_paired h.push raised inside.left.right) fun _ _ bound =>
        .bind (synth_paired (h.push.bindAll bound) inside.right) fun _ _ second =>
        join_paired h joined second handler.position
    cases known : ctx.exception? with
    | some t => exact handled t t (h.exceptions t known)
    | none => exact .bind (.report (.plain rfl) position) handled
  | tryWith body fallback =>
    rw [Expr.renameNode, synthNode, synthNode, Syntax.Expr.position_rename]
    apply Paired.bind (synth_paired h inside.left)
    intro _ _ first
    apply Paired.bind (synth_paired h inside.right)
    intro _ _ second
    exact join_paired h first second fallback.position
  | tryCast e type p success failure =>
    rw [Expr.renameNode, synthNode, synthNode, Syntax.Expr.position_rename]
    apply Paired.bind (synth_paired h inside.left.left.left.left)
    intro _ _ _
    apply Paired.bind (meaning_paired h inside.left.left.left.right)
    intro _ _ target
    apply Paired.bind (bindings_paired h.push target inside.left.left.right)
    intro _ _ bound
    apply Paired.bind (synth_paired (h.push.bindAll bound) inside.left.right)
    intro _ _ first
    apply Paired.bind (synth_paired h inside.right)
    intro _ _ second
    exact join_paired h first second failure.position
  | natRec count initial step =>
    rw [Expr.renameNode, synthNode, synthNode, Syntax.Expr.position_rename, Syntax.Expr.position_rename]
    apply Paired.bind (synth_paired h inside.left.left)
    intro _ _ number
    apply Paired.bind (require_paired h number (.constant .nat) count.position)
    intro _ _ _
    apply Paired.bind (synth_paired h inside.left.right)
    intro _ _ result
    apply Paired.bind (synth_paired h inside.right)
    intro _ _ found
    have stepping := Ty.Renamed.arrow_iff.mpr ⟨.cons result .nil, result⟩
    have counting := Ty.Renamed.arrow_iff.mpr ⟨.cons (.constant .nat) .nil, stepping⟩
    exact requiring_paired h found counting step.position result
  | fold type e =>
    rw [Expr.renameNode, synthNode, synthNode, Syntax.Expr.position_rename]
    apply Paired.bind (meaning_paired h inside.left)
    intro t u target
    apply Paired.bind (synth_paired h inside.right)
    intro _ _ found
    have failed : Paired x y old (Ty.Renamed x y) (Check.report (.notARecursiveType t) position)
        (Check.report (.notARecursiveType u) position) :=
      .report (.one (by simp [Fault.aboutOne]) target) position
    cases target.shape with
    | recursive => exact requiring_paired h found target.unfold e.position target
    | constant c => cases c with
      | never | unknown | error => exact .answer target
      | _ => exact failed
    | _ => exact failed
  | unfold type e =>
    rw [Expr.renameNode, synthNode, synthNode, Syntax.Expr.position_rename]
    apply Paired.bind (meaning_paired h inside.left)
    intro t u target
    apply Paired.bind (synth_paired h inside.right)
    intro _ _ found
    have failed : Paired x y old (Ty.Renamed x y) (Check.report (.notARecursiveType t) position)
        (Check.report (.notARecursiveType u) position) :=
      .report (.one (by simp [Fault.aboutOne]) target) position
    cases target.shape with
    | recursive => exact requiring_paired h found target e.position target.unfold
    | constant c => cases c with
      | never | unknown | error => exact .answer target
      | _ => exact failed
    | _ => exact failed
  | literal l => exact .answer (literalType_renamed l)
  | var v =>
    have found := h.vars v
    rw [Expr.renameNode, synthNode, synthNode]
    generalize ctx.scope.lookup v = known, ctx'.scope.lookup v = known' at found ⊢
    cases found with
    | some related => exact .answer related
    | none => exact .report (.plain rfl) position
termination_by structural e

theorem synthAll_paired {ctx ctx' : Context} (h : ctx.Renamed x y ctx') {es : List (Located Expr)}
    (renamable : Renamable x y (Expr.postOrderAll es)) :
    Paired x y old (List.Forall₂ (Ty.Renamed x y)) (synthAll ctx es)
      (synthAll ctx' (Expr.renameAll x y es)) := by
  match es with
  | [] => exact .answer .nil
  | e :: es =>
    apply Paired.bind (synth_paired h renamable.left)
    intro _ _ first
    exact .map (synthAll_paired h renamable.right) fun _ _ rest => .cons first rest
termination_by structural es

theorem synthFields_paired {ctx ctx' : Context} (h : ctx.Renamed x y ctx')
    {fs : List (String × Located Expr)}
    (renamable : Renamable x y (Expr.postOrderFields fs)) :
    Paired x y old (List.Forall₂ (Labelled (Ty.Renamed x y))) (synthFields ctx fs)
      (synthFields ctx' (Expr.renameFields x y fs)) := by
  match fs with
  | [] => exact .answer .nil
  | (l, e) :: fs =>
    apply Paired.bind (synth_paired h renamable.left)
    intro _ _ first
    exact .map (synthFields_paired h renamable.right) fun _ _ rest => .cons ⟨rfl, first⟩ rest
termination_by structural fs

theorem expectEach_paired {ctx ctx' : Context} (h : ctx.Renamed x y ctx') {expected expected' : List Ty}
    (types : List.Forall₂ (Ty.Renamed x y) expected expected') {es : List (Located Expr)}
    (renamable : Renamable x y (Expr.postOrderAll es)) :
    Paired x y old Eq (expectEach ctx expected es) (expectEach ctx' expected' (Expr.renameAll x y es)) := by
  match es, types with
  | [], _ => exact .answer rfl
  | _ :: _, .nil => exact .answer rfl
  | e :: es, .cons type types =>
    rw [Expr.renameAll, expectEach, expectEach, Syntax.Expr.position_rename]
    apply Paired.bind (synth_paired h renamable.left)
    intro _ _ found
    apply Paired.bind (require_paired h found type e.position)
    intro _ _ _
    exact expectEach_paired h types renamable.right
termination_by structural es

theorem joinAll_paired {ctx ctx' : Context} (h : ctx.Renamed x y ctx') {common common' : Ty}
    (before : common.Renamed x y common')
    {es : List (Located Expr)} (renamable : Renamable x y (Expr.postOrderAll es)) :
    Paired x y old (Ty.Renamed x y) (joinAll ctx common es)
      (joinAll ctx' common' (Expr.renameAll x y es)) := by
  match es with
  | [] => exact .answer before
  | e :: es =>
    rw [Expr.renameAll, joinAll, joinAll, Syntax.Expr.position_rename]
    apply Paired.bind (synth_paired h renamable.left)
    intro _ _ found
    apply Paired.bind (join_paired h before found e.position)
    intro _ _ common
    exact joinAll_paired h common renamable.right
termination_by structural es

theorem synthBindings_paired {ctx ctx' : Context} (h : ctx.Renamed x y ctx')
    {bs : List (Located Pattern × Located Expr)}
    (renamable : Renamable x y (Expr.postOrderBindings bs)) :
    Paired x y old (Context.Renamed x y) (synthBindings ctx bs)
      (synthBindings ctx' (Expr.renameBindings x y bs)) := by
  match bs with
  | [] => exact .answer h
  | (p, e) :: bs =>
    apply Paired.bind (synth_paired h renamable.left.right)
    intro _ _ found
    apply Paired.bind (bindings_paired h found renamable.left.left)
    intro _ _ bound
    exact synthBindings_paired (h.bindAll bound) renamable.right
termination_by structural bs

theorem expectBindings_paired {ctx ctx' : Context} (h : ctx.Renamed x y ctx') {expected expected' : List Ty}
    (types : List.Forall₂ (Ty.Renamed x y) expected expected') {bs : List (Located Pattern × Located Expr)}
    (renamable : Renamable x y (Expr.postOrderBindings bs)) :
    Paired x y old Eq (expectBindings ctx expected bs)
      (expectBindings ctx' expected' (Expr.renameBindings x y bs)) := by
  match bs, types with
  | [], _ => exact .answer rfl
  | _ :: _, .nil => exact .answer rfl
  | (p, e) :: bs, .cons type types =>
    rw [Expr.renameBindings, expectBindings, expectBindings, Syntax.Expr.position_rename]
    apply Paired.bind (synth_paired h renamable.left.right)
    intro _ _ found
    apply Paired.bind (require_paired h found type e.position)
    intro _ _ _
    exact expectBindings_paired h types renamable.right
termination_by structural bs

theorem joinCases_paired {ctx ctx' : Context} (h : ctx.Renamed x y ctx')
    {scrutinee scrutinee' common common' : Ty}
    (taken : scrutinee.Renamed x y scrutinee') (before : common.Renamed x y common')
    {cases : List (Located Pattern × Located Expr)}
    (renamable : Renamable x y (Expr.postOrderBindings cases)) :
    Paired x y old (Ty.Renamed x y) (joinCases ctx scrutinee common cases)
      (joinCases ctx' scrutinee' common' (Expr.renameBindings x y cases)) := by
  match cases with
  | [] => exact .answer before
  | (p, e) :: cases =>
    rw [Expr.renameBindings, joinCases, joinCases, Syntax.Expr.position_rename]
    apply Paired.bind (bindings_paired h.push taken renamable.left.left)
    intro _ _ bound
    apply Paired.bind (synth_paired (h.push.bindAll bound) renamable.left.right)
    intro _ _ found
    apply Paired.bind (join_paired h before found e.position)
    intro _ _ common
    exact joinCases_paired h taken common renamable.right
termination_by structural cases

end

end Expressions

/-- That each type a name stands for is tidy and does not mention the type parameter `x`. -/
structure Context.Spares (x : String) (ctx : Context) : Prop where
  vars : ∀ v t, ctx.scope.lookup v = some t → t.Spares x
  aliases : ∀ z t, ctx.aliases.lookup z = some t → t.Spares x
  exceptions : ∀ t, ctx.exception? = some t → t.Spares x

/-- Inside a generic expression the contexts differ in the name of its parameter only. -/
theorem Context.Spares.inside (spares : ctx.Spares x) (spares' : ctx.Spares y) :
    (ctx.push.bindTypeVars [x]).Renamed x y (ctx.push.bindTypeVars [y]) := by
  constructor
  · rfl
  · exact fun z t known => ⟨spares.aliases z t known, spares'.aliases z t known⟩
  · exact fun t known => .of_spares (spares.exceptions t known) (spares'.exceptions t known)
  · intro v
    rw [Context.bindTypeVars, Context.bindTypeVars, Scope.lookup_bindTypeVars, Scope.lookup_bindTypeVars]
    change Option.Rel _ (ctx.scope.lookup v) (ctx.scope.lookup v)
    cases known : ctx.scope.lookup v with
    | none => exact .none
    | some t => exact .some (.of_spares (spares.vars v t known) (spares'.vars v t known))
  · intro z other other'
    rw [Context.bindTypeVars, Context.bindTypeVars, Scope.hasTypeVar_bindTypeVars,
      Scope.hasTypeVar_bindTypeVars]
    simp [other, other']
  · rw [Context.bindTypeVars, Scope.hasTypeVar_bindTypeVars]
    simp
  · rw [Context.bindTypeVars, Scope.hasTypeVar_bindTypeVars]
    simp

/-- A generic expression has one type, and one list of errors but for the name, whatever its parameter
is called. The types around it may not mention either name, and no generic expression inside
may take the first name again: a variable of such a type would be captured. -/
theorem generic_renamed (c : Checker) (scope : Scope) {x y : String} (e : Located Expr)
    (position : Option Position) (reached : c.progress.Reached) (other : x ≠ y)
    (spares : (c.within scope).Spares x) (spares' : (c.within scope).Spares y)
    (renamable : Renamable x y (Expr.postOrder e)) :
    let original := c.synth scope ⟨.typeAbstraction [x] e, position⟩
    let renamed := c.synth scope ⟨.typeAbstraction [y] (Expr.rename x y e), position⟩
    renamed.1.form = original.1.form ∧
      ∃ es fs, original.2.errors = c.errors ++ es ∧ renamed.2.errors = c.errors ++ fs ∧
        List.Forall₂ (TypeError.Renamed x y) es fs := by
  have body : Paired x y c.progress.errors (Ty.Renamed x y) _ _ :=
    synth_paired (spares.inside spares') renamable
  -- The bodies differ in the name that is bound now, so their closures have one form.
  have whole : Paired x y c.progress.errors (fun t u => u.form = t.form)
      (synth (c.within scope) ⟨.typeAbstraction [x] e, position⟩)
      (synth (c.within scope) ⟨.typeAbstraction [y] (Expr.rename x y e), position⟩) :=
    .guarded rfl (.bind (.map body fun _ _ related => related.form_forAll other) fun _ _ same =>
      .bind (.judge _ _ _ _ _ _) fun _ _ _ => .answer same)
  obtain ⟨types, states⟩ := whole c.progress c.progress (.start reached.cacheSound)
  exact ⟨types, states.errors⟩

/-- `fn(v : X) {return succ(v)}`, which is at fault whatever `X` is. -/
def increment : Located Expr :=
  ⟨.abstraction [("v", ⟨.var "X", none⟩)] ⟨.unary .succ ⟨.var "v", none⟩, none⟩, none⟩

/-- A scope of one type variable and one variable. -/
def small (z v : String) (t : Ty) : Scope :=
  (({} : Scope).bindTypeVar z).bind v t

theorem small_spares (z v : String) {t : Ty} (spares : t.Spares y) :
    (Checker.within {} (small z v t)).Spares y := by
  constructor
  · intro w u known
    change (small z v t).lookup w = some u at known
    rw [small, Scope.lookup_bind] at known
    split at known
    · exact Option.some.inj known ▸ spares
    · contradiction
  · intro _ _ known
    contradiction
  · intro _ known
    contradiction

theorem increment_renamed :
    ("X" ≠ "Y" ∧ (Checker.within {} (small "X" "n" .nat)).Spares "X" ∧
      (Checker.within {} (small "X" "n" .nat)).Spares "Y" ∧ Renamable "X" "Y" (Expr.postOrder increment)) ∧
    let original := Checker.synth {} (small "X" "n" .nat) ⟨.typeAbstraction ["X"] increment, none⟩
    let renamed := Checker.synth {} (small "X" "n" .nat)
      ⟨.typeAbstraction ["Y"] (Expr.rename "X" "Y" increment), none⟩
    renamed.1.form = original.1.form ∧
      ∃ es fs, original.2.errors = [] ++ es ∧ renamed.2.errors = [] ++ fs ∧
        List.Forall₂ (TypeError.Renamed "X" "Y") es fs := by
  have other : "X" ≠ "Y" := by decide
  have spares : (Checker.within {} (small "X" "n" .nat)).Spares "X" := small_spares "X" "n" (by decide)
  have spares' : (Checker.within {} (small "X" "n" .nat)).Spares "Y" := small_spares "X" "n" (by decide)
  have renamable : Renamable "X" "Y" (Expr.postOrder increment) := by
    constructor
    all_goals decide +kernel
  exact ⟨⟨other, spares, spares', renamable⟩,
    generic_renamed {} (small "X" "n" .nat) increment none (.start {}) other spares spares' renamable⟩

/-- A variable whose type is a type parameter of that name is captured. -/
theorem generic_captures :
    ¬∀ (scope : Scope) (e : Located Expr) (x y : String), x ≠ y → (Checker.within {} scope).Spares y →
      (∀ node ∈ Expr.postOrder e, y ∉ node.typeNames ∧ Ty.Separate node.binders) →
      (Checker.synth {} scope ⟨.typeAbstraction [y] (Expr.rename x y e), none⟩).1.form =
        (Checker.synth {} scope ⟨.typeAbstraction [x] e, none⟩).1.form := by
  intro renamed
  let scope := small "X" "v" (.var "X")
  have spares : (Checker.within {} scope).Spares "Y" := small_spares "X" "v" (by decide)
  have captured : (Checker.synth {} scope ⟨.typeAbstraction ["X"] ⟨.var "v", none⟩, none⟩).1 =
      .forAll ["X"] (.var "X") := by decide +kernel
  have free : (Checker.synth {} scope
      ⟨.typeAbstraction ["Y"] (Expr.rename "X" "Y" ⟨.var "v", none⟩), none⟩).1 =
      .forAll ["Y"] (.var "X") := by decide +kernel
  have same := renamed scope ⟨.var "v", none⟩ "X" "Y" (by decide) spares (by decide +kernel)
  rw [captured, free] at same
  simp [Ty.form, Form.close, Form.closing, places] at same

end StellaLang.Typing
