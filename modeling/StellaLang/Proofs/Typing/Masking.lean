import StellaLang.Proofs.Typing.ErrorFree
import StellaLang.Proofs.Typing.Judged

/-! An error type conforms to everything, so it could hide a fault. It cannot: where nothing
is reported, no type that an expression gets or that a name is bound to has an error in
it. -/
namespace StellaLang.Typing

open Check
open Syntax (Expr Pattern TypeExpr UnaryOp)
open Ty (ErrorFree)

section Steps

variable {kept : Judgement → Prop}

theorem join_yields {ctx : Context} {t u : Ty} {position : Option Position} :
    Yields kept (t.ErrorFree ∧ u.ErrorFree) ErrorFree (Check.join ctx t u position) := by
  unfold Check.join
  split
  · exact .answer fun free => free.1.merge free.2
  · exact Yields.report.imp id fun _ _ => False.elim

/-- What is taken apart has no error in it, so only wildcards are left. -/
theorem eliminate_yields {t : Ty} {fault : Ty → Fault} {position : Option Position} :
    Yields kept t.ErrorFree ErrorFree (eliminate t fault position) := by
  unfold eliminate
  split
  · exact .answer fun free => absurd free.not_isError (by simp_all)
  split
  · exact .answer fun _ => by decide
  · exact Yields.report.imp id fun _ _ => False.elim

theorem literalType_errorFree (l : Syntax.Literal) : (literalType l).ErrorFree := by
  cases l <;> simp [literalType, ErrorFree, Ty.parts]

theorem operandType_errorFree (op : Syntax.BinaryOp) : (operandType? op).2.ErrorFree := by
  cases op <;> decide

theorem unaryType_yields (ctx : Context) (operation operand : Option Position) (op : UnaryOp) (t : Ty) :
    Yields kept t.ErrorFree ErrorFree (unaryType ctx operation operand op t) := by
  have required (expected : Ty) {answer : Ty} (free : answer.ErrorFree) :
      Yields kept t.ErrorFree ErrorFree
        (Check.require ctx t expected operand >>= fun _ => pure answer) :=
    Yields.require.map fun _ _ => free
  cases op with
  | ref => exact .answer ErrorFree.ref_iff.mpr
  | inl => exact .answer fun free => ErrorFree.sum_iff.mpr ⟨free, by decide⟩
  | inr => exact .answer fun free => ErrorFree.sum_iff.mpr ⟨by decide, free⟩
  | succ | pred | isZero | not => exact required _ (by decide)
  | deref =>
    cases t with
    | ref => exact .answer ErrorFree.ref_iff.mp
    | _ => exact eliminate_yields
  | head =>
    cases t with
    | list => exact .answer ErrorFree.list_iff.mp
    | _ => exact eliminate_yields
  | tail =>
    cases t with
    | list => exact .answer id
    | _ => exact eliminate_yields
  | isEmpty =>
    cases t with
    | list => exact .answer fun _ => by decide
    | _ => exact .map eliminate_yields fun _ _ => by decide
  | fix =>
    cases t with
    | arrow ps r =>
      match ps with
      | [p] =>
        unfold unaryType
        dsimp only
        split
        · refine .answer fun free => ?_
          obtain ⟨params, result⟩ := ErrorFree.arrow_iff.mp free
          exact (params p List.mem_cons_self).merge result
        · exact Yields.report.imp id fun _ _ => False.elim
      | [] | _ :: _ :: _ => exact eliminate_yields
    | _ => exact eliminate_yields
  | throw =>
    rw [unaryType]
    split
    · exact required _ (by decide)
    · exact Yields.report.bind fun _ => .answer fun h => h.1.elim

end Steps

/-- That an expression has a type without errors, in a context inside another one. -/
def Judgement.Unmasked (base : Context) (j : Judgement) : Prop :=
  base.Inner j.context ∧ j.type.ErrorFree

section Expressions

variable {base : Context}

theorem declareRecursive_yields (clean : base.Clean) (ctx : Context)
    (bs : List (Located Pattern × Located Expr)) :
    Yields (Judgement.Unmasked base) (base.Inner ctx)
      (fun bound => base.Inner bound.1 ∧ ∀ t ∈ bound.2, t.ErrorFree) (declareRecursive ctx bs) := by
  induction bs generalizing ctx with
  | nil => exact .answer fun inner => ⟨inner, fun _ member => nomatch member⟩
  | cons b bs ih =>
    obtain ⟨⟨q, position⟩, e⟩ := b
    cases q with
    | ascribed q type =>
      refine .bind ((meaning_yields ctx type).of_given clean.of_inner) fun t => ?_
      refine .bind ((bindings_yields ctx t q).of_given fun given =>
        ⟨clean.of_inner given.2, given.1⟩) fun bound => ?_
      refine .map ((ih (ctx.bindAll bound)).of_given fun given => given.2.2.bindAll given.1) ?_
      rintro ⟨last, ts⟩ ⟨⟨inner, all⟩, _, free, _⟩
      exact ⟨inner, List.forall_mem_cons.mpr ⟨free, all⟩⟩
    | _ => exact .bind .report fun _ => .map ((ih ctx).of_given And.right) fun _ h => h.2.1.elim

theorem bindParams_yields (clean : base.Clean) (ctx : Context)
    (params : List (String × Located TypeExpr)) :
    Yields (Judgement.Unmasked base) (base.Inner ctx)
      (fun bound => base.Inner bound.1 ∧ ∀ t ∈ bound.2, t.ErrorFree) (bindParams ctx params) := by
  induction params generalizing ctx with
  | nil => exact .answer fun inner => ⟨inner, fun _ member => nomatch member⟩
  | cons param params ih =>
    refine .bind ((meaning_yields ctx param.2).of_given clean.of_inner) fun t => ?_
    refine .map ((ih (ctx.bind param.1 t)).of_given fun given => given.2.bind _ given.1) ?_
    rintro ⟨last, ts⟩ ⟨⟨inner, all⟩, free, _⟩
    exact ⟨inner, List.forall_mem_cons.mpr ⟨free, all⟩⟩

mutual

theorem synth_yields (clean : base.Clean) (ctx : Context) (e : Located Expr) :
    Yields (Judgement.Unmasked base) (base.Inner ctx) ErrorFree (synth ctx e) := by
  obtain ⟨e, position⟩ := e
  refine .guarded (.bind (synthNode_yields clean ctx position e) fun t => ?_)
  exact .bind (.judge fun ⟨free, inner⟩ => ⟨inner, free⟩) fun _ => .answer fun h => h.2.1
termination_by structural e

theorem synthNode_yields (clean : base.Clean) (ctx : Context) (position : Option Position) (e : Expr) :
    Yields (Judgement.Unmasked base) (base.Inner ctx) ErrorFree (synthNode ctx position e) := by
  cases e with
  | sequence a b =>
    refine .bind (synth_yields clean ctx a) fun t => .bind .require fun _ => ?_
    exact (synth_yields clean ctx b).of_given fun ⟨_, _, inner⟩ => inner
  | assign target value =>
    refine .bind (synth_yields clean ctx target) fun t => ?_
    have assigned : Yields (Judgement.Unmasked base) (t.ErrorFree ∧ base.Inner ctx) ErrorFree
        (synth ctx value) := (synth_yields clean ctx value).of_given And.right
    cases t with
    | ref referent => exact assigned.bind fun t => Yields.require.map fun _ _ => by decide
    | never | unknown | error => exact assigned.map fun _ _ => by decide
    | _ => exact assigned.bind fun _ => Yields.report.bind fun _ => .answer fun h => h.1.elim
  | cond condition a b =>
    refine .bind (synth_yields clean ctx condition) fun t => .bind .require fun _ => ?_
    refine .bind ((synth_yields clean ctx a).of_given fun ⟨_, _, inner⟩ => inner) fun first => ?_
    refine .bind ((synth_yields clean ctx b).of_given fun ⟨_, _, _, inner⟩ => inner) fun second => ?_
    exact join_yields.of_given fun ⟨free, before, _⟩ => ⟨before, free⟩
  | letIn bs body =>
    refine .bind ((synthBindings_yields clean ctx.push bs).of_given .push) fun inner => ?_
    exact (synth_yields clean inner body).of_given And.left
  | letRec bs body =>
    refine .bind ((declareRecursive_yields clean ctx.push bs).of_given .push) fun (inner, ts) => ?_
    refine .bind ((expectBindings_yields clean inner ts bs).of_given fun h => h.1.1) fun _ => ?_
    exact (synth_yields clean inner body).of_given fun h => h.2.1.1
  | typeAbstraction xs body =>
    refine .map ((synth_yields clean (ctx.push.bindTypeVars xs) body).of_given fun inner =>
      inner.push.bindTypeVars xs) fun _ h => ?_
    exact ErrorFree.forAll_iff.mpr h.1
  | binary op a b =>
    refine .bind (synth_yields clean ctx a) fun first => ?_
    have result := operandType_errorFree op
    generalize operandType? op = asked at result ⊢
    rcases asked with ⟨_ | operand, answer⟩
    · refine .bind ((synth_yields clean ctx b).of_given And.right) fun second => ?_
      refine .map (join_yields.of_given fun ⟨free, before, _⟩ => ⟨before, free⟩) fun _ _ => result
    · refine .bind .require fun _ => .bind ((synth_yields clean ctx b).of_given fun h => h.2.2) fun _ => ?_
      exact Yields.require.map fun _ _ => result
  | ascribe e type =>
    refine .bind ((meaning_yields ctx type).of_given clean.of_inner) fun ascribed => ?_
    refine .bind ((synth_yields clean ctx e).of_given And.right) fun t => ?_
    exact Yields.require.map fun _ ⟨_, _, free, _⟩ => free
  | cast e type =>
    refine .bind ((meaning_yields ctx type).of_given clean.of_inner) fun target => ?_
    refine .bind ((synth_yields clean ctx e).of_given And.right) fun t => ?_
    dsimp only
    split
    · exact .answer fun ⟨_, free, _⟩ => free
    · exact Yields.report.bind fun _ => .answer fun h => h.1.elim
  | abstraction params body =>
    refine .bind ((bindParams_yields clean ctx.push params).of_given .push) fun (inner, ts) => ?_
    refine .map ((synth_yields clean inner body).of_given fun h => h.1.1) fun _ ⟨free, ⟨_, all⟩, _⟩ => ?_
    exact ErrorFree.arrow_iff.mpr ⟨all, free⟩
  | variant l payload =>
    cases payload with
    | none => exact .answer fun _ => by simp
    | some e => exact .map (synth_yields clean ctx e) fun t h => by simpa using h.1
  | matching e cases =>
    refine .bind (synth_yields clean ctx e) fun scrutinee => ?_
    split
    · exact Yields.report.imp id fun _ _ => False.elim
    · refine .bind ((joinCases_yields clean ctx scrutinee .unknown cases).of_given fun ⟨free, inner⟩ =>
        ⟨inner, free, by decide⟩) fun result => ?_
      dsimp only
      split
      · exact .answer And.left
      · exact Yields.report.bind fun _ => .answer fun h => h.1.elim
  | list es =>
    refine .map ((joinAll_yields clean ctx .unknown es).of_given fun inner =>
      ⟨inner, by decide⟩) fun _ h => ?_
    exact ErrorFree.list_iff.mpr h.1
  | unary op e =>
    refine .bind (synth_yields clean ctx e) fun t => ?_
    exact (unaryType_yields ctx position e.position op t).of_given And.left
  | application f args =>
    refine .bind (synth_yields clean ctx f) fun t => ?_
    have applied : Yields (Judgement.Unmasked base) (t.ErrorFree ∧ base.Inner ctx)
        (fun ts => ∀ t ∈ ts, t.ErrorFree) (synthAll ctx args) :=
      (synthAll_yields clean ctx args).of_given And.right
    cases t with
    | arrow params result =>
      dsimp only
      split
      · refine .map ((expectEach_yields clean ctx params args).of_given And.right) fun _ h => ?_
        exact (ErrorFree.arrow_iff.mp h.2.1).2
      · exact applied.bind fun _ => Yields.report.bind fun _ => .answer fun h => h.1.elim
    | _ => exact applied.bind fun _ => eliminate_yields.of_given fun h => h.2.1
  | typeApplication f types =>
    refine .bind (synth_yields clean ctx f) fun t => ?_
    refine .bind ((meanings_yields ctx types).of_given fun h => clean.of_inner h.2) fun args => ?_
    cases t with
    | forAll xs body =>
      dsimp only
      split
      · exact .answer fun ⟨all, free, _⟩ => (ErrorFree.forAll_iff.mp free).instantiate all
      · exact Yields.report.imp id fun _ _ => False.elim
    | _ => exact eliminate_yields.of_given fun h => h.2.1
  | field e l =>
    refine .bind (synth_yields clean ctx e) fun t => ?_
    cases t with
    | record fs =>
      dsimp only
      cases found : fs.lookup l with
      | some t => exact .answer fun h => ErrorFree.record_iff.mp h.1 l t (mem_of_lookup found)
      | none => exact Yields.report.imp id fun _ _ => False.elim
    | _ => exact eliminate_yields.of_given And.left
  | component e index =>
    refine .bind (synth_yields clean ctx e) fun t => ?_
    cases t with
    | tuple ts =>
      cases index with
      | zero => exact Yields.report.imp id fun _ _ => False.elim
      | succ i =>
        dsimp only
        cases found : ts[i]? with
        | some t => exact .answer fun h => ErrorFree.tuple_iff.mp h.1 t (List.mem_of_getElem? found)
        | none => exact Yields.report.imp id fun _ _ => False.elim
    | _ => exact eliminate_yields.of_given And.left
  | tuple es => exact .map (synthAll_yields clean ctx es) fun _ h => ErrorFree.tuple_iff.mpr h.1
  | record fs => exact .map (synthFields_yields clean ctx fs) fun _ h => ErrorFree.record_iff.mpr h.1
  | cons h tail =>
    refine .bind (synth_yields clean ctx h) fun t => ?_
    refine .bind ((synth_yields clean ctx tail).of_given And.right) fun u => ?_
    refine Yields.require.map fun _ ⟨_, second, first, _⟩ => ?_
    exact (ErrorFree.list_iff.mpr first).merge second
  | panic => exact .answer fun _ => by decide
  | tryCatch body q handler =>
    refine .bind (synth_yields clean ctx body) fun first => ?_
    have handled (exception : Ty) : Yields (Judgement.Unmasked base)
        (exception.ErrorFree ∧ first.ErrorFree ∧ base.Inner ctx) ErrorFree
        (bindings ctx.push exception q >>= fun bound =>
          synth (ctx.push.bindAll bound) handler >>= fun second =>
          Check.join ctx first second handler.position) := by
      refine .bind ((bindings_yields ctx.push exception q).of_given fun ⟨free, _, inner⟩ =>
        ⟨clean.of_inner inner.push, free⟩) fun bound => ?_
      refine .bind ((synth_yields clean (ctx.push.bindAll bound) handler).of_given
        fun ⟨free, _, _, inner⟩ => inner.push.bindAll free) fun second => ?_
      exact join_yields.of_given fun ⟨free, _, _, before, _⟩ => ⟨before, free⟩
    cases declared : ctx.exception? with
    | some t =>
      exact (handled t).of_given fun ⟨free, inner⟩ =>
        ⟨(clean.of_inner inner).exceptions t declared, free, inner⟩
    | none => exact .bind .report fun t => (handled t).of_given fun h => h.1.elim
  | tryWith body fallback =>
    refine .bind (synth_yields clean ctx body) fun first => ?_
    refine .bind ((synth_yields clean ctx fallback).of_given And.right) fun second => ?_
    exact join_yields.of_given fun ⟨free, before, _⟩ => ⟨before, free⟩
  | tryCast e type q success failure =>
    refine .bind (synth_yields clean ctx e) fun _ => ?_
    refine .bind ((meaning_yields ctx type).of_given fun h => clean.of_inner h.2) fun target => ?_
    refine .bind ((bindings_yields ctx.push target q).of_given fun ⟨free, _, inner⟩ =>
      ⟨clean.of_inner inner.push, free⟩) fun bound => ?_
    refine .bind ((synth_yields clean (ctx.push.bindAll bound) success).of_given
      fun ⟨free, _, _, inner⟩ => inner.push.bindAll free) fun first => ?_
    refine .bind ((synth_yields clean ctx failure).of_given fun ⟨_, _, _, _, inner⟩ => inner) fun second => ?_
    exact join_yields.of_given fun ⟨free, before, _⟩ => ⟨before, free⟩
  | natRec count initial step =>
    refine .bind (synth_yields clean ctx count) fun t => .bind .require fun _ => ?_
    refine .bind ((synth_yields clean ctx initial).of_given fun ⟨_, _, inner⟩ => inner) fun result => ?_
    refine .bind ((synth_yields clean ctx step).of_given fun ⟨_, _, _, inner⟩ => inner) fun t => ?_
    exact Yields.require.map fun _ ⟨_, _, free, _⟩ => free
  | fold type e =>
    refine .bind ((meaning_yields ctx type).of_given clean.of_inner) fun target => ?_
    refine .bind ((synth_yields clean ctx e).of_given And.right) fun t => ?_
    cases target with
    | recursive => exact Yields.require.map fun _ ⟨_, _, free, _⟩ => free
    | never | unknown | error => exact .answer fun ⟨_, free, _⟩ => free
    | _ => exact Yields.report.imp id fun _ _ => False.elim
  | unfold type e =>
    refine .bind ((meaning_yields ctx type).of_given clean.of_inner) fun target => ?_
    refine .bind ((synth_yields clean ctx e).of_given And.right) fun t => ?_
    cases target with
    | recursive => exact Yields.require.map fun _ ⟨_, _, free, _⟩ => free.unfold
    | never | unknown | error => exact .answer fun ⟨_, free, _⟩ => free
    | _ => exact Yields.report.imp id fun _ _ => False.elim
  | literal l => exact .answer fun _ => literalType_errorFree l
  | var x =>
    rw [synthNode]
    cases found : ctx.scope.lookup x with
    | some t => exact .answer fun inner => (clean.of_inner inner).vars x t found
    | none => exact Yields.report.imp id fun _ _ => False.elim
termination_by structural e

theorem synthAll_yields (clean : base.Clean) (ctx : Context) (es : List (Located Expr)) :
    Yields (Judgement.Unmasked base) (base.Inner ctx) (fun ts => ∀ t ∈ ts, t.ErrorFree)
      (synthAll ctx es) := by
  match es with
  | [] => exact .answer fun _ _ member => nomatch member
  | e :: es =>
    refine .bind (synth_yields clean ctx e) fun t => ?_
    refine .map ((synthAll_yields clean ctx es).of_given And.right) fun ts ⟨all, free, _⟩ => ?_
    exact List.forall_mem_cons.mpr ⟨free, all⟩
termination_by structural es

theorem synthFields_yields (clean : base.Clean) (ctx : Context) (fs : List (String × Located Expr)) :
    Yields (Judgement.Unmasked base) (base.Inner ctx)
      (fun gs => ∀ l t, (l, t) ∈ gs → t.ErrorFree) (synthFields ctx fs) := by
  match fs with
  | [] => exact .answer fun _ _ _ member => nomatch member
  | (l, e) :: fs =>
    refine .bind (synth_yields clean ctx e) fun t => ?_
    refine .map ((synthFields_yields clean ctx fs).of_given And.right) fun gs ⟨all, free, _⟩ => ?_
    intro m u member
    rcases List.mem_cons.mp member with first | rest
    · cases first
      exact free
    · exact all m u rest
termination_by structural fs

theorem expectEach_yields (clean : base.Clean) (ctx : Context) (expected : List Ty)
    (es : List (Located Expr)) :
    Yields (Judgement.Unmasked base) (base.Inner ctx) (fun _ => True) (expectEach ctx expected es) := by
  match es, expected with
  | [], _ => exact .answer fun _ => trivial
  | _ :: _, [] => exact .answer fun _ => trivial
  | e :: es, u :: us =>
    refine .bind (synth_yields clean ctx e) fun t => .bind .require fun _ => ?_
    exact (expectEach_yields clean ctx us es).of_given fun ⟨_, _, inner⟩ => inner
termination_by structural es

theorem joinAll_yields (clean : base.Clean) (ctx : Context) (common : Ty) (es : List (Located Expr)) :
    Yields (Judgement.Unmasked base) (base.Inner ctx ∧ common.ErrorFree) ErrorFree
      (joinAll ctx common es) := by
  match es with
  | [] => exact .answer And.right
  | e :: es =>
    refine .bind ((synth_yields clean ctx e).of_given And.left) fun t => ?_
    refine .bind (join_yields.of_given fun ⟨free, _, before⟩ => ⟨before, free⟩) fun u => ?_
    exact (joinAll_yields clean ctx u es).of_given fun ⟨free, _, inner, _⟩ => ⟨inner, free⟩
termination_by structural es

theorem synthBindings_yields (clean : base.Clean) (ctx : Context)
    (bs : List (Located Pattern × Located Expr)) :
    Yields (Judgement.Unmasked base) (base.Inner ctx) base.Inner (synthBindings ctx bs) := by
  match bs with
  | [] => exact .answer id
  | (q, e) :: bs =>
    refine .bind (synth_yields clean ctx e) fun t => ?_
    refine .bind ((bindings_yields ctx t q).of_given fun ⟨free, inner⟩ =>
      ⟨clean.of_inner inner, free⟩) fun bound => ?_
    exact (synthBindings_yields clean (ctx.bindAll bound) bs).of_given fun ⟨free, _, inner⟩ =>
      inner.bindAll free
termination_by structural bs

theorem expectBindings_yields (clean : base.Clean) (ctx : Context) (expected : List Ty)
    (bs : List (Located Pattern × Located Expr)) :
    Yields (Judgement.Unmasked base) (base.Inner ctx) (fun _ => True)
      (expectBindings ctx expected bs) := by
  match bs, expected with
  | [], _ => exact .answer fun _ => trivial
  | _ :: _, [] => exact .answer fun _ => trivial
  | (_, e) :: bs, u :: us =>
    refine .bind (synth_yields clean ctx e) fun t => .bind .require fun _ => ?_
    exact (expectBindings_yields clean ctx us bs).of_given fun ⟨_, _, inner⟩ => inner
termination_by structural bs

theorem joinCases_yields (clean : base.Clean) (ctx : Context) (scrutinee common : Ty)
    (cases : List (Located Pattern × Located Expr)) :
    Yields (Judgement.Unmasked base)
      (base.Inner ctx ∧ scrutinee.ErrorFree ∧ common.ErrorFree) ErrorFree
      (joinCases ctx scrutinee common cases) := by
  match cases with
  | [] => exact .answer fun h => h.2.2
  | (q, e) :: cases =>
    refine .bind ((bindings_yields ctx.push scrutinee q).of_given fun ⟨inner, free, _⟩ =>
      ⟨clean.of_inner inner.push, free⟩) fun bound => ?_
    refine .bind ((synth_yields clean (ctx.push.bindAll bound) e).of_given fun ⟨free, inner, _⟩ =>
      inner.push.bindAll free) fun t => ?_
    refine .bind (join_yields.of_given fun ⟨free, _, _, _, before⟩ => ⟨before, free⟩) fun u => ?_
    exact (joinCases_yields clean ctx scrutinee u cases).of_given
      fun ⟨joined, _, _, inner, free, _⟩ => ⟨inner, free, joined⟩
termination_by structural cases

end

end Expressions

/-- No error is masked: where no fault is found in an expression, its type and the types of
all its parts have no error in them, and neither has any type that a name is bound to on
the way to these parts. -/
theorem no_error_masked (c : Checker) (scope : Scope) (e : Located Expr)
    (reached : c.progress.Reached) (active : c.progress.halted = false)
    (clean : (c.within scope).Clean) (silent : (c.synth scope e).2.errors = c.errors) :
    (c.synth scope e).1.ErrorFree ∧
      ∃ js, (c.synth scope e).2.progress.judgements = js ++ c.progress.judgements ∧
        js.map (·.expr) = (Syntax.expressions (Expr.postOrder e)).reverse ∧
        ∀ j ∈ js, j.Unmasked (c.within scope) := by
  have quiet : Quiet (synth (c.within scope) e) c.progress := ⟨active, reached.cacheSound, silent⟩
  have yields := synth_yields clean (c.within scope) e
  have judges := synth_judges (c.within scope) e
  obtain ⟨free, js, added, unmasked⟩ := yields.quiet .here quiet
  have running := ((judges.built.grown c.progress).quiet silent).trans active
  have listed := judges.listed c.progress running
  rw [Progress.judged, added, List.map_append] at listed
  exact ⟨free, js, added, List.append_cancel_right listed, unmasked⟩

/-- `let x = fn(y : Nat) {return succ(y)} in if true then x(0) else panic!` -/
def guardedCall : Located Expr :=
  let y : Located Expr := ⟨.var "y", none⟩
  let f : Located Expr := ⟨.abstraction [("y", ⟨.nat, none⟩)] ⟨.unary .succ y, none⟩, none⟩
  let call : Located Expr := ⟨.application ⟨.var "x", none⟩ [⟨.literal (.nat 0), none⟩], none⟩
  let body : Located Expr := ⟨.cond ⟨.literal (.bool true), none⟩ call ⟨.panic, none⟩, none⟩
  ⟨.letIn [(⟨.var "x", none⟩, f)] body, none⟩

theorem guardedCall_no_error_masked :
    ((Checker.new {}).synth {} guardedCall).2.errors = [] ∧
      ((Checker.new {}).synth {} guardedCall).1.ErrorFree ∧
      ∃ js, ((Checker.new {}).synth {} guardedCall).2.progress.judgements = js ++ [] ∧
        js.map (·.expr) = (Syntax.expressions (Expr.postOrder guardedCall)).reverse ∧
        ∀ j ∈ js, j.Unmasked ((Checker.new {}).within {}) := by
  have silent : ((Checker.new {}).synth {} guardedCall).2.errors = [] := by decide +kernel
  have clean : ((Checker.new {}).within {}).Clean := by
    constructor <;> simp [Checker.within, Checker.new, Scope.lookup, Scope.frames, Context.exception?]
  exact ⟨silent, no_error_masked (Checker.new {}) {} guardedCall (.start {}) rfl clean silent⟩

end StellaLang.Typing
