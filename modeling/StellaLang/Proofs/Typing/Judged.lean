import StellaLang.Proofs.Syntax.Walk
import StellaLang.Proofs.Typing.FollowingExpr
import StellaLang.Typing.Checker

/-! A checker without limits finds a type for every expression of a program, faulty or not:
it keeps one for each, in the order of the walk over all nodes. -/
namespace StellaLang.Typing

open Syntax

/-- What a judgement says of which expression. -/
def Judgement.typed (j : Judgement) : Located Expr × Ty :=
  (j.expr, j.type)

/-- The expressions that have been given a type, the latest first. -/
def Progress.judged (p : Progress) : List (Located Expr) :=
  p.judgements.map (·.expr)

/-- That a step gives types to these expressions, one after the other, unless checking
halts. -/
structure Judges (es : List (Located Expr)) (x : Check α) : Prop where
  built : Check.Built x
  listed : ∀ p : Progress, (x p).2.halted = false → (x p).2.judged = es.reverse ++ p.judged

namespace Judges

variable {es fs : List (Located Expr)} {β γ : Type} {x : Check α} {f : α → Check β}

/-- A step that depends on the answer of another one. -/
theorem bind_answer (first : Judges es x) (built : ∀ a, Check.Built (f a))
    (next : ∀ p, Judges fs (f (x p).1)) : Judges (es ++ fs) (x >>= f) := by
  refine ⟨.bind first.built built, fun p active => ?_⟩
  have afterNext := (next p).listed _ active
  have afterFirst := first.listed p (((built _).grown _).active active)
  rw [Check.bind_apply, afterNext, afterFirst, List.reverse_append, List.append_assoc]

theorem bind (first : Judges es x) (next : ∀ a, Judges fs (f a)) : Judges (es ++ fs) (x >>= f) :=
  first.bind_answer (fun a => (next a).built) fun p => next (x p).1

theorem guarded (skipped : α) (inner : Judges es x) : Judges es (Check.guarded skipped x) := by
  refine ⟨.guarded skipped inner.built, fun p active => ?_⟩
  have running := ((Check.Built.guarded skipped inner.built).grown p).active active
  rw [Check.guarded_of_active _ _ running] at active ⊢
  exact inner.listed p active

/-- Steps that keep no types give none. -/
theorem silent {φ : α → β} {y : Check β} (follows : Check.Follows false φ x y) : Judges [] x := by
  induction follows with
  | answer _ a => exact ⟨.answer a, fun _ _ => rfl⟩
  | bind _ _ first next => exact first.bind next
  | guarded skipped _ inner => exact inner.guarded skipped
  | report fault position | milder fault position =>
    refine ⟨.report fault position, fun p _ => ?_⟩
    rw [Check.report_apply]
    exact congrArg (List.map _) (Progress.record_judgements _)
  | note level topic text => exact ⟨.note level topic text, fun _ _ => rfl⟩
  | judge allowed => contradiction
  | meaning ctx _ resolved =>
    refine ⟨.meaning ctx resolved.built, fun p active => ?_⟩
    rw [meaning_apply] at active ⊢
    split at active
    · rename_i named
      rw [if_pos named]
      exact resolved.listed p active
    · rename_i closed
      rw [if_neg closed]
      split at active
      · rfl
      · exact resolved.listed { p with cache := p.cache.count _ } active

/-- A step that gives no types, before one that does. -/
theorem after {φ : α → γ} {y : Check γ} (first : Check.Follows false φ x y)
    (next : ∀ a, Judges fs (f a)) : Judges fs (x >>= f) :=
  (silent first).bind next

/-- A step that gives no types, after one that does. -/
theorem andThen (first : Judges es x) (next : ∀ a, Judges [] (f a)) : Judges es (x >>= f) := by
  have both := first.bind next
  rwa [List.append_nil] at both

theorem map (first : Judges es x) (h : α → β) : Judges es (x >>= fun a => pure (h a)) :=
  first.andThen fun _ => silent (.same _)

theorem judge (ctx : Context) (e : Located Expr) (t : Ty) : Judges [e] (Check.judge ctx e t) :=
  ⟨.judge ctx e t, fun _ _ => rfl⟩

end Judges

/-- Every recursive binding has a declared type. -/
theorem declareRecursive_length (ctx : Context) (bs : List (Located Pattern × Located Expr))
    (p : Progress) : (declareRecursive ctx bs p).1.2.length = bs.length := by
  induction bs generalizing ctx p with
  | nil => rfl
  | cons b bs ih =>
    obtain ⟨⟨q, position⟩, e⟩ := b
    cases q with
    | _ => exact congrArg Nat.succ (ih _ _)

mutual

theorem synth_judges (ctx : Context) (e : Located Expr) :
    Judges (expressions (Expr.postOrder e)) (synth ctx e) := by
  obtain ⟨e, position⟩ := e
  rw [Expr.postOrder, expressions_append]
  refine .guarded Ty.error ?_
  exact .bind (synthNode_judges ctx position e) fun t => .map (.judge ctx ⟨e, position⟩ t) _
termination_by structural e

theorem synthNode_judges (ctx : Context) (position : Option Position) (e : Expr) :
    Judges (expressions (Expr.inside e)) (synthNode ctx position e) := by
  cases e with
  | sequence a b =>
    rw [Expr.inside, expressions_append]
    exact .bind (synth_judges ctx a) fun t => .after (require_follows ctx t .unit a.position)
      fun _ => synth_judges ctx b
  | assign target value =>
    rw [Expr.inside, expressions_append]
    refine .bind (synth_judges ctx target) fun t => ?_
    cases t with
    | ref referent =>
      exact .andThen (synth_judges ctx value) fun t =>
        .silent (.map (require_follows ctx t referent value.position) _)
    | never | unknown | error => exact .map (synth_judges ctx value) _
    | _ => exact .andThen (synth_judges ctx value) fun _ => .silent (.map (.report _ _) _)
  | cond condition a b =>
    rw [Expr.inside, expressions_append, expressions_append, List.append_assoc]
    exact .bind (synth_judges ctx condition) fun t =>
      .after (require_follows ctx t .bool condition.position) fun _ =>
      .bind (synth_judges ctx a) fun first =>
      .andThen (synth_judges ctx b) fun second => .silent (join_follows first second b.position)
  | letIn bs body =>
    rw [Expr.inside, expressions_append]
    exact .bind (synthBindings_judges ctx.push bs) fun inner => synth_judges inner body
  | letRec bs body =>
    rw [Expr.inside, expressions_append]
    refine (Judges.silent (declareRecursive_follows ctx.push bs)).bind_answer
      (fun (inner, ts) => ?_) fun p => ?_
    · exact .bind (expectBindings_follows inner ts bs).built fun _ => (synth_follows inner body).built
    · exact .bind (expectBindings_judges _ (declareRecursive_length ctx.push bs p)) fun _ =>
        synth_judges _ body
  | typeAbstraction xs body => exact .map (synth_judges (ctx.push.bindTypeVars xs) body) _
  | binary op a b =>
    rw [Expr.inside, expressions_append]
    refine .bind (synth_judges ctx a) fun first => ?_
    rcases operandType? op with ⟨_ | operand, result⟩
    · exact .andThen (synth_judges ctx b) fun second =>
        .silent (.map (join_follows first second b.position) _)
    · exact .after (require_follows ctx first operand a.position) fun _ =>
        .andThen (synth_judges ctx b) fun second =>
        .silent (.map (require_follows ctx second operand b.position) _)
  | ascribe e type =>
    rw [Expr.inside, expressions_append, expressions_type, List.append_nil]
    exact .after (meaning_follows ctx type) fun ascribed => .andThen (synth_judges ctx e) fun t =>
      .silent (.map (require_follows ctx t ascribed e.position) _)
  | cast e type =>
    rw [Expr.inside, expressions_append, expressions_type, List.append_nil]
    refine .after (meaning_follows ctx type) fun target =>
      .andThen (synth_judges ctx e) fun t => ?_
    dsimp only
    split
    · exact .silent (.same _)
    · exact .silent (.map (.report _ _) _)
  | abstraction params body =>
    rw [Expr.inside, expressions_append, expressions_type_fields]
    exact .after (bindParams_follows ctx.push params) fun (inner, _) =>
      .map (synth_judges inner body) _
  | variant l payload =>
    cases payload with
    | none => exact .silent (.same _)
    | some e => exact .map (synth_judges ctx e) _
  | matching e cases =>
    rw [Expr.inside, expressions_append]
    refine .bind (synth_judges ctx e) fun scrutinee => ?_
    cases cases with
    | nil => exact .silent (.report _ _)
    | cons c cases =>
      refine .andThen (joinCases_judges ctx scrutinee .unknown (c :: cases)) fun result => ?_
      dsimp only
      split
      · exact .silent (.same _)
      · exact .silent (.map (.report _ _) _)
  | list es => exact .map (joinAll_judges ctx .unknown es) _
  | unary op e =>
    exact .andThen (synth_judges ctx e) fun t =>
      .silent (unaryType_follows ctx position e.position op t)
  | application f args =>
    rw [Expr.inside, expressions_append]
    refine .bind (synth_judges ctx f) fun t => ?_
    cases t with
    | arrow params result =>
      dsimp only
      split
      · rename_i same
        exact .map (expectEach_judges ctx same) _
      · exact .andThen (synthAll_judges ctx args) fun _ => .silent (.map (.report _ _) _)
    | _ =>
      exact .andThen (synthAll_judges ctx args) fun _ => .silent (eliminate_follows _ _ _)
  | typeApplication f types =>
    rw [Expr.inside, expressions_append, expressions_types, List.append_nil]
    refine .andThen (synth_judges ctx f) fun t => .after (meanings_follows ctx types) fun args => ?_
    cases t with
    | forAll xs body =>
      dsimp only
      split
      · exact .silent (.same _)
      · exact .silent (.report _ _)
    | _ => exact .silent (eliminate_follows _ _ _)
  | field e l =>
    refine .andThen (synth_judges ctx e) fun t => ?_
    cases t with
    | record fs =>
      dsimp only
      cases fs.lookup l with
      | some t => exact .silent (.same t)
      | none => exact .silent (.report _ _)
    | _ => exact .silent (eliminate_follows _ _ _)
  | component e index =>
    refine .andThen (synth_judges ctx e) fun t => ?_
    cases t with
    | tuple ts =>
      cases index with
      | zero => exact .silent (.report _ _)
      | succ i =>
        dsimp only
        cases ts[i]? with
        | some t => exact .silent (.same t)
        | none => exact .silent (.report _ _)
    | _ => exact .silent (eliminate_follows _ _ _)
  | tuple es => exact .map (synthAll_judges ctx es) _
  | record fs => exact .map (synthFields_judges ctx fs) _
  | cons h tail =>
    rw [Expr.inside, expressions_append]
    exact .bind (synth_judges ctx h) fun t => .andThen (synth_judges ctx tail) fun u =>
      .silent (.map (require_follows ctx u (.list t) tail.position) _)
  | panic => exact .silent (.same _)
  | tryCatch body p handler =>
    rw [Expr.inside, expressions_append, expressions_append, expressions_pattern, List.append_nil]
    refine .bind (synth_judges ctx body) fun first => ?_
    have handled (exception : Ty) : Judges (expressions (Expr.postOrder handler))
        (bindings ctx.push exception p >>= fun bound =>
          synth (ctx.push.bindAll bound) handler >>= fun second =>
          Check.join ctx first second handler.position) :=
      .after (bindings_follows ctx.push exception p) fun bound =>
        .andThen (synth_judges (ctx.push.bindAll bound) handler) fun second =>
        .silent (join_follows first second handler.position)
    cases ctx.exception? with
    | some t => exact handled t
    | none => exact .after (.report _ _) handled
  | tryWith body fallback =>
    rw [Expr.inside, expressions_append]
    exact .bind (synth_judges ctx body) fun first => .andThen (synth_judges ctx fallback) fun second =>
      .silent (join_follows first second fallback.position)
  | tryCast e type p success failure =>
    simp only [Expr.inside, expressions_append, expressions_type, expressions_pattern,
      List.nil_append, List.append_assoc]
    exact .bind (synth_judges ctx e) fun _ => .after (meaning_follows ctx type) fun target =>
      .after (bindings_follows ctx.push target p) fun bound =>
      .bind (synth_judges (ctx.push.bindAll bound) success) fun first =>
      .andThen (synth_judges ctx failure) fun second =>
      .silent (join_follows first second failure.position)
  | natRec count initial step =>
    rw [Expr.inside, expressions_append, expressions_append, List.append_assoc]
    exact .bind (synth_judges ctx count) fun t =>
      .after (require_follows ctx t .nat count.position) fun _ =>
      .bind (synth_judges ctx initial) fun result =>
      .andThen (synth_judges ctx step) fun t =>
      .silent (.map (require_follows ctx t _ step.position) _)
  | fold type e | unfold type e =>
    rw [Expr.inside, expressions_append, expressions_type]
    refine .after (meaning_follows ctx type) fun target => .andThen (synth_judges ctx e) fun t => ?_
    cases target with
    | recursive => exact .silent (.map (require_follows ctx t _ e.position) _)
    | never | unknown | error => exact .silent (.same _)
    | _ => exact .silent (.report _ _)
  | literal => exact .silent (.same _)
  | var x =>
    rw [synthNode]
    cases ctx.scope.lookup x with
    | some t => exact .silent (.same t)
    | none => exact .silent (.report _ _)
termination_by structural e

theorem synthAll_judges (ctx : Context) (es : List (Located Expr)) :
    Judges (expressions (Expr.postOrderAll es)) (synthAll ctx es) := by
  match es with
  | [] => exact .silent (.same _)
  | e :: es =>
    rw [Expr.postOrderAll, expressions_append]
    exact .bind (synth_judges ctx e) fun _ => .map (synthAll_judges ctx es) _
termination_by structural es

theorem synthFields_judges (ctx : Context) (fs : List (String × Located Expr)) :
    Judges (expressions (Expr.postOrderFields fs)) (synthFields ctx fs) := by
  match fs with
  | [] => exact .silent (.same _)
  | (_, e) :: fs =>
    rw [Expr.postOrderFields, expressions_append]
    exact .bind (synth_judges ctx e) fun _ => .map (synthFields_judges ctx fs) _
termination_by structural fs

theorem expectEach_judges (ctx : Context) {expected : List Ty} {es : List (Located Expr)}
    (same : expected.length = es.length) :
    Judges (expressions (Expr.postOrderAll es)) (expectEach ctx expected es) := by
  match es, expected with
  | [], [] => exact .silent (.same _)
  | e :: es, u :: us =>
    rw [Expr.postOrderAll, expressions_append]
    exact .bind (synth_judges ctx e) fun t => .after (require_follows ctx t u e.position)
      fun _ => expectEach_judges ctx (Nat.succ.inj same)
termination_by structural es

theorem joinAll_judges (ctx : Context) (common : Ty) (es : List (Located Expr)) :
    Judges (expressions (Expr.postOrderAll es)) (joinAll ctx common es) := by
  match es with
  | [] => exact .silent (.same _)
  | e :: es =>
    rw [Expr.postOrderAll, expressions_append]
    exact .bind (synth_judges ctx e) fun t => .after (join_follows common t e.position)
      fun t => joinAll_judges ctx t es
termination_by structural es

theorem synthBindings_judges (ctx : Context) (bs : List (Located Pattern × Located Expr)) :
    Judges (expressions (Expr.postOrderBindings bs)) (synthBindings ctx bs) := by
  match bs with
  | [] => exact .silent (.same _)
  | (p, e) :: bs =>
    rw [Expr.postOrderBindings, expressions_append, expressions_append, expressions_pattern]
    exact .bind (synth_judges ctx e) fun t => .after (bindings_follows ctx t p)
      fun bound => synthBindings_judges (ctx.bindAll bound) bs
termination_by structural bs

theorem expectBindings_judges (ctx : Context) {expected : List Ty}
    {bs : List (Located Pattern × Located Expr)} (same : expected.length = bs.length) :
    Judges (expressions (Expr.postOrderBindings bs)) (expectBindings ctx expected bs) := by
  match bs, expected with
  | [], [] => exact .silent (.same _)
  | (p, e) :: bs, u :: us =>
    rw [Expr.postOrderBindings, expressions_append, expressions_append, expressions_pattern]
    exact .bind (synth_judges ctx e) fun t => .after (require_follows ctx t u e.position)
      fun _ => expectBindings_judges ctx (Nat.succ.inj same)
termination_by structural bs

theorem joinCases_judges (ctx : Context) (scrutinee common : Ty)
    (cases : List (Located Pattern × Located Expr)) :
    Judges (expressions (Expr.postOrderBindings cases)) (joinCases ctx scrutinee common cases) := by
  match cases with
  | [] => exact .silent (.same _)
  | (p, e) :: cases =>
    rw [Expr.postOrderBindings, expressions_append, expressions_append, expressions_pattern]
    exact .after (bindings_follows ctx.push scrutinee p) fun bound =>
      .bind (synth_judges (ctx.push.bindAll bound) e) fun t =>
      .after (join_follows common t e.position) fun t => joinCases_judges ctx scrutinee t cases
termination_by structural cases

end

mutual

theorem checkDecl_judges (ctx : Context) (d : Located Decl) :
    Judges (expressions (Decl.postOrder d)) (checkDecl ctx d) := by
  obtain ⟨d, position⟩ := d
  rw [Decl.postOrder, expressions_append]
  have inner := checkDeclNode_judges ctx d
  rwa [show expressions [.decl ⟨d, position⟩] = [] from rfl, List.append_nil]
termination_by structural d

theorem checkDeclNode_judges (ctx : Context) (d : Decl) :
    Judges (expressions (Decl.inside d)) (checkDeclNode ctx d) := by
  cases d with
  | function modifiers name generics params result throws locals body =>
    have unjudged : expressions (result.elim [] Syntax.TypeExpr.postOrder) = [] := by
      cases result with
      | none => rfl
      | some t => exact expressions_type t
    simp only [Decl.inside, expressions_append, expressions_type_fields, unjudged, expressions_types,
      List.nil_append]
    exact .after (.note _ _ _) fun _ =>
      .after (bindParams_follows (ctx.push.bindTypeVars (generics.getD [])) params) fun (ctx, _) =>
      .after (meanings_follows ctx throws) fun _ => .after (declaredResult_follows ctx result) fun r =>
      .after (declareBlock_follows ctx locals) fun ctx => .bind (checkDecls_judges ctx locals) fun _ =>
      .andThen (synth_judges ctx body) fun t => .silent (require_follows ctx t r body.position)
  | typeAlias _ t | exceptionType t | exceptionVariant _ t =>
    rw [Decl.inside, expressions_type]
    exact .silent (.same _)
termination_by structural d

theorem checkDecls_judges (ctx : Context) (ds : List (Located Decl)) :
    Judges (expressions (Decl.postOrderAll ds)) (checkDecls ctx ds) := by
  match ds with
  | [] => exact .silent (.same _)
  | d :: ds =>
    rw [Decl.postOrderAll, expressions_append]
    refine .guarded () ?_
    exact .bind (checkDecl_judges ctx d) fun _ => checkDecls_judges ctx ds
termination_by structural ds

end

theorem checkModule_judges (ctx : Context) (block : List (Located Decl)) :
    Judges (expressions (Decl.postOrderAll block)) (checkModule ctx block) := by
  have inside : Judges (expressions (Decl.postOrderAll block)) (checkBlock ctx block) :=
    .after (declareBlock_follows ctx block) fun ctx => .map (checkDecls_judges ctx block) _
  refine .andThen inside fun ctx => ?_
  dsimp only
  split
  · exact .after (.report _ _) fun _ => .silent (.same ctx)
  · exact .silent (.same ctx)

section Programs

variable (program : Located Syntax.Program)

theorem checking_judges (c : Checker) :
    Judges (expressions (Syntax.Program.postOrder program)) (c.checking program) := by
  rw [Syntax.Program.postOrder, expressions_append]
  rw [show expressions [.program program] = [] from rfl, List.append_nil]
  unfold Checker.checking
  dsimp only
  split
  · exact .after (.note _ _ _) fun _ => checkModule_judges _ _
  · exact checkModule_judges _ _

/-- The expressions of a program in the order of its check, with the types found for them. -/
def typesFound : List (Located Expr × Ty) :=
  (((Checker.new {}).check program).2.progress.judgements.map Judgement.typed).reverse

theorem typesFound_eq : typesFound program =
    ((({} : Checker).checking program {}).2.judgements.map Judgement.typed).reverse := rfl

/-- A type is found for every expression of a program. -/
theorem typesFound_expressions :
    (typesFound program).map (·.1) = expressions (Syntax.Program.postOrder program) := by
  have judges := checking_judges program {}
  have listed := judges.listed {} ((judges.built.grown {}).unlimited rfl rfl)
  have named : (({} : Checker).checking program {}).2.judgements.map (Prod.fst ∘ Judgement.typed) =
      (({} : Checker).checking program {}).2.judged := rfl
  rw [typesFound_eq, List.map_reverse, List.map_map, named, listed, List.reverse_append,
    List.reverse_reverse]
  rfl

end Programs

end StellaLang.Typing
