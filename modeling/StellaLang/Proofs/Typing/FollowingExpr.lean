import StellaLang.Proofs.Typing.Following

/-! Expressions and declarations beside themselves under structural subtyping. -/
namespace StellaLang.Typing

open Syntax (Decl Expr Pattern TypeExpr UnaryOp)
open Check Follows

variable {judging : Bool}

section Alternatives

variable {ctx : Context}

theorem related_subtyped {t u : Ty} (h : Check.related ctx t u = true) :
    Check.related ctx.subtyped t u = true := by
  rw [Check.related, Bool.or_eq_true] at h ⊢
  exact h.imp Context.conforms_subtyped Context.conforms_subtyped

theorem compatibleAlternatives_subtyped {fs gs : List (String × Option Ty)}
    (h : Check.compatibleAlternatives ctx fs gs = true) :
    Check.compatibleAlternatives ctx.subtyped fs gs = true := by
  rw [Check.compatibleAlternatives, List.all_eq_true] at h ⊢
  rintro ⟨l, payload⟩ member
  have shared := h (l, payload) member
  revert shared
  dsimp only
  rcases gs.lookup l with _ | _ | u
  · exact fun _ => rfl
  · cases payload <;> exact id
  · cases payload with
    | none => exact id
    | some t => exact related_subtyped

theorem compatible_subtyped {t u : Ty} (h : Check.compatible ctx t u = true) :
    Check.compatible ctx.subtyped t u = true := by
  unfold Check.compatible at h ⊢
  split at h
  · exact compatibleAlternatives_subtyped h
  · exact related_subtyped h

theorem join_follows (t u : Ty) (position : Option Position) :
    Follows judging id (Check.join ctx t u position) (Check.join ctx.subtyped t u position) := by
  unfold Check.join
  cases fits : Check.compatible ctx t u with
  | true =>
    rw [compatible_subtyped fits]
    exact same _
  | false => exact .milder _ _ _

end Alternatives

theorem eliminate_follows (found : Ty) (fault : Ty → Fault) (position : Option Position) :
    Follows judging id (eliminate found fault position) (eliminate found fault position) := by
  unfold eliminate
  split
  · exact same _
  split
  · exact same _
  · exact .report _ _

theorem unaryType_follows (ctx : Context) (operation operand : Option Position) (op : UnaryOp)
    (t : Ty) :
    Follows judging id (unaryType ctx operation operand op t)
      (unaryType ctx.subtyped operation operand op t) := by
  have required (expected answer : Ty) : Follows judging id
      (Check.require ctx t expected operand >>= fun _ => pure answer)
      (Check.require ctx.subtyped t expected operand >>= fun _ => pure answer) :=
    .map (require_follows ctx t expected operand) _
  cases op with
  | ref | inl | inr => exact same _
  | succ | pred | isZero | not => exact required _ _
  | deref =>
    cases t with
    | ref => exact same _
    | _ => exact eliminate_follows _ _ _
  | head | tail =>
    cases t with
    | list => exact same _
    | _ => exact eliminate_follows _ _ _
  | isEmpty =>
    cases t with
    | list => exact same _
    | _ => exact .map (eliminate_follows _ _ _) _
  | fix =>
    cases t with
    | arrow ps r =>
      match ps with
      | [p] =>
        unfold unaryType
        dsimp only
        cases fits : ctx.conforms r p with
        | true =>
          rw [Context.conforms_subtyped fits]
          exact same _
        | false => exact .milder _ _ _
      | [] | _ :: _ :: _ => exact eliminate_follows _ _ _
    | _ => exact eliminate_follows _ _ _
  | throw =>
    have declared : ctx.subtyped.exception? = ctx.exception? := rfl
    rw [unaryType, unaryType, declared]
    cases ctx.exception? with
    | some exception => exact required _ _
    | none => exact .map (.report _ _) _

theorem declareRecursive_follows (ctx : Context) (bs : List (Located Pattern × Located Expr)) :
    Follows judging (Prod.map Context.subtyped id) (declareRecursive ctx bs)
      (declareRecursive ctx.subtyped bs) := by
  induction bs generalizing ctx with
  | nil => exact .answer _ _
  | cons b bs ih =>
    obtain ⟨⟨p, position⟩, e⟩ := b
    cases p with
    | ascribed p type =>
      exact .bind (meaning_follows ctx type) fun t => .bind (bindings_follows ctx t p) fun bound =>
        .bind (ih (ctx.bindAll bound)) fun _ => .answer _ _
    | _ => exact .bind (.report _ _) fun _ => .bind (ih ctx) fun _ => .answer _ _

theorem bindParams_follows (ctx : Context) (params : List (String × Located TypeExpr)) :
    Follows judging (Prod.map Context.subtyped id) (bindParams ctx params)
      (bindParams ctx.subtyped params) := by
  induction params generalizing ctx with
  | nil => exact .answer _ _
  | cons param params ih =>
    exact .bind (meaning_follows ctx param.2) fun t => .bind (ih (ctx.bind param.1 t)) fun _ =>
      .answer _ _

mutual

theorem synth_follows (ctx : Context) (e : Located Expr) :
    Follows true id (synth ctx e) (synth ctx.subtyped e) := by
  obtain ⟨e, position⟩ := e
  exact .guarded .error (.andThen (synthNode_follows ctx position e) fun t =>
    .andThen (.judge rfl ctx ⟨e, position⟩ t) fun _ => same t)
termination_by structural e

theorem synthNode_follows (ctx : Context) (position : Option Position) (e : Expr) :
    Follows true id (synthNode ctx position e) (synthNode ctx.subtyped position e) := by
  cases e with
  | sequence a b =>
    exact .andThen (synth_follows ctx a) fun t =>
      .andThen (require_follows ctx t .unit a.position) fun _ => synth_follows ctx b
  | assign target value =>
    refine .andThen (synth_follows ctx target) fun t => ?_
    cases t with
    | ref referent =>
      exact .andThen (synth_follows ctx value) fun t =>
        .map (require_follows ctx t referent value.position) _
    | never | unknown | error => exact .map (synth_follows ctx value) _
    | _ => exact .andThen (synth_follows ctx value) fun _ => .map (.report _ _) _
  | cond condition a b =>
    exact .andThen (synth_follows ctx condition) fun t =>
      .andThen (require_follows ctx t .bool condition.position) fun _ =>
      .andThen (synth_follows ctx a) fun first =>
      .andThen (synth_follows ctx b) fun second => join_follows first second b.position
  | letIn bs body =>
    exact .bind (synthBindings_follows ctx.push bs) fun inner => synth_follows inner body
  | letRec bs body =>
    exact .bind (declareRecursive_follows ctx.push bs) fun (inner, ts) =>
      .andThen (expectBindings_follows inner ts bs) fun _ => synth_follows inner body
  | typeAbstraction xs body => exact .map (synth_follows (ctx.push.bindTypeVars xs) body) _
  | binary op a b =>
    refine .andThen (synth_follows ctx a) fun first => ?_
    rcases operandType? op with ⟨_ | operand, result⟩
    · exact .andThen (synth_follows ctx b) fun second =>
        .map (join_follows first second b.position) _
    · exact .andThen (require_follows ctx first operand a.position) fun _ =>
        .andThen (synth_follows ctx b) fun second =>
        .map (require_follows ctx second operand b.position) _
  | ascribe e type =>
    exact .andThen (meaning_follows ctx type) fun ascribed =>
      .andThen (synth_follows ctx e) fun t =>
      .map (require_follows ctx t ascribed e.position) _
  | cast e type =>
    refine .andThen (meaning_follows ctx type) fun target =>
      .andThen (synth_follows ctx e) fun t => ?_
    dsimp only
    split
    · exact same _
    · exact .map (.report _ _) _
  | abstraction params body =>
    exact .bind (bindParams_follows ctx.push params) fun (inner, _) =>
      .map (synth_follows inner body) _
  | variant l payload =>
    cases payload with
    | none => exact same _
    | some e => exact .map (synth_follows ctx e) _
  | matching e cases =>
    refine .andThen (synth_follows ctx e) fun scrutinee => ?_
    split
    · exact .report _ _
    · refine .andThen (joinCases_follows ctx scrutinee .unknown cases) fun result => ?_
      dsimp only
      split
      · exact same _
      · exact .map (.report _ _) _
  | list es => exact .map (joinAll_follows ctx .unknown es) _
  | unary op e =>
    exact .andThen (synth_follows ctx e) fun t => unaryType_follows ctx position e.position op t
  | application f args =>
    refine .andThen (synth_follows ctx f) fun t => ?_
    cases t with
    | arrow params result =>
      dsimp only
      split
      · exact .map (expectEach_follows ctx params args) _
      · exact .andThen (synthAll_follows ctx args) fun _ => .map (.report _ _) _
    | _ => exact .andThen (synthAll_follows ctx args) fun _ => eliminate_follows _ _ _
  | typeApplication f types =>
    refine .andThen (synth_follows ctx f) fun t =>
      .andThen (meanings_follows ctx types) fun args => ?_
    cases t with
    | forAll xs body =>
      dsimp only
      split
      · exact same _
      · exact .report _ _
    | _ => exact eliminate_follows _ _ _
  | field e l =>
    refine .andThen (synth_follows ctx e) fun t => ?_
    cases t with
    | record fs =>
      dsimp only
      cases fs.lookup l with
      | some t => exact same t
      | none => exact .report _ _
    | _ => exact eliminate_follows _ _ _
  | component e index =>
    refine .andThen (synth_follows ctx e) fun t => ?_
    cases t with
    | tuple ts =>
      cases index with
      | zero => exact .report _ _
      | succ i =>
        dsimp only
        cases ts[i]? with
        | some t => exact same t
        | none => exact .report _ _
    | _ => exact eliminate_follows _ _ _
  | tuple es => exact .map (synthAll_follows ctx es) _
  | record fs => exact .map (synthFields_follows ctx fs) _
  | cons h tail =>
    exact .andThen (synth_follows ctx h) fun t => .andThen (synth_follows ctx tail) fun u =>
      .map (require_follows ctx u (.list t) tail.position) _
  | panic => exact same _
  | tryCatch body p handler =>
    refine .andThen (synth_follows ctx body) fun first => ?_
    have handled (exception : Ty) : Follows true id
        (bindings ctx.push exception p >>= fun bound =>
          synth (ctx.push.bindAll bound) handler >>= fun second =>
          Check.join ctx first second handler.position)
        (bindings ctx.subtyped.push exception p >>= fun bound =>
          synth (ctx.subtyped.push.bindAll bound) handler >>= fun second =>
          Check.join ctx.subtyped first second handler.position) :=
      .andThen (bindings_follows ctx.push exception p) fun bound =>
        .andThen (synth_follows (ctx.push.bindAll bound) handler) fun second =>
        join_follows first second handler.position
    have declared : ctx.subtyped.exception? = ctx.exception? := rfl
    rw [declared]
    cases ctx.exception? with
    | some t => exact handled t
    | none => exact .andThen (.report _ _) handled
  | tryWith body fallback =>
    exact .andThen (synth_follows ctx body) fun first =>
      .andThen (synth_follows ctx fallback) fun second =>
      join_follows first second fallback.position
  | tryCast e type p success failure =>
    exact .andThen (synth_follows ctx e) fun _ => .andThen (meaning_follows ctx type) fun target =>
      .andThen (bindings_follows ctx.push target p) fun bound =>
      .andThen (synth_follows (ctx.push.bindAll bound) success) fun first =>
      .andThen (synth_follows ctx failure) fun second =>
      join_follows first second failure.position
  | natRec count initial step =>
    exact .andThen (synth_follows ctx count) fun t =>
      .andThen (require_follows ctx t .nat count.position) fun _ =>
      .andThen (synth_follows ctx initial) fun result =>
      .andThen (synth_follows ctx step) fun t => .map (require_follows ctx t _ step.position) _
  | fold type e | unfold type e =>
    refine .andThen (meaning_follows ctx type) fun target =>
      .andThen (synth_follows ctx e) fun t => ?_
    cases target with
    | recursive => exact .map (require_follows ctx t _ e.position) _
    | never | unknown | error => exact same _
    | _ => exact .report _ _
  | literal => exact same _
  | var x =>
    have inScope : ctx.subtyped.scope.lookup x = ctx.scope.lookup x := rfl
    rw [synthNode, synthNode, inScope]
    cases ctx.scope.lookup x with
    | some t => exact same t
    | none => exact .report _ _
termination_by structural e

theorem synthAll_follows (ctx : Context) (es : List (Located Expr)) :
    Follows true id (synthAll ctx es) (synthAll ctx.subtyped es) := by
  match es with
  | [] => exact same _
  | e :: es => exact .andThen (synth_follows ctx e) fun _ => .map (synthAll_follows ctx es) _
termination_by structural es

theorem synthFields_follows (ctx : Context) (fs : List (String × Located Expr)) :
    Follows true id (synthFields ctx fs) (synthFields ctx.subtyped fs) := by
  match fs with
  | [] => exact same _
  | (_, e) :: fs =>
    exact .andThen (synth_follows ctx e) fun _ => .map (synthFields_follows ctx fs) _
termination_by structural fs

theorem expectEach_follows (ctx : Context) (expected : List Ty) (es : List (Located Expr)) :
    Follows true id (expectEach ctx expected es) (expectEach ctx.subtyped expected es) := by
  match es, expected with
  | [], _ => exact same _
  | _ :: _, [] => exact same _
  | e :: es, u :: us =>
    exact .andThen (synth_follows ctx e) fun t =>
      .andThen (require_follows ctx t u e.position) fun _ => expectEach_follows ctx us es
termination_by structural es

theorem joinAll_follows (ctx : Context) (common : Ty) (es : List (Located Expr)) :
    Follows true id (joinAll ctx common es) (joinAll ctx.subtyped common es) := by
  match es with
  | [] => exact same _
  | e :: es =>
    exact .andThen (synth_follows ctx e) fun t =>
      .andThen (join_follows common t e.position) fun t => joinAll_follows ctx t es
termination_by structural es

theorem synthBindings_follows (ctx : Context) (bs : List (Located Pattern × Located Expr)) :
    Follows true Context.subtyped (synthBindings ctx bs) (synthBindings ctx.subtyped bs) := by
  match bs with
  | [] => exact .answer _ _
  | (p, e) :: bs =>
    exact .bind (synth_follows ctx e) fun t => .bind (bindings_follows ctx t p) fun bound =>
      synthBindings_follows (ctx.bindAll bound) bs
termination_by structural bs

theorem expectBindings_follows (ctx : Context) (expected : List Ty)
    (bs : List (Located Pattern × Located Expr)) :
    Follows true id (expectBindings ctx expected bs) (expectBindings ctx.subtyped expected bs) := by
  match bs, expected with
  | [], _ => exact same _
  | _ :: _, [] => exact same _
  | (_, e) :: bs, u :: us =>
    exact .andThen (synth_follows ctx e) fun t =>
      .andThen (require_follows ctx t u e.position) fun _ => expectBindings_follows ctx us bs
termination_by structural bs

theorem joinCases_follows (ctx : Context) (scrutinee common : Ty)
    (cases : List (Located Pattern × Located Expr)) :
    Follows true id (joinCases ctx scrutinee common cases)
      (joinCases ctx.subtyped scrutinee common cases) := by
  match cases with
  | [] => exact same _
  | (p, e) :: cases =>
    exact .andThen (bindings_follows ctx.push scrutinee p) fun bound =>
      .andThen (synth_follows (ctx.push.bindAll bound) e) fun t =>
      .andThen (join_follows common t e.position) fun t => joinCases_follows ctx scrutinee t cases
termination_by structural cases

end

section Declarations

theorem declaredResult_follows (ctx : Context) (result : Option (Located TypeExpr)) :
    Follows judging id (declaredResult ctx result) (declaredResult ctx.subtyped result) := by
  cases result with
  | none => exact same _
  | some t => exact meaning_follows ctx t

theorem signature_follows (ctx : Context) (generics : Option (List String))
    (params : List (String × Located TypeExpr)) (result : Option (Located TypeExpr)) :
    Follows judging id (signature ctx generics params result)
      (signature ctx.subtyped generics params result) := by
  cases generics with
  | none =>
    exact .andThen (meanings_follows ctx (params.map (·.2))) fun _ =>
      .map (declaredResult_follows ctx result) _
  | some xs =>
    exact .andThen (meanings_follows (ctx.push.bindTypeVars xs) (params.map (·.2))) fun _ =>
      .map (declaredResult_follows (ctx.push.bindTypeVars xs) result) _

theorem declare_follows (ctx : Context) (d : Decl) :
    Follows judging Context.subtyped (declare ctx d) (declare ctx.subtyped d) := by
  cases d with
  | function =>
    exact .bind (signature_follows ctx _ _ _) fun t => .answer Context.subtyped (ctx.bind _ t)
  | typeAlias =>
    exact .bind (meaning_follows ctx _) fun t => .answer Context.subtyped _
  | exceptionType type =>
    refine .bind (meaning_follows ctx type) fun raised => ?_
    have declared : ctx.subtyped.exceptionType = ctx.exceptionType := rfl
    dsimp only
    rw [declared]
    split
    · exact .bind (.note _ _ _) fun _ => .answer Context.subtyped _
    · exact .answer Context.subtyped _
  | exceptionVariant =>
    exact .bind (meaning_follows ctx _) fun t => .answer Context.subtyped _

theorem declareAll_follows (ctx : Context) (names : List String) (ds : List (Located Decl)) :
    Follows judging (Prod.map Context.subtyped id) (declareAll ctx names ds)
      (declareAll ctx.subtyped names ds) := by
  induction ds generalizing ctx names with
  | nil => exact .answer _ _
  | cons d ds ih =>
    rw [declareAll, declareAll]
    split
    · exact .bind (declare_follows ctx d.node) fun ctx => ih ctx names
    · split
      · exact .bind (.report _ _) fun _ => ih ctx names
      · exact .bind (declare_follows ctx d.node) fun ctx => ih ctx _

theorem declareBlock_follows (ctx : Context) (block : List (Located Decl)) :
    Follows judging Context.subtyped (declareBlock ctx block) (declareBlock ctx.subtyped block) :=
  .bind (declareAll_follows ctx [] _) fun (ctx, _) =>
    .bind (declareAll_follows ctx [] _) fun (ctx, _) =>
    .bind (.note _ _ _) fun _ => .answer Context.subtyped ctx

mutual

theorem checkDecl_follows (ctx : Context) (d : Located Decl) :
    Follows true id (checkDecl ctx d) (checkDecl ctx.subtyped d) := by
  obtain ⟨d, position⟩ := d
  exact checkDeclNode_follows ctx d
termination_by structural d

theorem checkDeclNode_follows (ctx : Context) (d : Decl) :
    Follows true id (checkDeclNode ctx d) (checkDeclNode ctx.subtyped d) := by
  cases d with
  | function modifiers name generics params result throws locals body =>
    exact .andThen (.note _ _ _) fun _ =>
      .bind (bindParams_follows (ctx.push.bindTypeVars (generics.getD [])) params) fun (ctx, _) =>
      .andThen (meanings_follows ctx throws) fun _ =>
      .andThen (declaredResult_follows ctx result) fun r =>
      .bind (declareBlock_follows ctx locals) fun ctx =>
      .andThen (checkDecls_follows ctx locals) fun _ =>
      .andThen (synth_follows ctx body) fun t => require_follows ctx t r body.position
  | typeAlias | exceptionType | exceptionVariant => exact same _
termination_by structural d

theorem checkDecls_follows (ctx : Context) (ds : List (Located Decl)) :
    Follows true id (checkDecls ctx ds) (checkDecls ctx.subtyped ds) := by
  match ds with
  | [] => exact same _
  | d :: ds =>
    exact .guarded () (.andThen (checkDecl_follows ctx d) fun _ => checkDecls_follows ctx ds)
termination_by structural ds

end

theorem checkBlock_follows (ctx : Context) (block : List (Located Decl)) :
    Follows true Context.subtyped (checkBlock ctx block) (checkBlock ctx.subtyped block) :=
  .bind (declareBlock_follows ctx block) fun ctx =>
    .bind (checkDecls_follows ctx block) fun _ => .answer Context.subtyped ctx

theorem checkModule_follows (ctx : Context) (block : List (Located Decl)) :
    Follows true Context.subtyped (checkModule ctx block) (checkModule ctx.subtyped block) := by
  refine .bind (checkBlock_follows ctx block) fun inner => ?_
  have named : inner.subtyped.scope.lookup "main" = inner.scope.lookup "main" := rfl
  dsimp only
  rw [named]
  split
  · exact .bind (.report _ _) fun _ => .answer Context.subtyped inner
  · exact .answer Context.subtyped inner

end Declarations

end StellaLang.Typing
