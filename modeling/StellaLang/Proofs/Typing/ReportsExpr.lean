import StellaLang.Proofs.Typing.Reports

/-! How often one error is found in an expression: at most as often as the shares of the nodes below it
come to, and its own. What is reported at an expression from outside is left to what it is a part
of. -/
namespace StellaLang.Typing

open Syntax
open Check (Reports)

variable {err : TypeError}

namespace Check.Reports

variable {e : Located Expr} {n : Nat} {x : Check Ty} {f : Ty → Check α}

/-- An expression of which nothing more is asked. -/
theorem whole (found : Reports err (err.within e) x) : Reports err (err.tally (Expr.postOrder e)) x :=
  found.mono (err.within_le e)

/-- An expression that may be found fault with from outside, before or after other steps. -/
theorem around (found : Reports err (err.within e) x)
    (next : ∀ t, Reports err (err.outer e.position + n) (f t)) :
    Reports err (err.tally (Expr.postOrder e) + n) (x >>= f) := by
  have parts := err.within_add_outer e
  exact (found.bind next).mono (by omega)

theorem judged (found : Reports err (err.within e) x)
    (next : ∀ t, Reports err (err.outer e.position) (f t)) :
    Reports err (err.tally (Expr.postOrder e)) (x >>= f) :=
  found.around (n := 0) next

theorem swap {m n : Nat} {y : Check α} (found : Reports err (m + n) y) : Reports err (n + m) y :=
  found.mono (Nat.le_of_eq (Nat.add_comm m n))

end Check.Reports

/-- An operation may find fault with its operand or, if it raises, with itself. -/
theorem unaryType_reports (ctx : Context) (operation operand : Option Position) (op : UnaryOp) (t : Ty) :
    Reports err (err.outer operand + err.own operation) (unaryType ctx operation operand op t) := by
  have taken (fault : Ty → Fault) (outer : ∀ t, (fault t).reporter = .parent) (u : Ty) :
      Reports err (err.outer operand + err.own operation) (eliminate u fault operand) :=
    (Reports.eliminate outer u operand).left
  cases op with
  | ref | inl | inr => exact .answer _
  | succ | pred | isZero | not => exact ((Reports.require ctx t _ operand).map _).left
  | deref =>
    cases t with
    | ref => exact .answer _
    | _ => exact taken _ (fun _ => rfl) _
  | head | tail =>
    cases t with
    | list => exact .answer _
    | _ => exact taken _ (fun _ => rfl) _
  | isEmpty =>
    cases t with
    | list => exact .answer _
    | _ => exact (taken _ (fun _ => rfl) _).map _
  | fix =>
    cases t with
    | arrow ps r =>
      match ps with
      | [p] =>
        unfold unaryType
        dsimp only
        split
        · exact .answer _
        · exact (Reports.report_parent rfl operand).left
      | [] | _ :: _ :: _ => exact taken _ (fun _ => rfl) _
    | _ => exact taken _ (fun _ => rfl) _
  | throw =>
    unfold unaryType
    cases ctx.exception? with
    | some exception => exact ((Reports.require ctx t exception operand).map _).left
    | none => exact ((Reports.report_self rfl operation).map _).right

/-- The patterns and the expressions of some bindings, apart from each other. -/
theorem tally_bindings (err : TypeError) (bs : List (Located Pattern × Located Expr)) :
    err.tally (Expr.postOrderBindings bs) =
      err.tally (Pattern.postOrderAll (bs.map (·.1))) + err.tally (Expr.postOrderAll (bs.map (·.2))) := by
  induction bs with
  | nil => rfl
  | cons b bs ih =>
    obtain ⟨p, e⟩ := b
    simp only [Expr.postOrderBindings, List.map_cons, Pattern.postOrderAll, Expr.postOrderAll,
      TypeError.tally_append, ih]
    omega

/-- The pattern of a recursive binding is looked at for its type, or reported to have none. -/
theorem declareRecursive_reports (ctx : Context) (bs : List (Located Pattern × Located Expr)) :
    Reports err (err.tally (Pattern.postOrderAll (bs.map (·.1)))) (declareRecursive ctx bs) := by
  induction bs generalizing ctx with
  | nil => exact .answer _
  | cons b bs ih =>
    obtain ⟨⟨p, position⟩, e⟩ := b
    rw [List.map_cons, Pattern.postOrderAll, err.tally_append, Pattern.postOrder, err.tally_append,
      err.tally_single]
    have untyped : Reports err (err.share (.pattern ⟨p, position⟩) +
        err.tally (Pattern.postOrderAll (bs.map (·.1))))
        (Check.report .ambiguousType position >>= fun t => declareRecursive ctx bs >>= fun answer =>
          pure (answer.1, t :: answer.2)) :=
      (report_pattern rfl position p).bind fun t => (ih ctx).map _
    cases p with
    | ascribed p type =>
      refine ((meaning_reports ctx type).bind fun t => (bindings_reports ctx t p).bind fun bound =>
        (ih (ctx.bindAll bound)).map _).mono ?_
      rw [Pattern.inside, err.tally_append]
      omega
    | _ => exact untyped.mono (by omega)

mutual

/-- Finding the type of an expression adds no more than its share and the shares below it, without
what is reported from outside. -/
theorem synth_reports (ctx : Context) (e : Located Expr) :
    Reports err (err.within e) (synth ctx e) := by
  obtain ⟨e, position⟩ := e
  refine .guarded Ty.error ?_
  exact (synthNode_reports ctx position e).bind (n := 0) fun t => (Reports.judge ctx _ t).map _
termination_by structural e

theorem synthNode_reports (ctx : Context) (position : Option Position) (e : Expr) :
    Reports err (err.tally (Expr.inside e) + err.own position) (synthNode ctx position e) := by
  cases e with
  | sequence a b =>
    rw [Expr.inside, err.tally_append]
    exact ((synth_reports ctx a).around fun t => (Reports.require ctx t .unit a.position).bind fun _ =>
      (synth_reports ctx b).whole).left
  | assign target value =>
    rw [Expr.inside, err.tally_append]
    refine ((synth_reports ctx target).around fun t => ?_).left
    have other := (synth_reports ctx value).whole
    cases t with
    | ref referent =>
      exact ((synth_reports ctx value).judged fun t =>
        (Reports.require ctx t referent value.position).map _).right
    | never | unknown | error => exact (other.map _).right
    | _ => exact (other.bind fun _ => (Reports.report_parent rfl target.position).map _).swap
  | cond condition a b =>
    rw [Expr.inside, List.append_assoc, err.tally_append, err.tally_append]
    exact ((synth_reports ctx condition).around fun t =>
      (Reports.require ctx t .bool condition.position).bind fun _ => (synth_reports ctx a).whole.bind
        fun first => (synth_reports ctx b).judged fun second => .join ctx first second b.position).left
  | letIn bs body =>
    rw [Expr.inside, err.tally_append]
    exact ((synthBindings_reports ctx.push bs).bind fun inner => (synth_reports inner body).whole).left
  | letRec bs body =>
    rw [Expr.inside, err.tally_append, tally_bindings, Nat.add_assoc (err.tally _)]
    exact ((declareRecursive_reports ctx.push bs).bind fun (inner, ts) =>
      (expectBindings_reports inner ts bs).bind fun _ => (synth_reports inner body).whole).left
  | typeAbstraction xs body => exact ((synth_reports (ctx.push.bindTypeVars xs) body).whole.map _).left
  | binary op a b =>
    rw [Expr.inside, err.tally_append]
    refine ((synth_reports ctx a).around fun first => ?_).left
    rcases operandType? op with ⟨_ | operand, result⟩
    · exact ((synth_reports ctx b).judged fun second =>
        (Reports.join ctx first second b.position).map _).right
    · exact (Reports.require ctx first operand a.position).bind fun _ =>
        (synth_reports ctx b).judged fun second => (Reports.require ctx second operand b.position).map _
  | ascribe e type =>
    rw [Expr.inside, err.tally_append]
    exact ((meaning_reports ctx type).bind fun ascribed => (synth_reports ctx e).judged fun t =>
      (Reports.require ctx t ascribed e.position).map _).swap.left
  | cast e type =>
    rw [Expr.inside, err.tally_append, Nat.add_comm (err.tally _), Nat.add_assoc]
    refine (meaning_reports ctx type).bind fun target => (synth_reports ctx e).whole.bind fun t => ?_
    dsimp only
    split
    · exact .answer _
    · exact (Reports.report_self rfl position).map _
  | abstraction params body =>
    rw [Expr.inside, err.tally_append]
    exact ((bindParams_reports ctx.push params).bind fun (inner, _) =>
      (synth_reports inner body).whole.map _).left
  | variant l payload =>
    cases payload with
    | none => exact .answer _
    | some e => exact ((synth_reports ctx e).whole.map _).left
  | matching e cases =>
    rw [Expr.inside, err.tally_append, Nat.add_assoc]
    refine (synth_reports ctx e).whole.bind fun scrutinee => ?_
    cases cases with
    | nil => exact (Reports.report_self rfl position).right
    | cons c cases =>
      refine (joinCases_reports ctx scrutinee .unknown (c :: cases)).bind fun result => ?_
      dsimp only
      split
      · exact .answer _
      · exact (Reports.report_self rfl position).map _
  | list es => exact ((joinAll_reports ctx .unknown es).map _).left
  | unary op e =>
    exact (synth_reports ctx e).around fun t => unaryType_reports ctx position e.position op t
  | application f args =>
    rw [Expr.inside, err.tally_append]
    refine ((synth_reports ctx f).around fun t => ?_).left
    have other : Reports err (err.tally (Expr.postOrderAll args)) (synthAll ctx args) :=
      synthAll_reports ctx args
    cases t with
    | arrow params result =>
      dsimp only
      split
      · exact ((expectEach_reports ctx params args).map _).right
      · exact (other.bind fun _ => (Reports.report_parent rfl f.position).map _).swap
    | _ => exact (other.bind fun _ => .eliminate (fun _ => rfl) _ f.position).swap
  | typeApplication f types =>
    rw [Expr.inside, err.tally_append]
    refine ((synth_reports ctx f).around fun t => ?_).left
    refine Reports.swap ((meanings_reports ctx types).bind fun args => ?_)
    cases t with
    | forAll xs body =>
      dsimp only
      split
      · exact .answer _
      · exact .report_parent rfl f.position
    | _ => exact .eliminate (fun _ => rfl) _ f.position
  | field e l =>
    refine (synth_reports ctx e).around fun t => ?_
    cases t with
    | record fs =>
      dsimp only
      cases fs.lookup l with
      | some t => exact .answer t
      | none => exact (Reports.report_self rfl position).right
    | _ => exact (Reports.eliminate (fun _ => rfl) _ e.position).left
  | component e index =>
    refine (synth_reports ctx e).around fun t => ?_
    cases t with
    | tuple ts =>
      cases index with
      | zero => exact (Reports.report_self rfl position).right
      | succ i =>
        dsimp only
        cases ts[i]? with
        | some t => exact .answer t
        | none => exact (Reports.report_self rfl position).right
    | _ => exact (Reports.eliminate (fun _ => rfl) _ e.position).left
  | tuple es => exact ((synthAll_reports ctx es).map _).left
  | record fs => exact ((synthFields_reports ctx fs).map _).left
  | cons h tail =>
    rw [Expr.inside, err.tally_append]
    exact ((synth_reports ctx h).whole.bind fun t => (synth_reports ctx tail).judged fun u =>
      (Reports.require ctx u (.list t) tail.position).map _).left
  | panic => exact .answer _
  | tryCatch body p handler =>
    rw [Expr.inside, List.append_assoc, err.tally_append, err.tally_append, Nat.add_assoc]
    refine (synth_reports ctx body).whole.bind fun first => ?_
    have handled (exception : Ty) : Reports err
        (err.tally (Pattern.postOrder p) + err.tally (Expr.postOrder handler))
        (bindings ctx.push exception p >>= fun bound =>
          synth (ctx.push.bindAll bound) handler >>= fun second =>
          Check.join ctx first second handler.position) :=
      (bindings_reports ctx.push exception p).bind fun bound =>
        (synth_reports (ctx.push.bindAll bound) handler).judged fun second =>
        .join ctx first second handler.position
    cases ctx.exception? with
    | some t => exact (handled t).left
    | none => exact ((Reports.report_self rfl position).bind handled).swap
  | tryWith body fallback =>
    rw [Expr.inside, err.tally_append]
    exact ((synth_reports ctx body).whole.bind fun first => (synth_reports ctx fallback).judged
      fun second => .join ctx first second fallback.position).left
  | tryCast e type p success failure =>
    simp only [Expr.inside, List.append_assoc, err.tally_append]
    exact ((synth_reports ctx e).whole.bind fun _ => (meaning_reports ctx type).bind fun target =>
      (bindings_reports ctx.push target p).bind fun bound =>
      (synth_reports (ctx.push.bindAll bound) success).whole.bind fun first =>
      (synth_reports ctx failure).judged fun second =>
      .join ctx first second failure.position).left
  | natRec count initial step =>
    rw [Expr.inside, List.append_assoc, err.tally_append, err.tally_append]
    exact ((synth_reports ctx count).around fun t =>
      (Reports.require ctx t .nat count.position).bind fun _ =>
      (synth_reports ctx initial).whole.bind fun result => (synth_reports ctx step).judged fun t =>
      (Reports.require ctx t _ step.position).map _).left
  | fold type e | unfold type e =>
    rw [Expr.inside, err.tally_append, Nat.add_assoc]
    refine (meaning_reports ctx type).bind fun target => (synth_reports ctx e).around fun t => ?_
    cases target with
    | recursive => exact ((Reports.require ctx t _ e.position).map _).left
    | never | unknown | error => exact .answer _
    | _ => exact (Reports.report_self rfl position).right
  | literal => exact .answer _
  | var x =>
    rw [synthNode]
    cases ctx.scope.lookup x with
    | some t => exact .answer t
    | none => exact (Reports.report_self rfl position).right
termination_by structural e

theorem synthAll_reports (ctx : Context) (es : List (Located Expr)) :
    Reports err (err.tally (Expr.postOrderAll es)) (synthAll ctx es) := by
  match es with
  | [] => exact .answer _
  | e :: es =>
    rw [Expr.postOrderAll, err.tally_append]
    exact (synth_reports ctx e).whole.bind fun _ => (synthAll_reports ctx es).map _
termination_by structural es

theorem synthFields_reports (ctx : Context) (fs : List (String × Located Expr)) :
    Reports err (err.tally (Expr.postOrderFields fs)) (synthFields ctx fs) := by
  match fs with
  | [] => exact .answer _
  | (_, e) :: fs =>
    rw [Expr.postOrderFields, err.tally_append]
    exact (synth_reports ctx e).whole.bind fun _ => (synthFields_reports ctx fs).map _
termination_by structural fs

theorem expectEach_reports (ctx : Context) (expected : List Ty) (es : List (Located Expr)) :
    Reports err (err.tally (Expr.postOrderAll es)) (expectEach ctx expected es) := by
  match es, expected with
  | [], _ => exact .answer _
  | _ :: _, [] => exact .answer _
  | e :: es, u :: us =>
    rw [Expr.postOrderAll, err.tally_append]
    exact (synth_reports ctx e).around fun t => (Reports.require ctx t u e.position).bind fun _ =>
      expectEach_reports ctx us es
termination_by structural es

theorem joinAll_reports (ctx : Context) (common : Ty) (es : List (Located Expr)) :
    Reports err (err.tally (Expr.postOrderAll es)) (joinAll ctx common es) := by
  match es with
  | [] => exact .answer _
  | e :: es =>
    rw [Expr.postOrderAll, err.tally_append]
    exact (synth_reports ctx e).around fun t => (Reports.join ctx common t e.position).bind fun t =>
      joinAll_reports ctx t es
termination_by structural es

theorem synthBindings_reports (ctx : Context) (bs : List (Located Pattern × Located Expr)) :
    Reports err (err.tally (Expr.postOrderBindings bs)) (synthBindings ctx bs) := by
  match bs with
  | [] => exact .answer _
  | (p, e) :: bs =>
    refine ((synth_reports ctx e).whole.bind fun t => (bindings_reports ctx t p).bind fun bound =>
      synthBindings_reports (ctx.bindAll bound) bs).mono ?_
    rw [Expr.postOrderBindings, err.tally_append, err.tally_append]
    omega
termination_by structural bs

theorem expectBindings_reports (ctx : Context) (expected : List Ty)
    (bs : List (Located Pattern × Located Expr)) :
    Reports err (err.tally (Expr.postOrderAll (bs.map (·.2)))) (expectBindings ctx expected bs) := by
  match bs, expected with
  | [], _ => exact .answer _
  | _ :: _, [] => exact .answer _
  | (_, e) :: bs, u :: us =>
    rw [List.map_cons, Expr.postOrderAll, err.tally_append]
    exact (synth_reports ctx e).around fun t => (Reports.require ctx t u e.position).bind fun _ =>
      expectBindings_reports ctx us bs
termination_by structural bs

theorem joinCases_reports (ctx : Context) (scrutinee common : Ty)
    (cases : List (Located Pattern × Located Expr)) :
    Reports err (err.tally (Expr.postOrderBindings cases)) (joinCases ctx scrutinee common cases) := by
  match cases with
  | [] => exact .answer _
  | (p, e) :: cases =>
    rw [Expr.postOrderBindings, List.append_assoc, err.tally_append, err.tally_append]
    exact (bindings_reports ctx.push scrutinee p).bind fun bound =>
      (synth_reports (ctx.push.bindAll bound) e).around fun t =>
      (Reports.join ctx common t e.position).bind fun t => joinCases_reports ctx scrutinee t cases
termination_by structural cases

end

end StellaLang.Typing
