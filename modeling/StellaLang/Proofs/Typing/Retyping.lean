import StellaLang.Proofs.Coverage.Plain
import StellaLang.Proofs.Typing.Relocation

/-! Checking under other annotations. A change of annotations goes unnoticed if each annotation means
after it what it meant before; then expressions have the types that they had, and the faults. -/
namespace StellaLang.Typing

open Syntax (Decl Expr Node Pattern Retyping TypeExpr)
open Check Agree

/-- That each annotation means after a change of annotations what it meant before, in contexts that are
related, and in those inside of frames and type parameters. -/
structure SameMeanings (h : Retyping) (f : Option Position → Option Position)
    (R : List String → Context → Context → Prop) : Prop where
  resolve : ∀ {bound ctx ctx'}, R bound ctx ctx' → ∀ t,
    Agree (Moved f) Eq (resolve ctx [] t) (resolve ctx' [] (h bound t))
  push : ∀ {bound ctx ctx'}, R bound ctx ctx' → R bound ctx.push ctx'.push
  bindTypeVars : ∀ {bound ctx ctx'}, R bound ctx ctx' → ∀ xs,
    R (bound ++ xs) (ctx.bindTypeVars xs) (ctx'.bindTypeVars xs)

/-- That a change of annotations and places cannot be told from the contexts, either. What checking
adds to contexts leaves them related; of the aliases, only those with admitted names. -/
structure Unnoticed (h : Retyping) (f : Option Position → Option Position) (admitted : String → Prop)
    (R : List String → Context → Context → Prop) : Prop extends SameMeanings h f R where
  alike : ∀ {bound ctx ctx'}, R bound ctx ctx' → ctx.Alike ctx'
  bind : ∀ {bound ctx ctx'}, R bound ctx ctx' → ∀ x t, R bound (ctx.bind x t) (ctx'.bind x t)
  typeAlias : ∀ {bound ctx ctx'}, R bound ctx ctx' → ∀ x t, admitted x →
    R bound { ctx with aliases := (x, t) :: ctx.aliases }
      { ctx' with aliases := (x, t) :: ctx'.aliases }
  exceptionType : ∀ {bound ctx ctx'}, R bound ctx ctx' → ∀ t,
    R bound { ctx with exceptionType := some t } { ctx' with exceptionType := some t }
  exceptionVariant : ∀ {bound ctx ctx'}, R bound ctx ctx' → ∀ l t,
    R bound { ctx with exceptionVariants := ctx.exceptionVariants ++ [(l, some t)] }
      { ctx' with exceptionVariants := ctx'.exceptionVariants ++ [(l, some t)] }

/-- The same answer, in contexts that are related. -/
abbrev Declaring (R : Context → Context → Prop) (a b : Context × α) : Prop :=
  R a.1 b.1 ∧ a.2 = b.2

variable {h : Retyping} {f : Option Position → Option Position} {admitted : String → Prop}
  {R : List String → Context → Context → Prop} {bound : List String} {ctx ctx' : Context}

namespace SameMeanings

variable (law : SameMeanings h f R)

include law

theorem meaning (related : R bound ctx ctx') (t : Located TypeExpr) :
    Agree (Moved f) Eq (meaning ctx t) (meaning ctx' (h bound t)) :=
  .meaning (law.resolve related t)

theorem meanings (related : R bound ctx ctx') (ts : List (Located TypeExpr)) :
    Agree (Moved f) Eq (meanings ctx ts) (meanings ctx' (ts.map (h bound))) := by
  induction ts with
  | nil => exact .same _
  | cons t ts ih => exact .andThen (law.meaning related t) fun _ => .map ih _

end SameMeanings

namespace Unnoticed

variable (law : Unnoticed h f admitted R)

include law

theorem same (related : R bound ctx ctx') : ctx.SameTypes ctx' :=
  (law.alike related).toSameTypes

theorem bindAll (related : R bound ctx ctx') (bindings : List (String × Ty)) :
    R bound (ctx.bindAll bindings) (ctx'.bindAll bindings) := by
  induction bindings generalizing ctx ctx' with
  | nil => exact related
  | cons b bindings ih => exact ih (law.bind related b.1 b.2)

end Unnoticed

section Patterns

mutual

theorem bindings_retyped (law : Unnoticed h f admitted R)
    (related : R bound ctx ctx') (t : Ty) (p : Located Pattern) :
    Agree (Moved f) Eq (bindings ctx t p) (bindings ctx' t (Pattern.retype h f bound p)) := by
  obtain ⟨p, position⟩ := p
  exact .guarded (bindingsNode_retyped law related t position p)
termination_by structural p

theorem bindingsNode_retyped (law : Unnoticed h f admitted R)
    (related : R bound ctx ctx') (t : Ty) (position : Option Position)
    (p : Pattern) :
    Agree (Moved f) Eq (bindingsNode ctx t position p)
      (bindingsNode ctx' t (f position) (Pattern.retypeNode h f bound p)) := by
  cases p with
  | castAs q type =>
    refine .andThen (law.meaning related type) fun target => ?_
    dsimp only
    split
    · exact bindings_retyped law related target q
    · exact .andThen (report_relocated _ position) fun _ => bindings_retyped law related target q
  | ascribed q type =>
    exact .andThen (law.meaning related type) fun ascribed =>
      .andThen (require_relocated (law.same related) t ascribed position) fun _ =>
      bindings_retyped law related ascribed q
  | variant l payload =>
    cases t with
    | variant fs =>
      cases payload with
      | none =>
        rw [Pattern.retypeNode, bindingsNode_variant, bindingsNode_variant]
        rcases fs.lookup l with _ | _ | u
        · exact .map (report_relocated _ position) _
        · exact .same _
        · exact unexpectedPattern_relocated _ position
      | some q =>
        rw [Pattern.retypeNode, bindingsNode_variant, bindingsNode_variant]
        rcases fs.lookup l with _ | _ | u
        · exact .map (report_relocated _ position) _
        · exact unexpectedPattern_relocated _ position
        · exact bindings_retyped law related u q
    | never | unknown | error =>
      cases payload with
      | none => exact .same _
      | some q => exact bindings_retyped law related _ q
    | _ => cases payload <;> exact .map (report_relocated _ position) _
  | inl q =>
    cases t with
    | sum l _ => exact bindings_retyped law related l q
    | never | unknown | error => exact bindings_retyped law related _ q
    | _ => exact unexpectedPattern_relocated _ position
  | inr q =>
    cases t with
    | sum _ r => exact bindings_retyped law related r q
    | never | unknown | error => exact bindings_retyped law related _ q
    | _ => exact unexpectedPattern_relocated _ position
  | tuple ps =>
    cases t with
    | tuple ts =>
      have length : (Pattern.retypeAll h f bound ps).length = ps.length := by
        rw [Pattern.retypeAll_eq, List.length_map]
      simp only [Pattern.retypeNode, bindingsNode, length]
      split
      · exact bindingsEach_retyped law related ts ps
      · exact unexpectedPattern_relocated _ position
    | never | unknown | error => exact bindingsAll_retyped law related _ ps
    | _ => exact unexpectedPattern_relocated _ position
  | record fs =>
    cases t with
    | record gs => exact bindingsFields_retyped law related gs position fs
    | never | unknown | error => exact bindingsFieldsAll_retyped law related _ fs
    | _ => exact unexpectedPattern_relocated _ position
  | list ps =>
    cases t with
    | list u => exact bindingsAll_retyped law related u ps
    | never | unknown | error => exact bindingsAll_retyped law related _ ps
    | _ => exact unexpectedPattern_relocated _ position
  | cons h tail =>
    cases t with
    | list u =>
      exact .andThen (bindings_retyped law related u h) fun _ =>
        .map (bindings_retyped law related (.list u) tail) _
    | never | unknown | error =>
      exact .andThen (bindings_retyped law related _ h) fun _ =>
        .map (bindings_retyped law related _ tail) _
    | _ => exact unexpectedPattern_relocated _ position
  | bool _ => exact literalBindings_relocated (law.same related) t .bool position
  | unit => exact literalBindings_relocated (law.same related) t .unit position
  | nat _ => exact literalBindings_relocated (law.same related) t .nat position
  | succ q =>
    exact .andThen (literalBindings_relocated (law.same related) t .nat position) fun _ =>
      .map (bindings_retyped law related .nat q) _
  | var x => exact .same _
termination_by structural p

theorem bindingsAll_retyped (law : Unnoticed h f admitted R)
    (related : R bound ctx ctx') (t : Ty) (ps : List (Located Pattern)) :
    Agree (Moved f) Eq (bindingsAll ctx t ps)
      (bindingsAll ctx' t (Pattern.retypeAll h f bound ps)) := by
  match ps with
  | [] => exact .same _
  | p :: ps =>
    exact .andThen (bindings_retyped law related t p) fun _ =>
      .map (bindingsAll_retyped law related t ps) _
termination_by structural ps

theorem bindingsEach_retyped (law : Unnoticed h f admitted R)
    (related : R bound ctx ctx') (ts : List Ty) (ps : List (Located Pattern)) :
    Agree (Moved f) Eq (bindingsEach ctx ts ps)
      (bindingsEach ctx' ts (Pattern.retypeAll h f bound ps)) := by
  match ps, ts with
  | [], _ => exact .same _
  | _ :: _, [] => exact .same _
  | p :: ps, t :: ts =>
    exact .andThen (bindings_retyped law related t p) fun _ =>
      .map (bindingsEach_retyped law related ts ps) _
termination_by structural ps

theorem bindingsFields_retyped (law : Unnoticed h f admitted R)
    (related : R bound ctx ctx') (gs : List (String × Ty))
    (position : Option Position) (fs : List (String × Located Pattern)) :
    Agree (Moved f) Eq (bindingsFields ctx gs position fs)
      (bindingsFields ctx' gs (f position) (Pattern.retypeFields h f bound fs)) := by
  match fs with
  | [] => exact .same _
  | (l, p) :: fs =>
    rw [Pattern.retypeFields, bindingsFields_cons, bindingsFields_cons]
    cases gs.lookup l with
    | some t =>
      exact .andThen (bindings_retyped law related t p) fun _ =>
        .map (bindingsFields_retyped law related gs position fs) _
    | none =>
      exact .andThen (report_relocated _ position) fun _ =>
        bindingsFields_retyped law related gs position fs
termination_by structural fs

theorem bindingsFieldsAll_retyped (law : Unnoticed h f admitted R)
    (related : R bound ctx ctx') (t : Ty)
    (fs : List (String × Located Pattern)) :
    Agree (Moved f) Eq (bindingsFieldsAll ctx t fs)
      (bindingsFieldsAll ctx' t (Pattern.retypeFields h f bound fs)) := by
  match fs with
  | [] => exact .same _
  | (_, p) :: fs =>
    exact .andThen (bindings_retyped law related t p) fun _ =>
      .map (bindingsFieldsAll_retyped law related t fs) _
termination_by structural fs

end

end Patterns


section Expressions

theorem declareRecursive_retyped (law : Unnoticed h f admitted R)
    (related : R bound ctx ctx') (bs : List (Located Pattern × Located Expr)) :
    Agree (Moved f) (Declaring (R bound)) (declareRecursive ctx bs)
      (declareRecursive ctx' (Expr.retypeBindings h f bound bs)) := by
  induction bs generalizing ctx ctx' with
  | nil => exact .answer ⟨related, rfl⟩
  | cons b bs ih =>
    obtain ⟨⟨p, position⟩, e⟩ := b
    have failed : Agree (Moved f) (Declaring (R bound))
        (Check.report .ambiguousType position >>= fun t =>
          declareRecursive ctx bs >>= fun r => pure (r.1, t :: r.2))
        (Check.report .ambiguousType (f position) >>= fun t =>
          declareRecursive ctx' (Expr.retypeBindings h f bound bs) >>= fun r => pure (r.1, t :: r.2)) :=
      .andThen (report_relocated _ position) fun t => .bind (ih related) fun _ _ rest =>
        .answer ⟨rest.1, congrArg (t :: ·) rest.2⟩
    cases p with
    | ascribed p type =>
      exact .andThen (law.meaning related type) fun t =>
        .andThen (bindings_retyped law related t p) fun vars =>
        .bind (ih (law.bindAll related vars)) fun _ _ rest =>
        .answer ⟨rest.1, congrArg (t :: ·) rest.2⟩
    | variant l payload => cases payload <;> exact failed
    | _ => exact failed

theorem bindParams_retyped (law : Unnoticed h f admitted R)
    (related : R bound ctx ctx') (params : List (String × Located TypeExpr)) :
    Agree (Moved f) (Declaring (R bound)) (bindParams ctx params)
      (bindParams ctx' (TypeExpr.retypeFields h bound params)) := by
  induction params generalizing ctx ctx' with
  | nil => exact .answer ⟨related, rfl⟩
  | cons param params ih =>
    exact .andThen (law.meaning related param.2) fun t =>
      .bind (ih (law.bind related param.1 t)) fun _ _ rest => .answer ⟨rest.1, congrArg (t :: ·) rest.2⟩

mutual

/-- An expression has one type wherever it stands, and the same faults. -/
theorem synth_retyped (law : Unnoticed h f admitted R)
    {bound : List String} {ctx ctx' : Context} (related : R bound ctx ctx') (e : Located Expr) :
    Agree (Moved f) Eq (synth ctx e) (synth ctx' (Expr.retype h f bound e)) := by
  obtain ⟨e, position⟩ := e
  exact .guarded (.andThen (synthNode_retyped law related position e) fun t =>
    .andThen (.judge _ _ _ _ _ _) fun _ => .same t)
termination_by structural e

theorem synthNode_retyped (law : Unnoticed h f admitted R)
    {bound : List String} {ctx ctx' : Context} (related : R bound ctx ctx') (position : Option Position)
    (e : Expr) :
    Agree (Moved f) Eq (synthNode ctx position e)
      (synthNode ctx' (f position) (Expr.retypeNode h f bound e)) := by
  have same := law.same related
  cases e with
  | sequence a b =>
    rw [Expr.retypeNode, synthNode, synthNode, Expr.position_retype]
    exact .andThen (synth_retyped law related a) fun t =>
      .andThen (require_relocated same t .unit a.position) fun _ => synth_retyped law related b
  | assign target value =>
    rw [Expr.retypeNode, synthNode, synthNode, Expr.position_retype, Expr.position_retype]
    refine .andThen (synth_retyped law related target) fun t => ?_
    cases t with
    | ref referent =>
      exact .andThen (synth_retyped law related value) fun t =>
        .map (require_relocated same t referent value.position) _
    | never | unknown | error => exact .map (synth_retyped law related value) _
    | _ =>
      exact .andThen (synth_retyped law related value) fun _ =>
        .map (report_relocated _ target.position) _
  | cond condition a b =>
    rw [Expr.retypeNode, synthNode, synthNode, Expr.position_retype, Expr.position_retype]
    exact .andThen (synth_retyped law related condition) fun t =>
      .andThen (require_relocated same t .bool condition.position) fun _ =>
      .andThen (synth_retyped law related a) fun first =>
      .andThen (synth_retyped law related b) fun second => join_relocated same first second b.position
  | letIn bs body =>
    exact .bind (synthBindings_retyped law (law.push related) bs) fun _ _ inner =>
      synth_retyped law inner body
  | letRec bs body =>
    refine .bind (declareRecursive_retyped law (law.push related) bs) ?_
    rintro ⟨inner, ts⟩ ⟨inner', _⟩ ⟨related, rfl⟩
    exact .andThen (expectBindings_retyped law related ts bs) fun _ => synth_retyped law related body
  | typeAbstraction xs body =>
    exact .map (synth_retyped law (law.bindTypeVars (law.push related) xs) body) _
  | binary op a b =>
    rw [Expr.retypeNode, synthNode, synthNode, Expr.position_retype, Expr.position_retype]
    refine .andThen (synth_retyped law related a) fun first => ?_
    rcases operandType? op with ⟨_ | operand, result⟩
    · exact .andThen (synth_retyped law related b) fun second =>
        .map (join_relocated same first second b.position) _
    · exact .andThen (require_relocated same first operand a.position) fun _ =>
        .andThen (synth_retyped law related b) fun second =>
        .map (require_relocated same second operand b.position) _
  | ascribe e type =>
    rw [Expr.retypeNode, synthNode, synthNode, Expr.position_retype]
    exact .andThen (law.meaning related type) fun ascribed =>
      .andThen (synth_retyped law related e) fun t =>
      .map (require_relocated same t ascribed e.position) _
  | cast e type =>
    refine .andThen (law.meaning related type) fun target =>
      .andThen (synth_retyped law related e) fun t => ?_
    dsimp only
    split
    · exact .same _
    · exact .map (report_relocated _ position) _
  | abstraction params body =>
    refine .bind (bindParams_retyped law (law.push related) params) ?_
    rintro ⟨inner, ts⟩ ⟨inner', _⟩ ⟨related, rfl⟩
    exact .map (synth_retyped law related body) _
  | variant l payload =>
    cases payload with
    | none => exact .same _
    | some e => exact .map (synth_retyped law related e) _
  | matching e cases =>
    have patterns : ((Expr.retypeBindings h f bound cases).map (·.1)) =
        (cases.map (·.1)).map (Pattern.retype h f bound) := by
      rw [Expr.retypeBindings_eq, List.map_map, List.map_map]
      rfl
    have empty : (Expr.retypeBindings h f bound cases).isEmpty = cases.isEmpty := by
      rw [Expr.retypeBindings_eq, List.isEmpty_map]
    rw [Expr.retypeNode, synthNode, synthNode, empty]
    refine .andThen (synth_retyped law related e) fun scrutinee => ?_
    dsimp only
    rw [patterns, Coverage.missing_retype]
    split
    · exact report_relocated _ position
    · refine .andThen (joinCases_retyped law related scrutinee .unknown cases) fun result => ?_
      split
      · exact .same _
      · exact .map (report_relocated _ position) _
  | list es => exact .map (joinAll_retyped law related .unknown es) _
  | unary op e =>
    rw [Expr.retypeNode, synthNode, synthNode, Expr.position_retype]
    exact .andThen (synth_retyped law related e) fun t =>
      unaryType_relocated same position e.position op t
  | application e args =>
    have length : (Expr.retypeAll h f bound args).length = args.length := by
      rw [Expr.retypeAll_eq, List.length_map]
    rw [Expr.retypeNode, synthNode, synthNode, Expr.position_retype, length]
    refine .andThen (synth_retyped law related e) fun t => ?_
    cases t with
    | arrow params result =>
      dsimp only
      split
      · exact .map (expectEach_retyped law related params args) _
      · exact .andThen (synthAll_retyped law related args) fun _ =>
          .map (report_relocated _ e.position) _
    | _ =>
      exact .andThen (synthAll_retyped law related args) fun _ => eliminate_relocated _ _ e.position
  | typeApplication e types =>
    rw [Expr.retypeNode, synthNode, synthNode, Expr.position_retype]
    refine .andThen (synth_retyped law related e) fun t =>
      .andThen (law.meanings related types) fun args => ?_
    cases t with
    | forAll xs body =>
      dsimp only
      split
      · exact .same _
      · exact report_relocated _ e.position
    | _ => exact eliminate_relocated _ _ e.position
  | field e l =>
    rw [Expr.retypeNode, synthNode, synthNode, Expr.position_retype]
    refine .andThen (synth_retyped law related e) fun t => ?_
    cases t with
    | record fs =>
      dsimp only
      cases fs.lookup l with
      | some t => exact .same t
      | none => exact report_relocated _ position
    | _ => exact eliminate_relocated _ _ e.position
  | component e index =>
    rw [Expr.retypeNode, synthNode, synthNode, Expr.position_retype]
    refine .andThen (synth_retyped law related e) fun t => ?_
    cases t with
    | tuple ts =>
      cases index with
      | zero => exact report_relocated _ position
      | succ i =>
        dsimp only
        cases ts[i]? with
        | some t => exact .same t
        | none => exact report_relocated _ position
    | _ => exact eliminate_relocated _ _ e.position
  | tuple es => exact .map (synthAll_retyped law related es) _
  | record fs => exact .map (synthFields_retyped law related fs) _
  | cons h tail =>
    rw [Expr.retypeNode, synthNode, synthNode, Expr.position_retype]
    exact .andThen (synth_retyped law related h) fun t =>
      .andThen (synth_retyped law related tail) fun u =>
      .map (require_relocated same u (.list t) tail.position) _
  | panic => exact .same _
  | tryCatch body p handler =>
    rw [Expr.retypeNode, synthNode, synthNode, Expr.position_retype, same.exception?]
    refine .andThen (synth_retyped law related body) fun first => ?_
    have handled (exception : Ty) : Agree (Moved f) Eq
        (bindings ctx.push exception p >>= fun vars =>
          synth (ctx.push.bindAll vars) handler >>= fun second =>
          Check.join ctx first second handler.position)
        (bindings ctx'.push exception (Pattern.retype h f bound p) >>= fun vars =>
          synth (ctx'.push.bindAll vars) (Expr.retype h f bound handler) >>= fun second =>
          Check.join ctx' first second (f handler.position)) :=
      .andThen (bindings_retyped law (law.push related) exception p) fun vars =>
        .andThen (synth_retyped law (law.bindAll (law.push related) vars) handler) fun second =>
        join_relocated same first second handler.position
    cases ctx.exception? with
    | some t => exact handled t
    | none => exact .andThen (report_relocated _ position) handled
  | tryWith body fallback =>
    rw [Expr.retypeNode, synthNode, synthNode, Expr.position_retype]
    exact .andThen (synth_retyped law related body) fun first =>
      .andThen (synth_retyped law related fallback) fun second =>
      join_relocated same first second fallback.position
  | tryCast e type p success failure =>
    rw [Expr.retypeNode, synthNode, synthNode, Expr.position_retype]
    exact .andThen (synth_retyped law related e) fun _ =>
      .andThen (law.meaning related type) fun target =>
      .andThen (bindings_retyped law (law.push related) target p) fun vars =>
      .andThen (synth_retyped law (law.bindAll (law.push related) vars) success) fun first =>
      .andThen (synth_retyped law related failure) fun second =>
      join_relocated same first second failure.position
  | natRec count initial step =>
    rw [Expr.retypeNode, synthNode, synthNode, Expr.position_retype, Expr.position_retype]
    exact .andThen (synth_retyped law related count) fun t =>
      .andThen (require_relocated same t .nat count.position) fun _ =>
      .andThen (synth_retyped law related initial) fun result =>
      .andThen (synth_retyped law related step) fun t =>
      .map (require_relocated same t _ step.position) _
  | fold type e | unfold type e =>
    rw [Expr.retypeNode, synthNode, synthNode, Expr.position_retype]
    refine .andThen (law.meaning related type) fun target =>
      .andThen (synth_retyped law related e) fun t => ?_
    cases target with
    | recursive => exact .map (require_relocated same t _ e.position) _
    | never | unknown | error => exact .same _
    | _ => exact report_relocated _ position
  | literal => exact .same _
  | var x =>
    rw [Expr.retypeNode, synthNode, synthNode, (law.alike related).vars x]
    cases ctx.scope.lookup x with
    | some t => exact .same t
    | none => exact report_relocated _ position
termination_by structural e

theorem synthAll_retyped (law : Unnoticed h f admitted R)
    {bound : List String} {ctx ctx' : Context} (related : R bound ctx ctx') (es : List (Located Expr)) :
    Agree (Moved f) Eq (synthAll ctx es) (synthAll ctx' (Expr.retypeAll h f bound es)) := by
  match es with
  | [] => exact .same _
  | e :: es =>
    exact .andThen (synth_retyped law related e) fun _ => .map (synthAll_retyped law related es) _
termination_by structural es

theorem synthFields_retyped (law : Unnoticed h f admitted R)
    {bound : List String} {ctx ctx' : Context} (related : R bound ctx ctx')
    (fs : List (String × Located Expr)) :
    Agree (Moved f) Eq (synthFields ctx fs) (synthFields ctx' (Expr.retypeFields h f bound fs)) := by
  match fs with
  | [] => exact .same _
  | (_, e) :: fs =>
    exact .andThen (synth_retyped law related e) fun _ => .map (synthFields_retyped law related fs) _
termination_by structural fs

theorem expectEach_retyped (law : Unnoticed h f admitted R)
    {bound : List String} {ctx ctx' : Context} (related : R bound ctx ctx') (expected : List Ty)
    (es : List (Located Expr)) :
    Agree (Moved f) Eq (expectEach ctx expected es)
      (expectEach ctx' expected (Expr.retypeAll h f bound es)) := by
  match es, expected with
  | [], _ => exact .same _
  | _ :: _, [] => exact .same _
  | e :: es, u :: us =>
    rw [Expr.retypeAll, expectEach, expectEach, Expr.position_retype]
    exact .andThen (synth_retyped law related e) fun t =>
      .andThen (require_relocated (law.same related) t u e.position) fun _ =>
      expectEach_retyped law related us es
termination_by structural es

theorem joinAll_retyped (law : Unnoticed h f admitted R)
    {bound : List String} {ctx ctx' : Context} (related : R bound ctx ctx') (common : Ty)
    (es : List (Located Expr)) :
    Agree (Moved f) Eq (joinAll ctx common es) (joinAll ctx' common (Expr.retypeAll h f bound es)) := by
  match es with
  | [] => exact .same _
  | e :: es =>
    rw [Expr.retypeAll, joinAll, joinAll, Expr.position_retype]
    exact .andThen (synth_retyped law related e) fun t =>
      .andThen (join_relocated (law.same related) common t e.position) fun t =>
      joinAll_retyped law related t es
termination_by structural es

theorem synthBindings_retyped (law : Unnoticed h f admitted R)
    {bound : List String} {ctx ctx' : Context} (related : R bound ctx ctx')
    (bs : List (Located Pattern × Located Expr)) :
    Agree (Moved f) (R bound) (synthBindings ctx bs)
      (synthBindings ctx' (Expr.retypeBindings h f bound bs)) := by
  match bs with
  | [] => exact .answer related
  | (p, e) :: bs =>
    exact .andThen (synth_retyped law related e) fun t =>
      .andThen (bindings_retyped law related t p) fun vars =>
      synthBindings_retyped law (law.bindAll related vars) bs
termination_by structural bs

theorem expectBindings_retyped (law : Unnoticed h f admitted R)
    {bound : List String} {ctx ctx' : Context} (related : R bound ctx ctx') (expected : List Ty)
    (bs : List (Located Pattern × Located Expr)) :
    Agree (Moved f) Eq (expectBindings ctx expected bs)
      (expectBindings ctx' expected (Expr.retypeBindings h f bound bs)) := by
  match bs, expected with
  | [], _ => exact .same _
  | _ :: _, [] => exact .same _
  | (_, e) :: bs, u :: us =>
    rw [Expr.retypeBindings, expectBindings, expectBindings, Expr.position_retype]
    exact .andThen (synth_retyped law related e) fun t =>
      .andThen (require_relocated (law.same related) t u e.position) fun _ =>
      expectBindings_retyped law related us bs
termination_by structural bs

theorem joinCases_retyped (law : Unnoticed h f admitted R)
    {bound : List String} {ctx ctx' : Context} (related : R bound ctx ctx') (scrutinee common : Ty)
    (cases : List (Located Pattern × Located Expr)) :
    Agree (Moved f) Eq (joinCases ctx scrutinee common cases)
      (joinCases ctx' scrutinee common (Expr.retypeBindings h f bound cases)) := by
  match cases with
  | [] => exact .same _
  | (p, e) :: cases =>
    rw [Expr.retypeBindings, joinCases, joinCases, Expr.position_retype]
    exact .andThen (bindings_retyped law (law.push related) scrutinee p) fun vars =>
      .andThen (synth_retyped law (law.bindAll (law.push related) vars) e) fun t =>
      .andThen (join_relocated (law.same related) common t e.position) fun t =>
      joinCases_retyped law related scrutinee t cases
termination_by structural cases

end

end Expressions

end StellaLang.Typing
