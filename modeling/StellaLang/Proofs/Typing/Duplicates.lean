import StellaLang.Proofs.Typing.Findings

/-! Which steps of the checker find declarations whose names are taken. Only a block finds them; what
an annotation means, what a pattern binds and what type an expression has are found without. -/
namespace StellaLang.Typing

open Syntax (Expr Pattern TypeExpr UnaryOp)

/-- Whether the fault is that a name is taken. -/
def Fault.isDuplicate : Fault → Bool
  | duplicateDeclaration _ => true
  | _ => false

def TypeError.isDuplicate (err : TypeError) : Bool :=
  err.fault.isDuplicate

namespace Check

/-- That of the errors that a step finds, those about names that are taken are these, in some order. -/
def Reveals (duplicates : List TypeError) (x : Check α) : Prop :=
  ∃ a es, Gives x a es ∧ (es.filter TypeError.isDuplicate).Perm duplicates

namespace Reveals

variable {ds es : List TypeError} {x : Check α}

theorem answer (a : α) : Reveals [] (pure a) :=
  ⟨a, [], .answer a, .nil⟩

theorem perm (revealed : Reveals ds x) (permuted : ds.Perm es) : Reveals es x := by
  obtain ⟨a, errors, found, those⟩ := revealed
  exact ⟨a, errors, found, those.trans permuted⟩

theorem append {f : α → Check β} (first : Reveals ds x) (next : ∀ a, Reveals es (f a)) :
    Reveals (ds ++ es) (x >>= f) := by
  obtain ⟨a, errors, found, revealed⟩ := first
  obtain ⟨b, errors', found', revealed'⟩ := next a
  refine ⟨b, errors ++ errors', found.bind found', ?_⟩
  rw [List.filter_append]
  exact revealed.append revealed'

/-- Where the first step finds none. -/
theorem bind {f : α → Check β} (first : Reveals [] x) (next : ∀ a, Reveals es (f a)) :
    Reveals es (x >>= f) :=
  first.append next

theorem map (first : Reveals [] x) (h : α → β) : Reveals [] (x >>= fun a => pure (h a)) :=
  first.bind fun a => answer (h a)

theorem guarded (skipped : α) (inner : Reveals ds x) : Reveals ds (guarded skipped x) := by
  obtain ⟨a, errors, found, revealed⟩ := inner
  exact ⟨a, errors, found.guarded skipped, revealed⟩

theorem note (level : Log.Level) (topic text : String) : Reveals [] (note level topic text) :=
  ⟨(), [], .note level topic text, .nil⟩

theorem judge (ctx : Context) (e : Located Expr) (t : Ty) : Reveals [] (judge ctx e t) :=
  ⟨(), [], .judge ctx e t, .nil⟩

theorem meaning {ctx : Context} {t : Located TypeExpr} (resolved : Reveals ds (resolve ctx [] t)) :
    Reveals ds (meaning ctx t) := by
  obtain ⟨a, errors, found, revealed⟩ := resolved
  exact ⟨a, errors, found.meaning, revealed⟩

theorem report {fault : Fault} (other : fault.isDuplicate = false) (position : Option Position) :
    Reveals [] (report fault position) := by
  refine ⟨.error, _, .report fault position, ?_⟩
  have plain : (fault.at position).isDuplicate = false := by
    cases fault <;> first | rfl | contradiction
  rw [List.filter_cons_of_neg (by simp [plain])]
  exact .nil

theorem require (ctx : Context) (t u : Ty) (position : Option Position) :
    Reveals [] (require ctx t u position) := by
  unfold Check.require
  split
  · exact answer ()
  · exact (report rfl position).map _

theorem join (ctx : Context) (t u : Ty) (position : Option Position) :
    Reveals [] (join ctx t u position) := by
  unfold Check.join
  split
  · exact answer _
  · exact report rfl position

theorem eliminate {fault : Ty → Fault} (other : ∀ t, (fault t).isDuplicate = false) (t : Ty)
    (position : Option Position) : Reveals [] (eliminate t fault position) := by
  unfold Typing.eliminate
  split
  · exact answer _
  split
  · exact answer _
  · exact report (other t) position

end Reveals

end Check

open Check (Reveals)

section Annotations

mutual

theorem resolve_reveals (ctx : Context) (bound : List String) (t : Located TypeExpr) :
    Reveals [] (resolve ctx bound t) := by
  obtain ⟨t, position⟩ := t
  exact resolveNode_reveals ctx bound position t
termination_by structural t

theorem resolveNode_reveals (ctx : Context) (bound : List String) (position : Option Position)
    (t : TypeExpr) : Reveals [] (resolveNode ctx bound position t) := by
  cases t with
  | auto | bool | nat | unit | top | bottom => exact .answer _
  | var x =>
    rw [resolveNode]
    split
    · exact .answer _
    split
    · exact .answer _
    · exact .report rfl position
  | arrow ps r => exact (resolveAll_reveals ctx bound ps).bind fun _ => (resolve_reveals ctx bound r).map _
  | sum l r => exact (resolve_reveals ctx bound l).bind fun _ => (resolve_reveals ctx bound r).map _
  | forAll xs b => exact (resolve_reveals ctx (bound ++ xs) b).map _
  | recursive x b => exact (resolve_reveals ctx (bound ++ [x]) b).map _
  | tuple ts => exact (resolveAll_reveals ctx bound ts).map _
  | record fs => exact (resolveFields_reveals ctx bound fs).map _
  | variant fs => exact (resolveAlternatives_reveals ctx bound fs).map _
  | list t | ref t => exact (resolve_reveals ctx bound t).map _
termination_by structural t

theorem resolveAll_reveals (ctx : Context) (bound : List String) (ts : List (Located TypeExpr)) :
    Reveals [] (resolveAll ctx bound ts) := by
  match ts with
  | [] => exact .answer _
  | t :: ts => exact (resolve_reveals ctx bound t).bind fun _ => (resolveAll_reveals ctx bound ts).map _
termination_by structural ts

theorem resolveFields_reveals (ctx : Context) (bound : List String)
    (fs : List (String × Located TypeExpr)) : Reveals [] (resolveFields ctx bound fs) := by
  match fs with
  | [] => exact .answer _
  | (_, t) :: fs =>
    exact (resolve_reveals ctx bound t).bind fun _ => (resolveFields_reveals ctx bound fs).map _
termination_by structural fs

theorem resolveAlternatives_reveals (ctx : Context) (bound : List String)
    (fs : List (String × Option (Located TypeExpr))) : Reveals [] (resolveAlternatives ctx bound fs) := by
  match fs with
  | [] => exact .answer _
  | (_, none) :: fs => exact (resolveAlternatives_reveals ctx bound fs).map _
  | (_, some t) :: fs =>
    exact (resolve_reveals ctx bound t).bind fun _ => (resolveAlternatives_reveals ctx bound fs).map _
termination_by structural fs

end

theorem meaning_reveals (ctx : Context) (t : Located TypeExpr) : Reveals [] (meaning ctx t) :=
  (resolve_reveals ctx [] t).meaning

theorem meanings_reveals (ctx : Context) (ts : List (Located TypeExpr)) : Reveals [] (meanings ctx ts) := by
  induction ts with
  | nil => exact .answer _
  | cons t ts ih => exact (meaning_reveals ctx t).bind fun _ => ih.map _

theorem bindParams_reveals (ctx : Context) (params : List (String × Located TypeExpr)) :
    Reveals [] (bindParams ctx params) := by
  induction params generalizing ctx with
  | nil => exact .answer _
  | cons param params ih =>
    exact (meaning_reveals ctx param.2).bind fun t => (ih (ctx.bind param.1 t)).map _

end Annotations

section Patterns

theorem unexpectedPattern_reveals (t : Ty) (position : Option Position) :
    Reveals [] (unexpectedPattern t position) :=
  (Reveals.report rfl position).map _

theorem literalBindings_reveals (ctx : Context) (t expected : Ty) (position : Option Position) :
    Reveals [] (literalBindings ctx t expected position) := by
  unfold literalBindings
  split
  · exact .answer _
  · exact unexpectedPattern_reveals t position

mutual

theorem bindings_reveals (ctx : Context) (t : Ty) (p : Located Pattern) :
    Reveals [] (bindings ctx t p) := by
  obtain ⟨p, position⟩ := p
  exact .guarded [] (bindingsNode_reveals ctx t position p)
termination_by structural p

theorem bindingsNode_reveals (ctx : Context) (t : Ty) (position : Option Position) (p : Pattern) :
    Reveals [] (bindingsNode ctx t position p) := by
  cases p with
  | castAs q type =>
    refine (meaning_reveals ctx type).bind fun target => ?_
    dsimp only
    split
    · exact bindings_reveals ctx target q
    · exact (Reveals.report rfl position).bind fun _ => bindings_reveals ctx target q
  | ascribed q type =>
    exact (meaning_reveals ctx type).bind fun ascribed =>
      (Reveals.require ctx t ascribed position).bind fun _ => bindings_reveals ctx ascribed q
  | variant l payload =>
    cases t with
    | variant fs =>
      rw [bindingsNode_variant]
      rcases fs.lookup l with _ | _ | u
      · exact (Reveals.report rfl position).map _
      · cases payload with
        | none => exact .answer _
        | some q => exact unexpectedPattern_reveals _ position
      · cases payload with
        | none => exact unexpectedPattern_reveals _ position
        | some q => exact bindings_reveals ctx u q
    | never | unknown | error =>
      cases payload with
      | none => exact .answer _
      | some q => exact bindings_reveals ctx _ q
    | _ => exact (Reveals.report rfl position).map _
  | inl q =>
    cases t with
    | sum l _ => exact bindings_reveals ctx l q
    | never | unknown | error => exact bindings_reveals ctx _ q
    | _ => exact unexpectedPattern_reveals _ position
  | inr q =>
    cases t with
    | sum _ r => exact bindings_reveals ctx r q
    | never | unknown | error => exact bindings_reveals ctx _ q
    | _ => exact unexpectedPattern_reveals _ position
  | tuple ps =>
    cases t with
    | tuple ts =>
      simp only [bindingsNode]
      split
      · exact bindingsEach_reveals ctx ts ps
      · exact unexpectedPattern_reveals _ position
    | never | unknown | error => exact bindingsAll_reveals ctx _ ps
    | _ => exact unexpectedPattern_reveals _ position
  | record fs =>
    cases t with
    | record gs => exact bindingsFields_reveals ctx gs position fs
    | never | unknown | error => exact bindingsFieldsAll_reveals ctx _ fs
    | _ => exact unexpectedPattern_reveals _ position
  | list ps =>
    cases t with
    | list u => exact bindingsAll_reveals ctx u ps
    | never | unknown | error => exact bindingsAll_reveals ctx _ ps
    | _ => exact unexpectedPattern_reveals _ position
  | cons h tail =>
    have both (u v : Ty) : Reveals [] (do return (← bindings ctx u h) ++ (← bindings ctx v tail)) :=
      (bindings_reveals ctx u h).bind fun _ => (bindings_reveals ctx v tail).map _
    cases t with
    | list u => exact both u (.list u)
    | never | unknown | error => exact both _ _
    | _ => exact unexpectedPattern_reveals _ position
  | bool _ => exact literalBindings_reveals ctx t .bool position
  | unit => exact literalBindings_reveals ctx t .unit position
  | nat _ => exact literalBindings_reveals ctx t .nat position
  | succ q =>
    exact (literalBindings_reveals ctx t .nat position).bind fun _ => (bindings_reveals ctx .nat q).map _
  | var x => exact .answer _
termination_by structural p

theorem bindingsAll_reveals (ctx : Context) (t : Ty) (ps : List (Located Pattern)) :
    Reveals [] (bindingsAll ctx t ps) := by
  match ps with
  | [] => exact .answer _
  | p :: ps => exact (bindings_reveals ctx t p).bind fun _ => (bindingsAll_reveals ctx t ps).map _
termination_by structural ps

theorem bindingsEach_reveals (ctx : Context) (ts : List Ty) (ps : List (Located Pattern)) :
    Reveals [] (bindingsEach ctx ts ps) := by
  match ps, ts with
  | [], _ => exact .answer _
  | _ :: _, [] => exact .answer _
  | p :: ps, t :: ts => exact (bindings_reveals ctx t p).bind fun _ => (bindingsEach_reveals ctx ts ps).map _
termination_by structural ps

theorem bindingsFields_reveals (ctx : Context) (gs : List (String × Ty)) (position : Option Position)
    (fs : List (String × Located Pattern)) : Reveals [] (bindingsFields ctx gs position fs) := by
  match fs with
  | [] => exact .answer _
  | (l, p) :: fs =>
    have rest := bindingsFields_reveals ctx gs position fs
    rw [bindingsFields_cons]
    cases gs.lookup l with
    | some t => exact (bindings_reveals ctx t p).bind fun _ => rest.map _
    | none => exact (Reveals.report rfl position).bind fun _ => rest
termination_by structural fs

theorem bindingsFieldsAll_reveals (ctx : Context) (t : Ty) (fs : List (String × Located Pattern)) :
    Reveals [] (bindingsFieldsAll ctx t fs) := by
  match fs with
  | [] => exact .answer _
  | (_, p) :: fs => exact (bindings_reveals ctx t p).bind fun _ => (bindingsFieldsAll_reveals ctx t fs).map _
termination_by structural fs

end

end Patterns

section Expressions

theorem unaryType_reveals (ctx : Context) (operation operand : Option Position) (op : UnaryOp) (t : Ty) :
    Reveals [] (unaryType ctx operation operand op t) := by
  have taken (fault : Ty → Fault) (other : ∀ t, (fault t).isDuplicate = false) (u : Ty) :
      Reveals [] (eliminate u fault operand) := .eliminate other u operand
  cases op with
  | ref | inl | inr => exact .answer _
  | succ | pred | isZero | not => exact (Reveals.require ctx t _ operand).map _
  | deref =>
    cases t with
    | ref => exact .answer _
    | _ => exact taken _ (fun _ => rfl) _
  | head | tail =>
    cases t with
    | list => exact .answer _
    | _ => exact taken _ (fun _ => rfl) _
  | isEmpty =>
    cases t with
    | list => exact .answer _
    | _ => exact (taken _ (fun _ => rfl) _).map _
  | fix =>
    cases t with
    | arrow ps r =>
      match ps with
      | [p] =>
        unfold unaryType
        dsimp only
        split
        · exact .answer _
        · exact .report rfl operand
      | [] | _ :: _ :: _ => exact taken _ (fun _ => rfl) _
    | _ => exact taken _ (fun _ => rfl) _
  | throw =>
    unfold unaryType
    cases ctx.exception? with
    | some exception => exact (Reveals.require ctx t exception operand).map _
    | none => exact (Reveals.report rfl operation).map _

theorem declareRecursive_reveals (ctx : Context) (bs : List (Located Pattern × Located Expr)) :
    Reveals [] (declareRecursive ctx bs) := by
  induction bs generalizing ctx with
  | nil => exact .answer _
  | cons b bs ih =>
    obtain ⟨⟨p, position⟩, e⟩ := b
    cases p with
    | ascribed p type =>
      exact (meaning_reveals ctx type).bind fun t => (bindings_reveals ctx t p).bind fun bound =>
        (ih (ctx.bindAll bound)).map _
    | _ => exact (Reveals.report rfl position).bind fun t => (ih ctx).map _

mutual

theorem synth_reveals (ctx : Context) (e : Located Expr) : Reveals [] (synth ctx e) := by
  obtain ⟨e, position⟩ := e
  exact .guarded Ty.error <| (synthNode_reveals ctx position e).bind fun t => (Reveals.judge ctx _ t).map _
termination_by structural e

theorem synthNode_reveals (ctx : Context) (position : Option Position) (e : Expr) :
    Reveals [] (synthNode ctx position e) := by
  cases e with
  | sequence a b =>
    exact (synth_reveals ctx a).bind fun t => (Reveals.require ctx t .unit a.position).bind fun _ =>
      synth_reveals ctx b
  | assign target value =>
    refine (synth_reveals ctx target).bind fun t => ?_
    have other := synth_reveals ctx value
    cases t with
    | ref referent => exact other.bind fun t => (Reveals.require ctx t referent value.position).map _
    | never | unknown | error => exact other.map _
    | _ => exact other.bind fun _ => (Reveals.report rfl target.position).map _
  | cond condition a b =>
    exact (synth_reveals ctx condition).bind fun t =>
      (Reveals.require ctx t .bool condition.position).bind fun _ => (synth_reveals ctx a).bind
        fun first => (synth_reveals ctx b).bind fun second => .join ctx first second b.position
  | letIn bs body =>
    exact (synthBindings_reveals ctx.push bs).bind fun inner => synth_reveals inner body
  | letRec bs body =>
    exact (declareRecursive_reveals ctx.push bs).bind fun (inner, ts) =>
      (expectBindings_reveals inner ts bs).bind fun _ => synth_reveals inner body
  | typeAbstraction xs body => exact (synth_reveals (ctx.push.bindTypeVars xs) body).map _
  | binary op a b =>
    refine (synth_reveals ctx a).bind fun first => ?_
    rcases operandType? op with ⟨_ | operand, result⟩
    · exact (synth_reveals ctx b).bind fun second => (Reveals.join ctx first second b.position).map _
    · exact (Reveals.require ctx first operand a.position).bind fun _ =>
        (synth_reveals ctx b).bind fun second => (Reveals.require ctx second operand b.position).map _
  | ascribe e type =>
    exact (meaning_reveals ctx type).bind fun ascribed => (synth_reveals ctx e).bind fun t =>
      (Reveals.require ctx t ascribed e.position).map _
  | cast e type =>
    refine (meaning_reveals ctx type).bind fun target => (synth_reveals ctx e).bind fun t => ?_
    dsimp only
    split
    · exact .answer _
    · exact (Reveals.report rfl position).map _
  | abstraction params body =>
    exact (bindParams_reveals ctx.push params).bind fun (inner, _) => (synth_reveals inner body).map _
  | variant l payload =>
    cases payload with
    | none => exact .answer _
    | some e => exact (synth_reveals ctx e).map _
  | matching e cases =>
    refine (synth_reveals ctx e).bind fun scrutinee => ?_
    cases cases with
    | nil => exact .report rfl position
    | cons c cases =>
      refine (joinCases_reveals ctx scrutinee .unknown (c :: cases)).bind fun result => ?_
      dsimp only
      split
      · exact .answer _
      · exact (Reveals.report rfl position).map _
  | list es => exact (joinAll_reveals ctx .unknown es).map _
  | unary op e =>
    exact (synth_reveals ctx e).bind fun t => unaryType_reveals ctx position e.position op t
  | application f args =>
    refine (synth_reveals ctx f).bind fun t => ?_
    have other : Reveals [] (synthAll ctx args) := synthAll_reveals ctx args
    cases t with
    | arrow params result =>
      dsimp only
      split
      · exact (expectEach_reveals ctx params args).map _
      · exact other.bind fun _ => (Reveals.report rfl f.position).map _
    | _ => exact other.bind fun _ => .eliminate (fun _ => rfl) _ f.position
  | typeApplication f types =>
    refine (synth_reveals ctx f).bind fun t => (meanings_reveals ctx types).bind fun args => ?_
    cases t with
    | forAll xs body =>
      dsimp only
      split
      · exact .answer _
      · exact .report rfl f.position
    | _ => exact .eliminate (fun _ => rfl) _ f.position
  | field e l =>
    refine (synth_reveals ctx e).bind fun t => ?_
    cases t with
    | record fs =>
      dsimp only
      cases fs.lookup l with
      | some t => exact .answer t
      | none => exact .report rfl position
    | _ => exact .eliminate (fun _ => rfl) _ e.position
  | component e index =>
    refine (synth_reveals ctx e).bind fun t => ?_
    cases t with
    | tuple ts =>
      cases index with
      | zero => exact .report rfl position
      | succ i =>
        dsimp only
        cases ts[i]? with
        | some t => exact .answer t
        | none => exact .report rfl position
    | _ => exact .eliminate (fun _ => rfl) _ e.position
  | tuple es => exact (synthAll_reveals ctx es).map _
  | record fs => exact (synthFields_reveals ctx fs).map _
  | cons h tail =>
    exact (synth_reveals ctx h).bind fun t => (synth_reveals ctx tail).bind fun u =>
      (Reveals.require ctx u (.list t) tail.position).map _
  | panic => exact .answer _
  | tryCatch body p handler =>
    refine (synth_reveals ctx body).bind fun first => ?_
    have handled (exception : Ty) : Reveals [] (bindings ctx.push exception p >>= fun bound =>
        synth (ctx.push.bindAll bound) handler >>= fun second =>
        Check.join ctx first second handler.position) :=
      (bindings_reveals ctx.push exception p).bind fun bound =>
        (synth_reveals (ctx.push.bindAll bound) handler).bind fun second =>
        .join ctx first second handler.position
    cases ctx.exception? with
    | some t => exact handled t
    | none => exact (Reveals.report rfl position).bind handled
  | tryWith body fallback =>
    exact (synth_reveals ctx body).bind fun first => (synth_reveals ctx fallback).bind
      fun second => .join ctx first second fallback.position
  | tryCast e type p success failure =>
    exact (synth_reveals ctx e).bind fun _ => (meaning_reveals ctx type).bind fun target =>
      (bindings_reveals ctx.push target p).bind fun bound =>
      (synth_reveals (ctx.push.bindAll bound) success).bind fun first =>
      (synth_reveals ctx failure).bind fun second => .join ctx first second failure.position
  | natRec count initial step =>
    exact (synth_reveals ctx count).bind fun t =>
      (Reveals.require ctx t .nat count.position).bind fun _ =>
      (synth_reveals ctx initial).bind fun result => (synth_reveals ctx step).bind fun t =>
      (Reveals.require ctx t _ step.position).map _
  | fold type e | unfold type e =>
    refine (meaning_reveals ctx type).bind fun target => (synth_reveals ctx e).bind fun t => ?_
    cases target with
    | recursive => exact (Reveals.require ctx t _ e.position).map _
    | never | unknown | error => exact .answer _
    | _ => exact .report rfl position
  | literal => exact .answer _
  | var x =>
    rw [synthNode]
    cases ctx.scope.lookup x with
    | some t => exact .answer t
    | none => exact .report rfl position
termination_by structural e

theorem synthAll_reveals (ctx : Context) (es : List (Located Expr)) : Reveals [] (synthAll ctx es) := by
  match es with
  | [] => exact .answer _
  | e :: es => exact (synth_reveals ctx e).bind fun _ => (synthAll_reveals ctx es).map _
termination_by structural es

theorem synthFields_reveals (ctx : Context) (fs : List (String × Located Expr)) :
    Reveals [] (synthFields ctx fs) := by
  match fs with
  | [] => exact .answer _
  | (_, e) :: fs => exact (synth_reveals ctx e).bind fun _ => (synthFields_reveals ctx fs).map _
termination_by structural fs

theorem expectEach_reveals (ctx : Context) (expected : List Ty) (es : List (Located Expr)) :
    Reveals [] (expectEach ctx expected es) := by
  match es, expected with
  | [], _ => exact .answer _
  | _ :: _, [] => exact .answer _
  | e :: es, u :: us =>
    exact (synth_reveals ctx e).bind fun t => (Reveals.require ctx t u e.position).bind fun _ =>
      expectEach_reveals ctx us es
termination_by structural es

theorem joinAll_reveals (ctx : Context) (common : Ty) (es : List (Located Expr)) :
    Reveals [] (joinAll ctx common es) := by
  match es with
  | [] => exact .answer _
  | e :: es =>
    exact (synth_reveals ctx e).bind fun t => (Reveals.join ctx common t e.position).bind fun t =>
      joinAll_reveals ctx t es
termination_by structural es

theorem synthBindings_reveals (ctx : Context) (bs : List (Located Pattern × Located Expr)) :
    Reveals [] (synthBindings ctx bs) := by
  match bs with
  | [] => exact .answer _
  | (p, e) :: bs =>
    exact (synth_reveals ctx e).bind fun t => (bindings_reveals ctx t p).bind fun bound =>
      synthBindings_reveals (ctx.bindAll bound) bs
termination_by structural bs

theorem expectBindings_reveals (ctx : Context) (expected : List Ty)
    (bs : List (Located Pattern × Located Expr)) : Reveals [] (expectBindings ctx expected bs) := by
  match bs, expected with
  | [], _ => exact .answer _
  | _ :: _, [] => exact .answer _
  | (_, e) :: bs, u :: us =>
    exact (synth_reveals ctx e).bind fun t => (Reveals.require ctx t u e.position).bind fun _ =>
      expectBindings_reveals ctx us bs
termination_by structural bs

theorem joinCases_reveals (ctx : Context) (scrutinee common : Ty)
    (cases : List (Located Pattern × Located Expr)) : Reveals [] (joinCases ctx scrutinee common cases) := by
  match cases with
  | [] => exact .answer _
  | (p, e) :: cases =>
    exact (bindings_reveals ctx.push scrutinee p).bind fun bound =>
      (synth_reveals (ctx.push.bindAll bound) e).bind fun t =>
      (Reveals.join ctx common t e.position).bind fun t => joinCases_reveals ctx scrutinee t cases
termination_by structural cases

end

end Expressions

end StellaLang.Typing
