import StellaLang.Proofs.Typing.Scoping

/-! Types stay well scoped. What is declared or bound inside a well-scoped context makes a
well-scoped context, and the type of an expression outlives the context of its parts without a type
variable of theirs. -/
namespace StellaLang.Typing

open Syntax (Decl Expr Pattern Program TypeExpr UnaryOp)
open Check Check.Scoped
open Ty (Within)

section Expressions

variable {names : String → Prop} {ctx : Context}

theorem join_scoped {t u : Ty} (first : t.Within names) (second : u.Within names)
    (position : Option Position) : Scoped (Within names) (Check.join ctx t u position) := by
  unfold Check.join
  split
  · exact .answer (first.merge second)
  · exact .report _ _ (.of_closed rfl)

theorem eliminate_scoped (found : Ty) (fault : Ty → Fault) (position : Option Position) :
    Scoped (Within names) (eliminate found fault position) := by
  unfold eliminate
  split
  · exact .answer (.of_closed rfl)
  split
  · exact .answer (.of_closed rfl)
  · exact .report _ _ (.of_closed rfl)

theorem required_scoped (ctx : Context) (found expected : Ty) (position : Option Position) {t : Ty}
    (within : t.Within names) :
    Scoped (Within names) (Check.require ctx found expected position >>= fun _ => pure t) :=
  .map (.require ctx found expected position) fun _ _ => within

theorem unaryType_scoped (operation operand : Option Position) (op : UnaryOp) {t : Ty}
    (within : t.Within names) :
    Scoped (Within names) (unaryType ctx operation operand op t) := by
  cases op with
  | ref => exact .answer (Within.ref_iff.mpr within)
  | inl => exact .answer (Within.sum_iff.mpr ⟨within, .of_closed rfl⟩)
  | inr => exact .answer (Within.sum_iff.mpr ⟨.of_closed rfl, within⟩)
  | succ | pred | isZero | not => exact required_scoped _ _ _ _ (.of_closed rfl)
  | deref =>
    cases t with
    | ref referent => exact .answer (Within.ref_iff.mp within)
    | _ => exact eliminate_scoped _ _ _
  | head =>
    cases t with
    | list element => exact .answer (Within.list_iff.mp within)
    | _ => exact eliminate_scoped _ _ _
  | tail =>
    cases t with
    | list => exact .answer within
    | _ => exact eliminate_scoped _ _ _
  | isEmpty =>
    cases t with
    | list => exact .answer (.of_closed rfl)
    | _ =>
      exact .bind (eliminate_scoped _ _ _ : Scoped (Within names) _) fun _ _ => .answer (.of_closed rfl)
  | fix =>
    cases t with
    | arrow ps r =>
      obtain ⟨params, result⟩ := Within.arrow_iff.mp within
      match ps with
      | [p] =>
        unfold unaryType
        dsimp only
        split
        · exact .answer ((params p List.mem_cons_self).merge result)
        · exact .report _ _ (.of_closed rfl)
      | [] | _ :: _ :: _ => exact eliminate_scoped _ _ _
    | _ => exact eliminate_scoped _ _ _
  | throw =>
    rw [unaryType]
    cases ctx.exception? with
    | some exception => exact required_scoped _ _ _ _ (.of_closed rfl)
    | none => exact .afterReport _ _ fun _ => .answer (.of_closed rfl)

theorem literalType_within (l : Syntax.Literal) : (literalType l).Within names := by
  cases l <;> exact .of_closed rfl

theorem operandType?_within (names : String → Prop) (op : Syntax.BinaryOp) :
    (operandType? op).2.Within names := by
  cases op <;> exact .of_closed rfl

/-- A context that its scope allows, with some types that it allows too. -/
def Context.ScopedWith (names : String → Prop) (declared : Context × List Ty) : Prop :=
  declared.1.ScopedBy names ∧ ∀ t ∈ declared.2, t.Within names

theorem Context.ScopedWith.cons {declared : Context × List Ty} {t : Ty} (within : t.Within names)
    (rest : ScopedWith names declared) : ScopedWith names (declared.1, t :: declared.2) :=
  ⟨rest.1, List.forall_mem_cons.mpr ⟨within, rest.2⟩⟩

theorem declareRecursive_scoped (fits : ctx.ScopedBy names)
    (bs : List (Located Pattern × Located Expr)) :
    Scoped (Context.ScopedWith names) (declareRecursive ctx bs) := by
  induction bs generalizing ctx with
  | nil => exact .answer ⟨fits, List.forall_mem_nil _⟩
  | cons b bs ih =>
    obtain ⟨⟨p, position⟩, e⟩ := b
    cases p with
    | ascribed p type =>
      exact .bind (meaning_scoped fits type) fun _ within =>
        .bind (bindings_scoped fits within p) fun _ bound =>
        .map (ih (fits.bindAll bound)) fun _ rest => rest.cons within
    | _ =>
      have reported : Scoped (Within names) (Check.report .ambiguousType position) :=
        .report _ _ (.of_closed rfl)
      exact .bind reported fun _ within => .map (ih fits) fun _ rest => rest.cons within

theorem bindParams_scoped (fits : ctx.ScopedBy names) (params : List (String × Located TypeExpr)) :
    Scoped (Context.ScopedWith names) (bindParams ctx params) := by
  induction params generalizing ctx with
  | nil => exact .answer ⟨fits, List.forall_mem_nil _⟩
  | cons param params ih =>
    exact .bind (meaning_scoped fits param.2) fun _ within =>
      .map (ih (fits.bind param.1 within)) fun _ rest => rest.cons within

mutual

theorem synth_scoped {names : String → Prop} {ctx : Context} (fits : ctx.ScopedBy names)
    (e : Located Expr) : Scoped (Within names) (synth ctx e) := by
  obtain ⟨e, position⟩ := e
  refine .guarded (.of_closed rfl) (.bind (synthNode_scoped fits position e) fun t within => ?_)
  have judged : t.ScopedIn ctx.scope := within.mono fun x => (fits.typeVars x).mpr
  exact .map (.judge ⟨fits.wellScoped, judged⟩) fun _ _ => within
termination_by structural e

theorem synthNode_scoped {names : String → Prop} {ctx : Context} (fits : ctx.ScopedBy names)
    (position : Option Position) (e : Expr) :
    Scoped (Within names) (synthNode ctx position e) := by
  cases e with
  | sequence a b =>
    exact .bind (synth_scoped fits a) fun _ _ => .bind (.require _ _ _ _) fun _ _ =>
      synth_scoped fits b
  | assign target value =>
    refine .bind (synth_scoped fits target) fun t _ => ?_
    cases t with
    | ref referent =>
      exact .bind (synth_scoped fits value) fun _ _ => required_scoped _ _ _ _ (.of_closed rfl)
    | never | unknown | error => exact .map (synth_scoped fits value) fun _ _ => .of_closed rfl
    | _ =>
      exact .bind (synth_scoped fits value) fun _ _ =>
        .afterReport _ _ fun _ => .answer (.of_closed rfl)
  | cond condition a b =>
    exact .bind (synth_scoped fits condition) fun _ _ => .bind (.require _ _ _ _) fun _ _ =>
      .bind (synth_scoped fits a) fun _ first =>
      .bind (synth_scoped fits b) fun _ second => join_scoped first second b.position
  | letIn bs body =>
    exact .bind (synthBindings_scoped fits.push bs) fun _ inner => synth_scoped inner body
  | letRec bs body =>
    exact .bind (declareRecursive_scoped fits.push bs) fun (_, ts) inner =>
      .bind (expectBindings_scoped inner.1 ts bs) fun _ _ => synth_scoped inner.1 body
  | typeAbstraction xs body =>
    -- The type of the body may refer to the new type variables, and these the binder closes.
    exact .map (synth_scoped (fits.push.bindTypeVars xs) body) fun _ inner =>
      Within.forAll_iff.mpr inner
  | binary op a b =>
    refine .bind (synth_scoped fits a) fun first within => ?_
    have result := operandType?_within names op
    revert result
    rcases operandType? op with ⟨_ | operand, result⟩ <;> intro constant
    · exact .bind (synth_scoped fits b) fun second within' =>
        .map (join_scoped within within' b.position) fun _ _ => constant
    · exact .bind (.require _ _ _ _) fun _ _ => .bind (synth_scoped fits b) fun _ _ =>
        required_scoped _ _ _ _ constant
  | ascribe e type =>
    exact .bind (meaning_scoped fits type) fun _ ascribed =>
      .bind (synth_scoped fits e) fun _ _ => required_scoped _ _ _ _ ascribed
  | cast e type =>
    refine .bind (meaning_scoped fits type) fun _ target =>
      .bind (synth_scoped fits e) fun _ _ => ?_
    dsimp only
    split
    · exact .answer target
    · exact .afterReport _ _ fun _ => .answer target
  | abstraction params body =>
    exact .bind (bindParams_scoped fits.push params) fun _ inner =>
      .map (synth_scoped inner.1 body) fun _ result => Within.arrow_iff.mpr ⟨inner.2, result⟩
  | variant l payload =>
    cases payload with
    | none => exact .answer (.of_closed rfl)
    | some e =>
      refine .map (synth_scoped fits e) fun t within => Within.variant_iff.mpr ?_
      exact List.forall_mem_singleton.mpr fun u carried => Option.some.inj carried ▸ within
  | matching e cases =>
    refine .bind (synth_scoped fits e) fun scrutinee within => ?_
    split
    · exact .report _ _ (.of_closed rfl)
    · refine .bind (joinCases_scoped fits within (.of_closed rfl) cases) fun result common => ?_
      dsimp only
      split
      · exact .answer common
      · exact .afterReport _ _ fun _ => .answer common
  | list es =>
    exact .map (joinAll_scoped fits (.of_closed rfl) es) fun _ element => Within.list_iff.mpr element
  | unary op e =>
    exact .bind (synth_scoped fits e) fun _ within => unaryType_scoped position e.position op within
  | application f args =>
    refine .bind (synth_scoped fits f) fun t within => ?_
    cases t with
    | arrow params result =>
      have answer := (Within.arrow_iff.mp within).2
      dsimp only
      split
      · exact .map (expectEach_scoped fits params args) fun _ _ => answer
      · exact .bind (synthAll_scoped fits args) fun _ _ => .afterReport _ _ fun _ => .answer answer
    | _ => exact .bind (synthAll_scoped fits args) fun _ _ => eliminate_scoped _ _ _
  | typeApplication f types =>
    refine .bind (synth_scoped fits f) fun t within =>
      .bind (meanings_scoped fits types) fun args all => ?_
    cases t with
    | forAll xs body =>
      dsimp only
      split
      · exact .answer (within.instantiate ‹_› all)
      · exact .report _ _ (.of_closed rfl)
    | _ => exact eliminate_scoped _ _ _
  | field e l =>
    refine .bind (synth_scoped fits e) fun t within => ?_
    cases t with
    | record fs =>
      dsimp only
      cases found : fs.lookup l with
      | some t => exact .answer (Within.record_iff.mp within (l, t) (mem_of_lookup found))
      | none => exact .report _ _ (.of_closed rfl)
    | _ => exact eliminate_scoped _ _ _
  | component e index =>
    refine .bind (synth_scoped fits e) fun t within => ?_
    cases t with
    | tuple ts =>
      cases index with
      | zero => exact .report _ _ (.of_closed rfl)
      | succ i =>
        dsimp only
        cases found : ts[i]? with
        | some t => exact .answer (Within.tuple_iff.mp within t (List.mem_of_getElem? found))
        | none => exact .report _ _ (.of_closed rfl)
    | _ => exact eliminate_scoped _ _ _
  | tuple es => exact .map (synthAll_scoped fits es) fun _ elements => Within.tuple_iff.mpr elements
  | record fs =>
    exact .map (synthFields_scoped fits fs) fun _ fields => Within.record_iff.mpr fields
  | cons h tail =>
    exact .bind (synth_scoped fits h) fun _ first => .bind (synth_scoped fits tail) fun _ rest =>
      required_scoped _ _ _ _ ((Within.list_iff.mpr first).merge rest)
  | panic => exact .answer (.of_closed rfl)
  | tryCatch body p handler =>
    refine .bind (synth_scoped fits body) fun first within => ?_
    have handled {exception : Ty} (raised : exception.Within names) : Scoped (Within names)
        (bindings ctx.push exception p >>= fun bound =>
          synth (ctx.push.bindAll bound) handler >>= fun second =>
          Check.join ctx first second handler.position) :=
      .bind (bindings_scoped fits.push raised p) fun _ bound =>
        .bind (synth_scoped (fits.push.bindAll bound) handler) fun _ second =>
        join_scoped within second handler.position
    cases declared : ctx.exception? with
    | some t => exact handled (fits.exception? declared)
    | none => exact .bind (.report _ _ (.of_closed rfl)) fun _ raised => handled raised
  | tryWith body fallback =>
    exact .bind (synth_scoped fits body) fun _ first =>
      .bind (synth_scoped fits fallback) fun _ second => join_scoped first second fallback.position
  | tryCast e type p success failure =>
    exact .bind (synth_scoped fits e) fun _ _ => .bind (meaning_scoped fits type) fun _ target =>
      .bind (bindings_scoped fits.push target p) fun _ bound =>
      .bind (synth_scoped (fits.push.bindAll bound) success) fun _ first =>
      .bind (synth_scoped fits failure) fun _ second => join_scoped first second failure.position
  | natRec count initial step =>
    exact .bind (synth_scoped fits count) fun _ _ => .bind (.require _ _ _ _) fun _ _ =>
      .bind (synth_scoped fits initial) fun _ result =>
      .bind (synth_scoped fits step) fun _ _ => required_scoped _ _ _ _ result
  | fold type e =>
    refine .bind (meaning_scoped fits type) fun target within =>
      .bind (synth_scoped fits e) fun _ _ => ?_
    cases target with
    | recursive => exact required_scoped _ _ _ _ within
    | never | unknown | error => exact .answer within
    | _ => exact .report _ _ (.of_closed rfl)
  | unfold type e =>
    refine .bind (meaning_scoped fits type) fun target within =>
      .bind (synth_scoped fits e) fun _ _ => ?_
    cases target with
    | recursive => exact required_scoped _ _ _ _ within.unfold
    | never | unknown | error => exact .answer within
    | _ => exact .report _ _ (.of_closed rfl)
  | literal l => exact .answer (literalType_within l)
  | var x =>
    rw [synthNode]
    cases found : ctx.scope.lookup x with
    | some t => exact .answer (fits.lookup found)
    | none => exact .report _ _ (.of_closed rfl)
termination_by structural e

theorem synthAll_scoped {names : String → Prop} {ctx : Context} (fits : ctx.ScopedBy names)
    (es : List (Located Expr)) :
    Scoped (fun ts => ∀ t ∈ ts, t.Within names) (synthAll ctx es) := by
  match es with
  | [] => exact .answer (List.forall_mem_nil _)
  | e :: es =>
    exact .bind (synth_scoped fits e) fun _ first =>
      .map (synthAll_scoped fits es) fun _ rest => List.forall_mem_cons.mpr ⟨first, rest⟩
termination_by structural es

theorem synthFields_scoped {names : String → Prop} {ctx : Context} (fits : ctx.ScopedBy names)
    (fs : List (String × Located Expr)) :
    Scoped (fun gs => ∀ g ∈ gs, g.2.Within names) (synthFields ctx fs) := by
  match fs with
  | [] => exact .answer (List.forall_mem_nil _)
  | (l, e) :: fs =>
    exact .bind (synth_scoped fits e) fun _ first =>
      .map (synthFields_scoped fits fs) fun _ others => List.forall_mem_cons.mpr ⟨first, others⟩
termination_by structural fs

theorem expectEach_scoped {names : String → Prop} {ctx : Context} (fits : ctx.ScopedBy names)
    (expected : List Ty) (es : List (Located Expr)) :
    Scoped (fun _ => True) (expectEach ctx expected es) := by
  match es, expected with
  | [], _ => exact .answer trivial
  | _ :: _, [] => exact .answer trivial
  | e :: es, u :: us =>
    exact .bind (synth_scoped fits e) fun _ _ => .bind (.require _ _ _ _) fun _ _ =>
      expectEach_scoped fits us es
termination_by structural es

theorem joinAll_scoped {names : String → Prop} {ctx : Context} (fits : ctx.ScopedBy names)
    {common : Ty} (within : common.Within names) (es : List (Located Expr)) :
    Scoped (Within names) (joinAll ctx common es) := by
  match es with
  | [] => exact .answer within
  | e :: es =>
    exact .bind (synth_scoped fits e) fun _ element =>
      .bind (join_scoped within element e.position) fun _ joined => joinAll_scoped fits joined es
termination_by structural es

theorem synthBindings_scoped {names : String → Prop} {ctx : Context} (fits : ctx.ScopedBy names)
    (bs : List (Located Pattern × Located Expr)) :
    Scoped (Context.ScopedBy names) (synthBindings ctx bs) := by
  match bs with
  | [] => exact .answer fits
  | (p, e) :: bs =>
    exact .bind (synth_scoped fits e) fun _ within => .bind (bindings_scoped fits within p)
      fun _ bound => synthBindings_scoped (fits.bindAll bound) bs
termination_by structural bs

theorem expectBindings_scoped {names : String → Prop} {ctx : Context} (fits : ctx.ScopedBy names)
    (expected : List Ty) (bs : List (Located Pattern × Located Expr)) :
    Scoped (fun _ => True) (expectBindings ctx expected bs) := by
  match bs, expected with
  | [], _ => exact .answer trivial
  | _ :: _, [] => exact .answer trivial
  | (_, e) :: bs, u :: us =>
    exact .bind (synth_scoped fits e) fun _ _ => .bind (.require _ _ _ _) fun _ _ =>
      expectBindings_scoped fits us bs
termination_by structural bs

theorem joinCases_scoped {names : String → Prop} {ctx : Context} (fits : ctx.ScopedBy names)
    {scrutinee common : Ty} (taken : scrutinee.Within names)
    (within : common.Within names) (cases : List (Located Pattern × Located Expr)) :
    Scoped (Within names) (joinCases ctx scrutinee common cases) := by
  match cases with
  | [] => exact .answer within
  | (p, e) :: cases =>
    exact .bind (bindings_scoped fits.push taken p) fun _ bound =>
      .bind (synth_scoped (fits.push.bindAll bound) e) fun _ result =>
      .bind (join_scoped within result e.position) fun _ joined =>
      joinCases_scoped fits taken joined cases
termination_by structural cases

end

end Expressions

section Declarations

variable {names : String → Prop} {ctx : Context}

theorem declaredResult_scoped (fits : ctx.ScopedBy names) (result : Option (Located TypeExpr)) :
    Scoped (Within names) (declaredResult ctx result) := by
  cases result with
  | none => exact .answer (.of_closed rfl)
  | some t => exact meaning_scoped fits t

theorem signature_scoped (fits : ctx.ScopedBy names) (generics : Option (List String))
    (params : List (String × Located TypeExpr)) (result : Option (Located TypeExpr)) :
    Scoped (Within names) (signature ctx generics params result) := by
  cases generics with
  | none =>
    exact .bind (meanings_scoped fits (params.map (·.2))) fun _ all =>
      .map (declaredResult_scoped fits result) fun _ within =>
      Within.arrow_iff.mpr ⟨all, within⟩
  | some xs =>
    have inner := fits.push.bindTypeVars xs
    exact .bind (meanings_scoped inner (params.map (·.2))) fun _ all =>
      .map (declaredResult_scoped inner result) fun _ within =>
      Within.forAll_iff.mpr (Within.arrow_iff.mpr ⟨all, within⟩)

theorem declare_scoped (fits : ctx.ScopedBy names) (d : Decl) :
    Scoped (Context.ScopedBy names) (declare ctx d) := by
  cases d with
  | function _ f generics params result =>
    exact .map (signature_scoped fits generics params result) fun _ within => fits.bind f within
  | typeAlias x t =>
    refine .map (meaning_scoped fits t) fun u within => { fits with aliases := fun y v found => ?_ }
    rw [List.lookup_cons] at found
    split at found
    · exact Option.some.inj found ▸ within
    · exact fits.aliases y v found
  | exceptionType t =>
    refine .bind (meaning_scoped fits t) fun raised within => ?_
    have declared : Context.ScopedBy names { ctx with exceptionType := some raised } :=
      { fits with exceptionType := fun u known => Option.some.inj known ▸ within }
    dsimp only
    split
    · exact .map (.note _ _ _) fun _ _ => declared
    · exact .answer declared
  | exceptionVariant l t =>
    refine .map (meaning_scoped fits t) fun u within =>
      { fits with exceptionVariants := List.forall_mem_append.mpr ⟨fits.exceptionVariants, ?_⟩ }
    exact List.forall_mem_singleton.mpr fun v carried => Option.some.inj carried ▸ within

theorem declareAll_scoped (fits : ctx.ScopedBy names) (introduced : List String)
    (ds : List (Located Decl)) :
    Scoped (fun declared => Context.ScopedBy names declared.1) (declareAll ctx introduced ds) := by
  induction ds generalizing ctx introduced with
  | nil => exact .answer fits
  | cons d ds ih =>
    rw [declareAll]
    split
    · exact .bind (declare_scoped fits d.node) fun _ inner => ih inner introduced
    · split
      · exact .afterReport _ _ fun _ => ih fits introduced
      · exact .bind (declare_scoped fits d.node) fun _ inner => ih inner _

theorem declareBlock_scoped (fits : ctx.ScopedBy names) (block : List (Located Decl)) :
    Scoped (Context.ScopedBy names) (declareBlock ctx block) :=
  .bind (declareAll_scoped fits [] _) fun _ outer =>
    .bind (declareAll_scoped outer [] _) fun _ inner => .map (.note _ _ _) fun _ _ => inner

mutual

theorem checkDecl_scoped {names : String → Prop} {ctx : Context} (fits : ctx.ScopedBy names)
    (d : Located Decl) : Scoped (fun _ => True) (checkDecl ctx d) := by
  obtain ⟨d, position⟩ := d
  exact checkDeclNode_scoped fits d
termination_by structural d

/-- The locals of a generic function may refer to its type variables, which are in scope inside
it. -/
theorem checkDeclNode_scoped {names : String → Prop} {ctx : Context} (fits : ctx.ScopedBy names)
    (d : Decl) : Scoped (fun _ => True) (checkDeclNode ctx d) := by
  cases d with
  | function modifiers name generics params result throws locals body =>
    exact .bind (.note _ _ _) fun _ _ =>
      .bind (bindParams_scoped (fits.push.bindTypeVars (generics.getD [])) params) fun _ inner =>
      .bind (meanings_scoped inner.1 throws) fun _ _ =>
      .bind (declaredResult_scoped inner.1 result) fun _ _ =>
      .bind (declareBlock_scoped inner.1 locals) fun _ block =>
      .bind (checkDecls_scoped block locals) fun _ _ =>
      .bind (synth_scoped block body) fun _ _ => .require _ _ _ _
  | typeAlias | exceptionType | exceptionVariant => exact .answer trivial
termination_by structural d

theorem checkDecls_scoped {names : String → Prop} {ctx : Context} (fits : ctx.ScopedBy names)
    (ds : List (Located Decl)) : Scoped (fun _ => True) (checkDecls ctx ds) := by
  match ds with
  | [] => exact .answer trivial
  | d :: ds =>
    exact .guarded trivial (.bind (checkDecl_scoped fits d) fun _ _ => checkDecls_scoped fits ds)
termination_by structural ds

end

theorem checkBlock_scoped (fits : ctx.ScopedBy names) (block : List (Located Decl)) :
    Scoped (Context.ScopedBy names) (checkBlock ctx block) :=
  .bind (declareBlock_scoped fits block) fun _ inner =>
    .map (checkDecls_scoped inner block) fun _ _ => inner

theorem checkModule_scoped (fits : ctx.ScopedBy names) (block : List (Located Decl)) :
    Scoped (Context.ScopedBy names) (checkModule ctx block) := by
  refine .bind (checkBlock_scoped fits block) fun inner known => ?_
  dsimp only
  split
  · exact .afterReport _ _ fun _ => .answer known
  · exact .answer known

end Declarations

/-- What checking makes of a context that is well scoped: types that fit into it, and contexts that
are well scoped again. -/
structure Context.StaysScoped (ctx : Context) (p : Progress) : Prop where
  /-- The parts of the expression are judged in well-scoped contexts too. -/
  synth : ∀ e, (synth ctx e p).1.ScopedIn ctx.scope ∧ (synth ctx e p).2.ScopedSince p
  push : ctx.push.WellScoped
  bindTypeVars : ∀ xs, (ctx.bindTypeVars xs).WellScoped
  /-- Patterns are for values of types that fit. -/
  bindings : ∀ q t, t.ScopedIn ctx.scope → (ctx.bindAll (bindings ctx t q p).1).WellScoped
  synthBindings : ∀ bs, (synthBindings ctx bs p).1.WellScoped
  declareRecursive : ∀ bs, (declareRecursive ctx bs p).1.1.WellScoped
  bindParams : ∀ params, (bindParams ctx params p).1.1.WellScoped
  /-- After any declarations of a block, among them the first ones. -/
  declareAll : ∀ introduced ds, (declareAll ctx introduced ds p).1.1.WellScoped
  /-- The bodies of the functions are judged in well-scoped contexts too. -/
  checkBlock : ∀ block,
    (checkBlock ctx block p).1.WellScoped ∧ (checkBlock ctx block p).2.ScopedSince p

theorem Context.WellScoped.stays {ctx : Context} (wellScoped : ctx.WellScoped) {p : Progress}
    (sound : p.CacheSound) : ctx.StaysScoped p where
  synth e := (synth_scoped wellScoped e p sound).imp_right (·.2)
  push := wellScoped.push.wellScoped
  bindTypeVars xs := (wellScoped.bindTypeVars xs).wellScoped
  bindings q _ within :=
    (wellScoped.bindAll (bindings_scoped wellScoped within q p sound).1).wellScoped
  synthBindings bs := (synthBindings_scoped wellScoped bs p sound).1.wellScoped
  declareRecursive bs := (declareRecursive_scoped wellScoped bs p sound).1.1.wellScoped
  bindParams params := (bindParams_scoped wellScoped params p sound).1.1.wellScoped
  declareAll introduced ds := (declareAll_scoped wellScoped introduced ds p sound).1.wellScoped
  checkBlock block := (checkBlock_scoped wellScoped block p sound).imp (·.wellScoped) (·.2)

namespace Checker

/-- A checker and a scope whose types refer to type variables of the scope alone. -/
abbrev WellScoped (c : Checker) (scope : Scope) : Prop :=
  (c.within scope).WellScoped

theorem vars_of_mem_frames_empty {frame : Frame} (member : frame ∈ ({} : Scope).frames) :
    frame.vars = [] := by
  rw [List.mem_singleton.mp member]

/-- Before anything is declared, nothing refers to a type variable. -/
theorem new_wellScoped (limits : Limits) : (new limits).WellScoped {} where
  typeVars _ := .rfl
  vars _ member _ _ found := by simp [vars_of_mem_frames_empty member] at found
  aliases := nofun
  exceptionType := nofun
  exceptionVariants := nofun

/-- What is declared in a scope without type variables is well scoped without the scope. -/
theorem wellScoped_outside {names : String → Prop} {ctx : Context} (fits : ctx.ScopedBy names)
    (none : ∀ x, ¬ names x) (progress : Progress) :
    WellScoped ⟨ctx.toEnvironment, progress⟩ {} where
  typeVars _ := .rfl
  vars _ member _ _ found := by simp [vars_of_mem_frames_empty member] at found
  aliases x t found := (fits.aliases x t found).mono fun x known => (none x known).elim
  exceptionType t declared := (fits.exceptionType t declared).mono fun x known => (none x known).elim
  exceptionVariants f member t carried :=
    (fits.exceptionVariants f member t carried).mono fun x known => (none x known).elim

theorem checking_scoped {names : String → Prop} {c : Checker}
    (fits : (c.within {}).ScopedBy names) (program : Located Program) :
    Scoped (Context.ScopedBy names) (c.checking program) := by
  have moded (subtyping : Bool) : ((c.setSubtyping subtyping).within {}).ScopedBy names :=
    ⟨fits.typeVars, fits.vars, fits.aliases, fits.exceptionType, fits.exceptionVariants⟩
  unfold checking
  dsimp only
  split
  · exact .bind (.note _ _ _) fun _ _ => checkModule_scoped (moded _) _
  · exact checkModule_scoped (moded _) _

/-- Types stay well scoped. From a checker and a scope that are, whatever is checked there has types
that refer to type variables of the scope alone, and makes well-scoped contexts on the way. A
program is checked in a scope without type variables, so all its functions have closed types. -/
theorem types_stay_scoped (c : Checker) (scope : Scope) (reached : c.progress.Reached)
    (wellScoped : c.WellScoped scope) :
    (c.within scope).StaysScoped c.progress ∧
      (c.WellScoped {} → ∀ program,
        (c.check program).2.WellScoped {} ∧
        (c.checking program c.progress).2.ScopedSince c.progress ∧
        ∀ f t, (c.checking program c.progress).1.scope.lookup f = some t → t.freeNames = []) := by
  refine ⟨wellScoped.stays reached.cacheSound, fun bare program => ?_⟩
  have none (x : String) : ¬ ({} : Scope).hasTypeVar x = true := Bool.false_ne_true
  obtain ⟨declared, -, since⟩ := checking_scoped bare program c.progress reached.cacheSound
  refine ⟨wellScoped_outside declared none _, since, fun f t found => ?_⟩
  exact List.eq_nil_iff_forall_not_mem.mpr fun x free => none x (declared.lookup found x free)

/-- A scope inside a generic function of `X` with a parameter of that type. -/
def genericScope : Scope :=
  (({} : Scope).bindTypeVar "X").bind "x" (.var "X")

theorem genericScope_types_stay_scoped :
    let c := new {}
    c.WellScoped genericScope ∧ (c.synth genericScope ⟨.var "x", none⟩).1 = .var "X" ∧
      (c.within genericScope).StaysScoped c.progress ∧
      ∀ program,
        (c.check program).2.WellScoped {} ∧
        (c.checking program c.progress).2.ScopedSince c.progress ∧
        ∀ f t, (c.checking program c.progress).1.scope.lookup f = some t → t.freeNames = [] := by
  have bare := new_wellScoped {}
  have parameter : (Ty.var "X").Within fun x => x ∈ ["X"] ∨ ({} : Scope).hasTypeVar x = true :=
    Within.var_iff.mpr (.inl List.mem_cons_self)
  have wellScoped : (new {}).WellScoped genericScope :=
    ((bare.bindTypeVars ["X"]).bind "x" parameter).wellScoped
  obtain ⟨stays, programs⟩ := types_stay_scoped (new {}) genericScope (.start {}) wellScoped
  exact ⟨wellScoped, rfl, stays, programs bare⟩

end Checker

end StellaLang.Typing
