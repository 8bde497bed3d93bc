import StellaLang.Proofs.Typing.Restoring

/-! Blocks of the checker in place: what they leave behind. A step of a block adds the entries of
some declarations, each to its own table; what the locals of a function add is cut off when the
function is left. Main statement: checking leaves nothing but errors and the entries of the
block's own declarations. -/
namespace StellaLang.Typing.InPlace

open Syntax (Decl Expr TypeExpr)
open Step Step.Follows

section Tables

def functionName? : Decl → Option String
  | .function _ f .. => some f
  | _ => none

def aliasName? : Decl → Option String
  | .typeAlias x _ => some x
  | _ => none

def raisedLabel? : Decl → Option String
  | .exceptionVariant l _ => some l
  | _ => none

def raisedType? : Decl → Option (Located TypeExpr)
  | .exceptionType t => some t
  | _ => none

/-- A context differs from another one by entries for some declarations only: functions in the
current frame, the others in the tables. -/
structure Adds (ds : List Decl) (ctx ctx' : Context) : Prop where
  outer : ctx'.scope.outer = ctx.scope.outer
  typeVars : ctx'.scope.current.typeVars = ctx.scope.current.typeVars
  functions : ∃ bound, ctx'.scope.current.vars = bound ++ ctx.scope.current.vars ∧
    bound.map (·.1) = (ds.filterMap functionName?).reverse
  aliases : ∃ new, ctx'.aliases = new ++ ctx.aliases ∧
    new.map (·.1) = (ds.filterMap aliasName?).reverse
  exceptionType : ds.filterMap raisedType? = [] → ctx'.exceptionType = ctx.exceptionType
  exceptionVariants : ∃ new, ctx'.exceptionVariants = ctx.exceptionVariants ++ new ∧
    new.map (·.1) = ds.filterMap raisedLabel?
  subtyping : ctx'.subtyping = ctx.subtyping

namespace Adds

theorem none (ctx : Context) : Adds [] ctx ctx where
  outer := rfl
  typeVars := rfl
  functions := ⟨[], rfl, rfl⟩
  aliases := ⟨[], rfl, rfl⟩
  exceptionType _ := rfl
  exceptionVariants := ⟨[], (List.append_nil _).symm, rfl⟩
  subtyping := rfl

theorem append {ds es : List Decl} (c₁ c₂ c₃ : Context) (first : Adds ds c₁ c₂) (second : Adds es c₂ c₃) :
    Adds (ds ++ es) c₁ c₃ where
  outer := second.outer.trans first.outer
  typeVars := second.typeVars.trans first.typeVars
  functions := by
    obtain ⟨bound, before, names⟩ := first.functions
    obtain ⟨later, after, others⟩ := second.functions
    refine ⟨later ++ bound, by rw [after, before, List.append_assoc], ?_⟩
    rw [List.map_append, names, others, List.filterMap_append, List.reverse_append]
  aliases := by
    obtain ⟨new, before, names⟩ := first.aliases
    obtain ⟨later, after, others⟩ := second.aliases
    refine ⟨later ++ new, by rw [after, before, List.append_assoc], ?_⟩
    rw [List.map_append, names, others, List.filterMap_append, List.reverse_append]
  exceptionType undeclared := by
    rw [List.filterMap_append, List.append_eq_nil_iff] at undeclared
    exact (second.exceptionType undeclared.2).trans (first.exceptionType undeclared.1)
  exceptionVariants := by
    obtain ⟨new, before, labels⟩ := first.exceptionVariants
    obtain ⟨later, after, others⟩ := second.exceptionVariants
    refine ⟨new ++ later, by rw [after, before, List.append_assoc], ?_⟩
    rw [List.map_append, labels, others, List.filterMap_append]
  subtyping := second.subtyping.trans first.subtyping

theorem followed {ds : List Decl} (c₁ c₂ c₃ : Context) (first : Adds ds c₁ c₂)
    (second : Adds [] c₂ c₃) : Adds ds c₁ c₃ := by
  have both := append c₁ c₂ c₃ first second
  rwa [List.append_nil] at both

variable (ctx : Context)

theorem function (modifiers : List Syntax.Modifier) (f : String) (generics : Option (List String))
    (params : List (String × Located TypeExpr)) (result : Option (Located TypeExpr))
    (throws : List (Located TypeExpr)) (locals : List (Located Decl)) (body : Located Expr) (t : Ty) :
    Adds [.function modifiers f generics params result throws locals body] ctx (ctx.bind f t) :=
  { none ctx with functions := ⟨[(f, t)], rfl, rfl⟩ }

theorem typeAlias (x : String) (type : Located TypeExpr) (t : Ty) :
    Adds [.typeAlias x type] ctx { ctx with aliases := (x, t) :: ctx.aliases } :=
  { none ctx with aliases := ⟨[(x, t)], rfl, rfl⟩ }

theorem raised (type : Located TypeExpr) (t : Ty) :
    Adds [.exceptionType type] ctx { ctx with exceptionType := some t } :=
  { none ctx with exceptionType := fun undeclared => nomatch undeclared }

theorem exceptionVariant (l : String) (type : Located TypeExpr) (t : Ty) :
    Adds [.exceptionVariant l type] ctx
      { ctx with exceptionVariants := ctx.exceptionVariants ++ [(l, some t)] } :=
  { none ctx with exceptionVariants := ⟨[(l, some t)], rfl, rfl⟩ }

end Adds

/-- What is entered ends where tables are written back and cut off. -/
theorem Step.Follows.confined {ds : List Decl} {x : Step α} {y : Context → Check α}
    (inner : Follows (Adds ds) (fun a _ b => a = b) x y) : Enters (Step.confined x) y where
  kept s := by
    obtain ⟨later, variants, -⟩ := (inner.kept s).exceptionVariants
    have cut : (x s).2.context.exceptionVariants.take s.context.exceptionVariants.length =
        s.context.exceptionVariants := by
      rw [variants, List.take_left]
    refine ⟨?_, (inner.kept s).outer⟩
    change Environment.mk _ _ ((x s).2.context.exceptionVariants.take _) (x s).2.context.subtyping = _
    rw [cut, (inner.kept s).subtyping]
  binders := inner.binders
  errors := inner.errors
  agrees := inner.agrees

end Tables

section Declarations

theorem declaredResult_restores (result : Option (Located TypeExpr)) :
    Restores (declaredResult result) (fun ctx => Typing.declaredResult ctx result) := by
  cases result with
  | some t => exact meaning_restores t
  | none => exact .answer _

theorem signature_restores (generics : Option (List String)) (params : List (String × Located TypeExpr))
    (result : Option (Located TypeExpr)) :
    Restores (signature generics params result)
      (fun ctx => Typing.signature ctx generics params result) := by
  have whole : Restores (functionType params result) (fun ctx => Typing.signature ctx none params result) :=
    after (meanings_restores (params.map (·.2))) fun _ => .map (declaredResult_restores result) _
  cases generics with
  | none => exact whole
  | some xs => exact .map (.framed (.changedWithin (.bindTypeVars · xs) (.enters whole))) _

theorem declare_extends (d : Decl) :
    Extends (Adds [d]) id (fun _ => ()) (declare d) (fun ctx => Typing.declare ctx d) := by
  cases d with
  | function _ f generics params result =>
    exact after (signature_restores generics params result) fun t => .change (.function · _ f _ _ _ _ _ _ t)
  | typeAlias x type => exact after (meaning_restores type) fun t => .change (.typeAlias · x type t)
  | exceptionType type =>
    refine after (meaning_restores type) fun t => ?_
    refine after (y := fun ctx => pure ctx.exceptionType)
      (g := fun declared ctx =>
        if declared.isSome then
          Check.note .warn declTopic "exception type declared more than once; keeping the last" >>=
            fun _ => pure { ctx with exceptionType := some t }
        else pure { ctx with exceptionType := some t })
      (.built fun _ => .answer _) fun declared => ?_
    have raised := change (Adds.raised · type t)
    cases declared with
    | none => exact raised
    | some _ => exact after (.built fun _ => .note ..) fun _ => raised
  | exceptionVariant l type =>
    exact after (meaning_restores type) fun t => .change (.exceptionVariant · l type t)

/-- The declarations that a run of `declareAll` enters: those whose name is new. -/
def entered (names : List String) : List (Located Decl) → List Decl
  | [] => []
  | d :: ds =>
    match d.node.name? with
    | none => d.node :: entered names ds
    | some x => if names.contains x then entered names ds else d.node :: entered (x :: names) ds

theorem declareAll_extends (names : List String) (ds : List (Located Decl)) :
    Extends (Adds (entered names ds)) Prod.fst Prod.snd (declareAll names ds)
      (fun ctx => Typing.declareAll ctx names ds) := by
  induction ds generalizing names with
  | nil => exact .unchanged .none fun _ => ⟨rfl, rfl⟩
  | cons d ds ih =>
    have through (es : List Decl) (c₁ c₂ c₃ : Context) :
        Adds [d.node] c₁ c₂ → Adds es c₂ c₃ → Adds (d.node :: es) c₁ c₃ := Adds.append c₁ c₂ c₃
    have more (names : List String) := Step.Follows.bind (through (entered names ds))
      (declare_extends d.node) fun _ => ih names
    unfold declareAll Typing.declareAll entered
    cases d.node.name? with
    | none => exact more names
    | some x =>
      dsimp only
      split
      · exact after (report_restores _ _) fun _ => ih names
      · exact more (x :: names)

/-- A block enters its types and exceptions before its functions. -/
def own (block : List (Located Decl)) : List Decl :=
  entered [] (block.filter (!·.node.isFunction)) ++ entered [] (block.filter (·.node.isFunction))

/-- A last step that restores: the context before it is the answer. -/
theorem Step.Follows.ending {kept : Context → Context → Prop} {x : Step Unit}
    {y : Context → Check Unit} (refl : ∀ ctx, kept ctx ctx) (last : Restores x y) :
    Extends kept id (fun _ => ()) x (fun ctx => y ctx >>= fun _ => pure ctx) where
  kept s := by
    rw [last.kept s]
    exact refl s.context
  binders := last.binders
  errors := last.errors
  agrees s none := ⟨⟨last.kept s, rfl⟩, (last.agrees s none).2⟩

theorem declareBlock_extends (block : List (Located Decl)) :
    Extends (Adds (own block)) id (fun _ => ()) (declareBlock block)
      (fun ctx => Typing.declareBlock ctx block) :=
  .bind Adds.append (declareAll_extends [] _) fun _ =>
    .bind Adds.followed (declareAll_extends [] _) fun _ => .ending .none (.built fun _ => .note ..)

mutual

theorem checkDecl_restores (d : Located Decl) :
    Restores (checkDecl d) (fun ctx => Typing.checkDecl ctx d) := by
  obtain ⟨d, position⟩ := d
  exact checkDeclNode_restores d
termination_by structural d

theorem checkDeclNode_restores (d : Decl) :
    Restores (checkDeclNode d) (fun ctx => Typing.checkDeclNode ctx d) := by
  cases d with
  | function _ f generics params result throws locals body =>
    have through (c₁ c₂ c₃ : Context) (added : Adds (own locals) c₁ c₂) (same : c₃ = c₂) :
        Adds (own locals) c₁ c₃ := same ▸ added
    have inside (r : Ty) := Step.Follows.bind through (declareBlock_extends locals) fun _ =>
        after (checkDecls_restores locals) fun _ => after (synth_restores body) fun t =>
          require_restores t r body.position
    exact after (.built fun _ => .note ..) fun _ =>
      .framed (.changedWithin (.bindTypeVars · _) (.bindWithin (bindParams_extends params) fun _ =>
        after (meanings_restores throws) fun _ => after (declaredResult_restores result) fun r =>
          .confined (inside r)))
  | typeAlias | exceptionType | exceptionVariant => exact .answer _
termination_by structural d

theorem checkDecls_restores (ds : List (Located Decl)) :
    Restores (checkDecls ds) (fun ctx => Typing.checkDecls ctx ds) := by
  match ds with
  | [] => exact .answer _
  | d :: ds => exact .guarded () (after (checkDecl_restores d) fun _ => checkDecls_restores ds)
termination_by structural ds

end

theorem checkBlock_extends (block : List (Located Decl)) :
    Extends (Adds (own block)) id (fun _ => ()) (checkBlock block)
      (fun ctx => Typing.checkBlock ctx block) :=
  .bind Adds.followed (declareBlock_extends block) fun _ => .ending .none (checkDecls_restores block)

end Declarations

section Blocks

theorem of_mem_entered {d : Decl} {names : List String} {ds : List (Located Decl)}
    (member : d ∈ entered names ds) : ∃ e ∈ ds, e.node = d := by
  induction ds generalizing names with
  | nil => cases member
  | cons e ds ih =>
    have later {names : List String} (member : d ∈ entered names ds) :
        ∃ e' ∈ e :: ds, e'.node = d := by
      obtain ⟨e', among, same⟩ := ih member
      exact ⟨e', List.mem_cons_of_mem _ among, same⟩
    have first (here : d = e.node) : ∃ e' ∈ e :: ds, e'.node = d := ⟨e, List.mem_cons_self, here.symm⟩
    unfold entered at member
    split at member
    · exact (List.mem_cons.mp member).elim first later
    · split at member
      · exact later member
      · exact (List.mem_cons.mp member).elim first later

/-- Each new name is entered, and is so once. -/
theorem entered_names (names : List String) (ds : List (Located Decl)) :
    ((entered names ds).filterMap Decl.name?).Nodup ∧ ∀ x,
      x ∈ (entered names ds).filterMap Decl.name? ↔ x ∉ names ∧ ∃ d ∈ ds, d.node.name? = some x := by
  induction ds generalizing names with
  | nil => simp [entered]
  | cons d ds ih =>
    unfold entered
    cases named : d.node.name? with
    | none =>
      obtain ⟨nodup, mem⟩ := ih names
      simp [named, nodup, mem]
    | some y =>
      dsimp only
      split
      · next known =>
        obtain ⟨nodup, mem⟩ := ih names
        have known : y ∈ names := by simpa using known
        refine ⟨nodup, fun x => ?_⟩
        rw [mem]
        grind
      · next new =>
        obtain ⟨nodup, mem⟩ := ih (y :: names)
        have new : y ∉ names := by simpa using new
        rw [List.filterMap_cons_some named]
        refine ⟨List.nodup_cons.mpr ⟨fun again => ?_, nodup⟩, fun x => ?_⟩
        · exact ((mem y).mp again).1 List.mem_cons_self
        · rw [List.mem_cons, mem]
          grind

/-- Declarations without a name are all entered. -/
theorem entered_unnamed {get : Decl → Option α} (unnamed : ∀ d a, get d = some a → d.name? = none)
    (names : List String) (ds : List (Located Decl)) :
    (entered names ds).filterMap get = ds.filterMap (get ·.node) := by
  induction ds generalizing names with
  | nil => rfl
  | cons d ds ih =>
    unfold entered
    cases found : get d.node with
    | some a =>
      have anonymous := unnamed _ _ found
      simp [anonymous, found, ih]
    | none =>
      split
      · simp [found, ih]
      · split <;> simp [found, ih]

theorem own_unnamed {get : Decl → Option α} (unnamed : ∀ d a, get d = some a → d.name? = none)
    (block : List (Located Decl)) : (own block).filterMap get = block.filterMap (get ·.node) := by
  have function_none (d : Decl) (function : d.isFunction = true) : get d = none := by
    cases found : get d with
    | none => rfl
    | some a =>
      have anonymous := unnamed _ _ found
      cases d with
      | function => cases anonymous
      | _ => cases function
  have functions : (block.filter (·.node.isFunction)).filterMap (get ·.node) = [] := by
    rw [List.filterMap_eq_nil_iff]
    intro d member
    exact function_none d.node (List.mem_filter.mp member).2
  rw [own, List.filterMap_append, entered_unnamed unnamed, entered_unnamed unnamed, functions,
    List.append_nil, List.filterMap_filter]
  refine List.filterMap_congr fun d _ => ?_
  cases function : d.node.isFunction with
  | false => rfl
  | true => exact (function_none d.node function).symm

/-- A run over declarations of one kind enters declarations of that kind. -/
theorem entered_congr (kind : Decl → Bool) {f g : Decl → Option α}
    (same : ∀ d, kind d = true → f d = g d) (names : List String) (block : List (Located Decl)) :
    (entered names (block.filter (kind ·.node))).filterMap f =
      (entered names (block.filter (kind ·.node))).filterMap g := by
  refine List.filterMap_congr fun d member => ?_
  obtain ⟨e, among, rfl⟩ := of_mem_entered member
  exact same e.node (List.mem_filter.mp among).2

theorem own_functions (block : List (Located Decl)) : (own block).filterMap functionName? =
    (entered [] (block.filter (·.node.isFunction))).filterMap Decl.name? := by
  have others := entered_congr (!·.isFunction) (f := functionName?) (g := fun _ => none)
    (by rintro ⟨⟩ kind <;> first | rfl | cases kind) [] block
  have functions := entered_congr (·.isFunction) (f := functionName?) (g := Decl.name?)
    (by rintro ⟨⟩ kind <;> first | rfl | cases kind) [] block
  rw [own, List.filterMap_append, others, functions]
  simp

theorem own_aliases (block : List (Located Decl)) : (own block).filterMap aliasName? =
    (entered [] (block.filter (!·.node.isFunction))).filterMap Decl.name? := by
  have others := entered_congr (·.isFunction) (f := aliasName?) (g := fun _ => none)
    (by rintro ⟨⟩ kind <;> first | rfl | cases kind) [] block
  have aliases := entered_congr (!·.isFunction) (f := aliasName?) (g := Decl.name?)
    (by rintro ⟨⟩ kind <;> first | rfl | cases kind) [] block
  rw [own, List.filterMap_append, others, aliases]
  simp

/-- What a block declares itself is all that it adds: each function once to the current frame,
each alias once and each exception in order to their tables. -/
structure DeclaresOnly (block : List (Located Decl)) (ctx ctx' : Context) : Prop where
  outer : ctx'.scope.outer = ctx.scope.outer
  typeVars : ctx'.scope.current.typeVars = ctx.scope.current.typeVars
  functions : ∃ bound, ctx'.scope.current.vars = bound ++ ctx.scope.current.vars ∧
    (bound.map (·.1)).Nodup ∧
    ∀ f, f ∈ bound.map (·.1) ↔ ∃ d ∈ block, functionName? d.node = some f
  aliases : ∃ new, ctx'.aliases = new ++ ctx.aliases ∧ (new.map (·.1)).Nodup ∧
    ∀ x, x ∈ new.map (·.1) ↔ ∃ d ∈ block, aliasName? d.node = some x
  exceptionType : block.filterMap (raisedType? ·.node) = [] → ctx'.exceptionType = ctx.exceptionType
  exceptionVariants : ∃ new, ctx'.exceptionVariants = ctx.exceptionVariants ++ new ∧
    new.map (·.1) = block.filterMap (raisedLabel? ·.node)
  subtyping : ctx'.subtyping = ctx.subtyping

theorem Adds.declaresOnly {block : List (Located Decl)} {ctx ctx' : Context}
    (adds : Adds (own block) ctx ctx') : DeclaresOnly block ctx ctx' where
  outer := adds.outer
  typeVars := adds.typeVars
  functions := by
    obtain ⟨bound, vars, names⟩ := adds.functions
    obtain ⟨nodup, mem⟩ := entered_names [] (block.filter (·.node.isFunction))
    rw [own_functions] at names
    refine ⟨bound, vars, names ▸ (List.reverse_perm _).nodup_iff.mpr nodup, fun f => ?_⟩
    have kind (d : Located Decl) : functionName? d.node = some f ↔
        d.node.isFunction = true ∧ d.node.name? = some f := by
      cases h : d.node <;> simp [functionName?, Decl.isFunction, Decl.name?]
    rw [names, List.mem_reverse, mem]
    simp [kind, and_assoc]
  aliases := by
    obtain ⟨new, aliases, names⟩ := adds.aliases
    obtain ⟨nodup, mem⟩ := entered_names [] (block.filter (!·.node.isFunction))
    rw [own_aliases] at names
    refine ⟨new, aliases, names ▸ (List.reverse_perm _).nodup_iff.mpr nodup, fun x => ?_⟩
    have kind (d : Located Decl) : aliasName? d.node = some x ↔
        (!d.node.isFunction) = true ∧ d.node.name? = some x := by
      cases h : d.node <;> simp [aliasName?, Decl.isFunction, Decl.name?]
    rw [names, List.mem_reverse, mem]
    simp [kind, and_assoc]
  exceptionType undeclared := by
    refine adds.exceptionType ?_
    rwa [own_unnamed (by rintro ⟨⟩ _ found <;> first | rfl | cases found)]
  exceptionVariants := by
    obtain ⟨new, variants, labels⟩ := adds.exceptionVariants
    rw [own_unnamed (by rintro ⟨⟩ _ found <;> first | rfl | cases found)] at labels
    exact ⟨new, variants, labels⟩
  subtyping := adds.subtyping

end Blocks

/-- Checking leaves no trace but errors. For every state of the checker in place, halted or not,
an expression leaves the declarations and the pending binders as they were and only adds errors;
a block adds the entries of its own declarations and nothing that its functions declare inside.
With no binder pending, both steps answer and report what the checker does that is handed its
context. -/
theorem checking_leaves_no_trace :
    (∀ (e : Located Expr) (s : Store),
      (synth e s).2.context = s.context ∧ (synth e s).2.binders = s.binders ∧
      s.progress.errors <+: (synth e s).2.progress.errors ∧
      (s.binders = [] →
        ((synth e s).1, (synth e s).2.progress) = Typing.synth s.context e s.progress)) ∧
    (∀ (block : List (Located Decl)) (s : Store),
      DeclaresOnly block s.context (checkBlock block s).2.context ∧
      (checkBlock block s).2.binders = s.binders ∧
      s.progress.errors <+: (checkBlock block s).2.progress.errors ∧
      (s.binders = [] → ((checkBlock block s).2.context, (checkBlock block s).2.progress) =
        Typing.checkBlock s.context block s.progress)) := by
  constructor
  · intro e s
    have restores := synth_restores e
    refine ⟨restores.kept s, restores.binders s, restores.errors s, fun none => ?_⟩
    obtain ⟨answer, progress⟩ := restores.agrees s none
    exact Prod.ext answer progress
  · intro block s
    have adds := checkBlock_extends block
    refine ⟨(adds.kept s).declaresOnly, adds.binders s, adds.errors s, fun none => ?_⟩
    obtain ⟨⟨context, -⟩, progress⟩ := adds.agrees s none
    exact Prod.ext context progress

end StellaLang.Typing.InPlace
