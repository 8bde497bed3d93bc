import StellaLang.Proofs.Syntax.Blocks
import StellaLang.Proofs.Typing.Duplicates
import StellaLang.Proofs.Typing.Repeats

/-! The first declaration of a name in a block counts, and each other one is reported. -/
namespace StellaLang.Typing

open Syntax
open Check (Gives Reveals)

/-- What is said of a declaration whose name is taken. -/
def duplicate? (d : Located Decl) : Option TypeError :=
  d.node.name?.map fun x => ⟨.duplicateDeclaration x, d.position⟩

/-- What is to be said of the declarations of a block. -/
def duplicates (block : List (Located Decl)) : List TypeError :=
  (Decl.repeats [] block).filterMap duplicate?

section Counting

theorem declaredResult_reveals (ctx : Context) (result : Option (Located TypeExpr)) :
    Reveals [] (declaredResult ctx result) := by
  cases result with
  | none => exact .answer _
  | some t => exact meaning_reveals ctx t

theorem signature_reveals (ctx : Context) (generics : Option (List String))
    (params : List (String × Located TypeExpr)) (result : Option (Located TypeExpr)) :
    Reveals [] (signature ctx generics params result) :=
  (meanings_reveals _ _).bind fun _ => (declaredResult_reveals _ result).map _

theorem declare_reveals (ctx : Context) (d : Decl) : Reveals [] (declare ctx d) := by
  cases d with
  | function modifiers f generics params result =>
    exact (signature_reveals ctx generics params result).map _
  | typeAlias x t => exact (meaning_reveals ctx t).map _
  | exceptionType t =>
    refine (meaning_reveals ctx t).bind fun raised => ?_
    dsimp only
    split
    · exact (Reveals.note ..).map _
    · exact .answer _
  | exceptionVariant l t => exact (meaning_reveals ctx t).map _

theorem declareAll_reveals (ctx : Context) (names : List String) (ds : List (Located Decl)) :
    Reveals ((Decl.taken names ds).filterMap duplicate?) (declareAll ctx names ds) := by
  induction ds generalizing ctx names with
  | nil => exact .answer _
  | cons d ds ih =>
    rw [declareAll, Decl.taken]
    cases named : d.node.name? with
    | none => exact (declare_reveals ctx d.node).bind fun ctx => ih ctx names
    | some x =>
      dsimp only
      split
      · have said : duplicate? d = some ⟨.duplicateDeclaration x, d.position⟩ := by
          rw [duplicate?, named]
          rfl
        rw [List.filterMap_cons_some said]
        have reported : Reveals [⟨.duplicateDeclaration x, d.position⟩]
            (Check.report (.duplicateDeclaration x) d.position) := ⟨_, _, .report _ _, .refl _⟩
        exact reported.append fun _ => ih ctx names
      · exact (declare_reveals ctx d.node).bind fun ctx => ih ctx (x :: names)

/-- Functions and the other declarations of a block are looked at apart. -/
theorem declareBlock_reveals (ctx : Context) (block : List (Located Decl)) :
    Reveals (duplicates block) (declareBlock ctx block) := by
  have types := declareAll_reveals ctx [] (block.filter (!·.node.isFunction))
  have whole : Reveals _ (declareBlock ctx block) := types.append fun (outer, _) =>
    (declareAll_reveals outer [] (block.filter (·.node.isFunction))).append fun (inner, _) =>
      (Reveals.note _ _ _).map fun _ => inner
  refine whole.perm ?_
  rw [List.append_nil, ← (Decl.others_sifted block).2, ← (Decl.functions_sifted block).2,
    ← List.filterMap_append]
  refine .filterMap duplicate? ?_
  exact List.perm_append_comm.trans (List.filter_append_perm _ _)

mutual

/-- To check a function reveals what is to be said of the blocks in it. -/
theorem checkDecl_reveals (ctx : Context) (d : Located Decl) :
    Reveals ((Decl.blocks d).flatMap duplicates) (checkDecl ctx d) := by
  obtain ⟨d, position⟩ := d
  exact checkDeclNode_reveals ctx position d
termination_by structural d

theorem checkDeclNode_reveals (ctx : Context) (position : Option Position) (d : Decl) :
    Reveals ((Decl.blocks ⟨d, position⟩).flatMap duplicates) (checkDeclNode ctx d) := by
  cases d with
  | function modifiers name generics params result throws locals body =>
    rw [Decl.blocks, List.flatMap_cons]
    refine (Reveals.note _ _ _).bind fun _ => (bindParams_reveals _ params).bind fun (inner, _) =>
      (meanings_reveals inner throws).bind fun _ => (declaredResult_reveals inner result).bind fun r =>
      (declareBlock_reveals inner locals).append fun block => ?_
    have checked : Reveals _ _ := (checkDecls_reveals block locals).append fun _ =>
      (synth_reveals block body).bind fun t => Reveals.require block t r body.position
    rwa [List.append_nil] at checked
  | typeAlias | exceptionType | exceptionVariant =>
    rw [Decl.blocks]
    exact .answer ()
termination_by structural d

theorem checkDecls_reveals (ctx : Context) (ds : List (Located Decl)) :
    Reveals ((Decl.blocksAll ds).flatMap duplicates) (checkDecls ctx ds) := by
  match ds with
  | [] =>
    rw [Decl.blocksAll]
    exact .answer ()
  | d :: ds =>
    rw [Decl.blocksAll, List.flatMap_append]
    exact .guarded () ((checkDecl_reveals ctx d).append fun _ => checkDecls_reveals ctx ds)
termination_by structural ds

end

/-- The names that are reported as taken are those of the declarations that clash with one before them
in their block. -/
theorem checkProgram_reveals (p : Located Program) :
    ((checkProgram p).filter TypeError.isDuplicate).Perm ((Program.blocks p).flatMap duplicates) := by
  have checked (ctx : Context) : Reveals ((Program.blocks p).flatMap duplicates)
      (checkModule ctx p.node.decls) := by
    have block : Reveals _ (checkBlock ctx p.node.decls) :=
      (declareBlock_reveals ctx p.node.decls).append fun inner =>
        (checkDecls_reveals inner p.node.decls).append fun _ => .answer inner
    have last (inner : Context) : Reveals [] (do
        if (inner.scope.lookup "main").isNone then
          let _ ← Check.report .missingMain none
        return inner) := by
      split
      · exact (Reveals.report rfl none).map _
      · exact .answer inner
    have whole : Reveals _ (checkModule ctx p.node.decls) := block.append last
    simpa only [Program.blocks, List.flatMap_cons, List.append_nil] using whole
  let mode := p.node.hasExtension Checker.subtypingExtension
  have whole : Reveals ((Program.blocks p).flatMap duplicates) (({} : Checker).checking p) := by
    unfold Checker.checking
    dsimp only
    split
    · exact (Reveals.note _ _ _).bind fun _ => checked _
    · exact checked _
  obtain ⟨answer, es, found, those⟩ := whole
  rwa [found.checkProgram]

end Counting

section Declaring

theorem Check.Reveals.plain {x : Check α} (revealed : Reveals [] x) :
    ∃ a es, Gives x a es ∧ es.filter (!·.isDuplicate) = es := by
  obtain ⟨a, es, found, none⟩ := revealed
  refine ⟨a, es, found, List.filter_eq_self.mpr fun e member => ?_⟩
  have other := List.filter_eq_nil_iff.mp none.eq_nil e member
  simpa using other

/-- What a name stands for is the same in two contexts. -/
def Kept (x : String) (ctx ctx' : Context) : Prop :=
  ctx'.aliases.lookup x = ctx.aliases.lookup x ∧ ctx'.scope.lookup x = ctx.scope.lookup x

theorem Kept.trans {x : String} {ctx ctx' ctx'' : Context} (first : Kept x ctx ctx')
    (second : Kept x ctx' ctx'') : Kept x ctx ctx'' :=
  ⟨second.1.trans first.1, second.2.trans first.2⟩

/-- What a declaration comes to: it changes only what its name stands for, and finds no name taken. -/
structure Effect (ctx : Context) (d : Decl) (inner : Context) (es : List TypeError) : Prop where
  found : Gives (declare ctx d) inner es
  plain : es.filter (!·.isDuplicate) = es
  kept : ∀ x, d.name? ≠ some x → Kept x ctx inner
  types : d.isFunction = true → ctx.SameTypes inner

theorem declare_effect (ctx : Context) (d : Decl) : ∃ inner es, Effect ctx d inner es := by
  cases d with
  | function modifiers f generics params result =>
    obtain ⟨t, es, signed, plain⟩ := (signature_reveals ctx generics params result).plain
    refine ⟨ctx.bind f t, es ++ [], signed.bind (.answer _), by simpa using plain, fun x other => ?_,
      fun _ => .bind ctx f t⟩
    have different : x ≠ f := fun same => other (congrArg some same.symm)
    exact ⟨rfl, by rw [Context.bind, Scope.lookup_bind, if_neg different]⟩
  | typeAlias y t =>
    obtain ⟨u, es, known, plain⟩ := (meaning_reveals ctx t).plain
    refine ⟨{ ctx with aliases := (y, u) :: ctx.aliases }, es ++ [], known.bind (.answer _),
      by simpa using plain, fun x other => ⟨?_, rfl⟩, fun function => by contradiction⟩
    have different : (x == y) = false := by simpa using fun same => other (congrArg some same.symm)
    rw [List.lookup_cons, different]
  | exceptionType t =>
    obtain ⟨u, es, known, plain⟩ := (meaning_reveals ctx t).plain
    have noted : Gives (do
        if ctx.exceptionType.isSome then
          Check.note .warn declTopic "exception type declared more than once; keeping the last"
        return { ctx with exceptionType := some u }) { ctx with exceptionType := some u } [] := by
      split
      · exact (Gives.note _ _ _).bind (.answer _)
      · exact .answer _
    exact ⟨_, es ++ [], known.bind noted, by simpa using plain, fun x _ => ⟨rfl, rfl⟩,
      fun function => by contradiction⟩
  | exceptionVariant l t =>
    obtain ⟨u, es, known, plain⟩ := (meaning_reveals ctx t).plain
    exact ⟨_, es ++ [], known.bind (.answer _), by simpa using plain, fun x _ => ⟨rfl, rfl⟩,
      fun function => by contradiction⟩

/-- What declaring some declarations, after others that introduced `names`, comes to: no name that is
taken changes what it stands for, and all is as if the declarations of taken names were not there. -/
structure DeclaredFirsts (ctx : Context) (names : List String) (ds : List (Located Decl))
    (answer : Context × List String) (es : List TypeError) : Prop where
  found : Gives (declareAll ctx names ds) answer es
  alone : Gives (declareAll ctx names (Decl.firsts names ds)) answer (es.filter (!·.isDuplicate))
  kept : ∀ x ∈ names, Kept x ctx answer.1
  new : ∀ x ∈ answer.2, x ∈ names ∨ some x ∈ ds.map (·.node.name?)
  types : (∀ d ∈ ds, d.node.isFunction = true) → ctx.SameTypes answer.1

namespace DeclaredFirsts

variable {ctx inner : Context} {names : List String} {d : Located Decl} {ds : List (Located Decl)}
  {answer : Context × List String} {es fs : List TypeError}

theorem unnamed (named : d.node.name? = none) (one : Effect ctx d.node inner es)
    (rest : DeclaredFirsts inner names ds answer fs) :
    DeclaredFirsts ctx names (d :: ds) answer (es ++ fs) where
  found := by
    rw [declareAll, named]
    exact one.found.bind rest.found
  alone := by
    rw [Decl.firsts, named, List.filter_append, one.plain]
    dsimp only
    rw [declareAll, named]
    exact one.found.bind rest.alone
  kept x member := (one.kept x (by simp [named])).trans (rest.kept x member)
  new x member := (rest.new x member).imp id (List.mem_cons_of_mem _)
  types functions := (one.types (functions d List.mem_cons_self)).trans
    (rest.types fun e inside => functions e (List.mem_cons_of_mem d inside))

theorem taken {y : String} (named : d.node.name? = some y) (old : names.contains y = true)
    (rest : DeclaredFirsts ctx names ds answer fs) :
    DeclaredFirsts ctx names (d :: ds) answer (⟨.duplicateDeclaration y, d.position⟩ :: fs) where
  found := by
    rw [declareAll, named]
    dsimp only
    rw [if_pos old]
    exact (Gives.report (.duplicateDeclaration y) d.position).bind rest.found
  alone := by
    rw [Decl.firsts, named]
    dsimp only
    rw [if_pos old]
    exact rest.alone
  kept := rest.kept
  new x member := (rest.new x member).imp id (List.mem_cons_of_mem _)
  types functions := rest.types fun e inside => functions e (List.mem_cons_of_mem d inside)

theorem first {y : String} (named : d.node.name? = some y) (fresh : ¬names.contains y = true)
    (one : Effect ctx d.node inner es) (rest : DeclaredFirsts inner (y :: names) ds answer fs) :
    DeclaredFirsts ctx names (d :: ds) answer (es ++ fs) where
  found := by
    rw [declareAll, named]
    dsimp only
    rw [if_neg fresh]
    exact one.found.bind rest.found
  alone := by
    rw [Decl.firsts, named, List.filter_append, one.plain]
    dsimp only
    rw [if_neg fresh, declareAll, named]
    dsimp only
    rw [if_neg fresh]
    exact one.found.bind rest.alone
  kept x member := by
    have other : d.node.name? ≠ some x := by
      rintro same
      obtain rfl := Option.some.inj (named.symm.trans same)
      exact fresh (by simpa using member)
    exact (one.kept x other).trans (rest.kept x (List.mem_cons_of_mem y member))
  new x member := by
    rcases rest.new x member with known | later
    · rcases List.mem_cons.mp known with rfl | known
      · exact .inr (List.mem_cons.mpr (.inl named.symm))
      · exact .inl known
    · exact .inr (List.mem_cons_of_mem _ later)
  types functions := (one.types (functions d List.mem_cons_self)).trans
    (rest.types fun e inside => functions e (List.mem_cons_of_mem d inside))

end DeclaredFirsts

theorem declareAll_declared (ctx : Context) (names : List String) (ds : List (Located Decl)) :
    ∃ answer es, DeclaredFirsts ctx names ds answer es := by
  induction ds generalizing ctx names with
  | nil =>
    exact ⟨(ctx, names), [], .answer _, .answer _, fun _ _ => ⟨rfl, rfl⟩, fun _ => .inl,
      fun _ => .refl ctx⟩
  | cons d ds ih =>
    obtain ⟨inner, es, one⟩ := declare_effect ctx d.node
    cases named : d.node.name? with
    | none =>
      obtain ⟨answer, fs, rest⟩ := ih inner names
      exact ⟨answer, _, rest.unnamed named one⟩
    | some y =>
      by_cases old : names.contains y = true
      · obtain ⟨answer, fs, rest⟩ := ih ctx names
        exact ⟨answer, _, rest.taken named old⟩
      · obtain ⟨answer, fs, rest⟩ := ih inner (y :: names)
        exact ⟨answer, _, rest.first named old one⟩

theorem declareAll_append (ctx : Context) (names : List String) (before after : List (Located Decl)) :
    declareAll ctx names (before ++ after) =
      declareAll ctx names before >>= fun answer => declareAll answer.1 answer.2 after := by
  induction before generalizing ctx names with
  | nil => rfl
  | cons d before ih =>
    rw [List.cons_append, declareAll, declareAll]
    split
    · rw [bind_assoc]
      exact congrArg (declare ctx d.node >>= ·) (funext fun inner => ih inner names)
    · split
      · rw [bind_assoc]
        exact congrArg (Check.report _ _ >>= ·) (funext fun _ => ih ctx names)
      · rw [bind_assoc]
        exact congrArg (declare ctx d.node >>= ·) (funext fun inner => ih inner _)

/-- From the first declaration of a name on, the name stands for what that declaration gives it. -/
theorem declareAll_first (ctx : Context) {before : List (Located Decl)} {d : Located Decl} {x : String}
    (named : d.node.name? = some x) (fresh : some x ∉ before.map (·.node.name?))
    (later : List (Located Decl)) :
    ∃ there inner answer es fs gs, Gives (declareAll ctx [] before) there es ∧
      Gives (declare there.1 d.node) inner fs ∧
      Gives (declareAll ctx [] (before ++ d :: later)) answer gs ∧ Kept x inner answer.1 ∧
      ((∀ e ∈ before ++ d :: later, e.node.isFunction = true) → there.1.SameTypes answer.1) := by
  obtain ⟨there, es, earlier⟩ := declareAll_declared ctx [] before
  obtain ⟨inner, fs, one⟩ := declare_effect there.1 d.node
  obtain ⟨answer, gs, rest⟩ := declareAll_declared inner (x :: there.2) later
  have unknown : ¬there.2.contains x = true := by
    rw [List.contains_iff_mem]
    intro member
    rcases earlier.new x member with old | old
    · contradiction
    · exact fresh old
  have both := rest.first named unknown one
  refine ⟨there, inner, answer, es, fs, es ++ (fs ++ gs), earlier.found, one.found, ?_,
    rest.kept x List.mem_cons_self, fun functions => ?_⟩
  · rw [declareAll_append]
    exact earlier.found.bind both.found
  · exact both.types fun e inside => functions e (List.mem_append_right before inside)

end Declaring

section Seeing

/-- Wherever a name stands for the type that it stands for in a context, and no type variable of that
name is nearer, an annotation that uses it means this type. -/
def TypeSeen (ctx : Context) (x : String) (t : Ty) : Prop :=
  ∀ (there : Context) (bound : List String) (position : Option Position),
    there.aliases.lookup x = ctx.aliases.lookup x → bound.contains x = false →
    there.scope.hasTypeVar x = false → Gives (resolve there bound ⟨.var x, position⟩) t []

/-- Wherever a name stands for the variable that it stands for in a context, it has this type. -/
def VariableSeen (ctx : Context) (x : String) (t : Ty) : Prop :=
  ∀ (there : Context) (position : Option Position), there.scope.lookup x = ctx.scope.lookup x →
    Gives (synth there ⟨.var x, position⟩) t []

theorem typeSeen_of_lookup {ctx : Context} {x : String} {t : Ty}
    (known : ctx.aliases.lookup x = some t) : TypeSeen ctx x t := by
  intro there bound position same free plain
  rw [resolve, resolveNode, free, plain, same, known]
  exact .answer t

theorem variableSeen_of_lookup {ctx : Context} {x : String} {t : Ty}
    (known : ctx.scope.lookup x = some t) : VariableSeen ctx x t := by
  intro there position same
  have found : Gives (synthNode there position (.var x)) t [] := by
    rw [synthNode, same, known]
    exact .answer t
  have judged : Gives (Check.judge there ⟨.var x, position⟩ t >>= fun _ => pure t) t ([] ++ []) :=
    (Gives.judge _ _ _).bind (.answer t)
  exact (found.bind judged).guarded Ty.error

variable {ctx : Context} {block : List (Located Decl)}

theorem Check.Gives.declareBlock {outer inner : Context × List String} {es fs : List TypeError}
    (types : Gives (declareAll ctx [] (block.filter (!·.node.isFunction))) outer es)
    (functions : Gives (declareAll outer.1 [] (block.filter (·.node.isFunction))) inner fs) :
    Gives (declareBlock ctx block) inner.1 (es ++ fs) := by
  have whole : Gives (Typing.declareBlock ctx block) inner.1 (es ++ (fs ++ ([] ++ []))) :=
    types.bind (functions.bind ((Gives.note _ _ _).bind (.answer inner.1)))
  rwa [List.append_nil, List.append_nil] at whole

/-- The first function of its name in a block is what the name stands for in the block. -/
theorem function_seen {inner : Context} {es : List TypeError} {before after : List (Located Decl)}
    {d : Located Decl} {f : String} (declared : Gives (declareBlock ctx (before ++ d :: after)) inner es)
    (function : d.node.isFunction = true) (named : d.node.name? = some f)
    (first : before.any (Decl.clashes d) = false) :
    ∃ t fs, Gives (signatureOf inner d) t fs ∧ VariableSeen inner f t := by
  obtain ⟨outer, es', types⟩ :=
    declareAll_declared ctx [] ((before ++ d :: after).filter (!·.node.isFunction))
  have fresh : some f ∉ (before.filter (·.node.isFunction)).map (·.node.name?) := by
    intro member
    obtain ⟨e, inside, same⟩ := List.mem_map.mp member
    obtain ⟨earlier, own⟩ := List.mem_filter.mp inside
    exact Decl.name_ne_of_first named first earlier (own.trans function.symm) same
  obtain ⟨there, bound, answer, _, _, gs, -, one, all, kept, same⟩ :=
    declareAll_first outer.1 named fresh (after.filter (·.node.isFunction))
  have functions : (before ++ d :: after).filter (·.node.isFunction) =
      before.filter (·.node.isFunction) ++ d :: after.filter (·.node.isFunction) := by
    rw [List.filter_append, List.filter_cons_of_pos (by simpa using function)]
  rw [← functions] at all same
  obtain ⟨rfl, -⟩ := (types.found.declareBlock all).unique declared
  have unchanged := same fun e inside => (List.mem_filter.mp inside).2
  obtain ⟨d, position⟩ := d
  cases d with
  | function modifiers g generics params result throws locals body =>
    obtain rfl : g = f := Option.some.inj named
    obtain ⟨t, fs, signed⟩ := signatureOf_gives there.1
      ⟨.function modifiers g generics params result throws locals body, position⟩
    have whole : Gives (declare there.1 (.function modifiers g generics params result throws locals body))
        (there.1.bind g t) (fs ++ []) := signed.bind (.answer (there.1.bind g t))
    obtain ⟨rfl, -⟩ := one.unique whole
    refine ⟨t, fs, (signatureOf_alike unchanged _).carry signed, variableSeen_of_lookup ?_⟩
    rw [kept.2, Context.bind, Scope.lookup_bind, if_pos rfl]
  | _ => contradiction

theorem alias_known (ctx : Context) {before : List (Located Decl)} {x : String} {t : Located TypeExpr}
    {position : Option Position} (fresh : some x ∉ before.map (·.node.name?))
    (later : List (Located Decl)) :
    ∃ there stage es fs, Gives (declareAll ctx [] before) there es ∧
      Gives (declareAll ctx [] (before ++ ⟨.typeAlias x t, position⟩ :: later)) stage fs ∧
      stage.1.aliases.lookup x = some (denote there.1 [] t) := by
  obtain ⟨there, inner, stage, es, fs, gs, earlier, one, all, kept, -⟩ :=
    declareAll_first ctx (d := ⟨.typeAlias x t, position⟩) rfl fresh later
  obtain ⟨u, hs, known, -⟩ := (meaning_reveals there.1 t).plain
  have stands : u = denote there.1 [] t := by
    rw [← meaning_answer there.1 t Progress.Free.start.sound]
    exact (known {} .start).1.symm
  have whole : Gives (declare there.1 (.typeAlias x t))
      { there.1 with aliases := (x, u) :: there.1.aliases } (hs ++ []) := known.bind (.answer _)
  obtain ⟨rfl, -⟩ := whole.unique one
  refine ⟨there, stage, es, gs, earlier, all, ?_⟩
  rw [kept.1, stands]
  exact List.lookup_cons_self

/-- The first alias of its name in a block is what the name stands for from there on, in the aliases
and exceptions that come after it and in the functions. -/
theorem alias_seen {inner : Context} {es : List TypeError} {before mid after : List (Located Decl)}
    {x : String} {t : Located TypeExpr} {position : Option Position}
    (declared : Gives (declareBlock ctx (before ++ ⟨.typeAlias x t, position⟩ :: (mid ++ after))) inner es)
    (first : before.any (Decl.clashes ⟨.typeAlias x t, position⟩) = false) :
    ∃ there stage fs gs, Gives (declareAll ctx [] (before.filter (!·.node.isFunction))) there fs ∧
      Gives (declareAll ctx []
        ((before ++ ⟨.typeAlias x t, position⟩ :: mid).filter (!·.node.isFunction))) stage gs ∧
      TypeSeen stage.1 x (denote there.1 [] t) ∧ TypeSeen inner x (denote there.1 [] t) := by
  have fresh : some x ∉ (before.filter (!·.node.isFunction)).map (·.node.name?) := by
    intro member
    obtain ⟨e, inside, same⟩ := List.mem_map.mp member
    obtain ⟨earlier, own⟩ := List.mem_filter.mp inside
    exact Decl.name_ne_of_first rfl first earlier (by simpa [Decl.isFunction] using own) same
  have others (later : List (Located Decl)) :
      (before ++ ⟨.typeAlias x t, position⟩ :: later).filter (!·.node.isFunction) =
        before.filter (!·.node.isFunction) ++
          ⟨.typeAlias x t, position⟩ :: later.filter (!·.node.isFunction) := by
    rw [List.filter_append, List.filter_cons_of_pos rfl]
  obtain ⟨there, stage, fs, gs, earlier, until', known⟩ := alias_known ctx fresh
    (mid.filter (!·.node.isFunction))
  obtain ⟨_, outer, _, hs, earlier', all, known'⟩ := alias_known ctx fresh
    ((mid ++ after).filter (!·.node.isFunction))
  obtain ⟨rfl, -⟩ := earlier'.unique earlier
  rw [← others] at until' all
  obtain ⟨answer, ks, functions⟩ := declareAll_declared outer.1 []
    ((before ++ ⟨.typeAlias x t, position⟩ :: (mid ++ after)).filter (·.node.isFunction))
  obtain ⟨rfl, -⟩ := (all.declareBlock functions.found).unique declared
  have unchanged := functions.types fun e inside => (List.mem_filter.mp inside).2
  refine ⟨there, stage, fs, gs, earlier, until', typeSeen_of_lookup known, typeSeen_of_lookup ?_⟩
  rw [unchanged.environment]
  exact known'

/-- That the first declaration of a name in a block is the one that counts: all is declared as if the
others were not there, the name of a function stands for the first one in the whole block, and the name
of a type from its first alias on. -/
structure FirstCounts (ctx : Context) (block : List (Located Decl)) (inner : Context)
    (es : List TypeError) : Prop where
  declared : Gives (declareBlock ctx block) inner es
  alone : Gives (declareBlock ctx (Decl.originals [] block)) inner (es.filter (!·.isDuplicate))
  functions : ∀ before d after f, block = before ++ d :: after → d.node.isFunction = true →
    d.node.name? = some f → before.any (Decl.clashes d) = false →
    ∃ t fs, Gives (signatureOf inner d) t fs ∧ VariableSeen inner f t
  aliases : ∀ before x t position mid after,
    block = before ++ ⟨.typeAlias x t, position⟩ :: (mid ++ after) →
    before.any (Decl.clashes ⟨.typeAlias x t, position⟩) = false →
    ∃ there stage fs gs, Gives (declareAll ctx [] (before.filter (!·.node.isFunction))) there fs ∧
      Gives (declareAll ctx []
        ((before ++ ⟨.typeAlias x t, position⟩ :: mid).filter (!·.node.isFunction))) stage gs ∧
      TypeSeen stage.1 x (denote there.1 [] t) ∧ TypeSeen inner x (denote there.1 [] t)

theorem declareBlock_first (ctx : Context) (block : List (Located Decl)) :
    ∃ inner es, FirstCounts ctx block inner es := by
  obtain ⟨outer, es, types⟩ := declareAll_declared ctx [] (block.filter (!·.node.isFunction))
  obtain ⟨inner, fs, functions⟩ := declareAll_declared outer.1 [] (block.filter (·.node.isFunction))
  have declared := types.found.declareBlock functions.found
  have types' := types.alone
  have functions' := functions.alone
  rw [← (Decl.others_sifted block).1] at types'
  rw [← (Decl.functions_sifted block).1] at functions'
  refine ⟨inner.1, es ++ fs, declared, ?_, ?_, ?_⟩
  · rw [List.filter_append]
    exact types'.declareBlock functions'
  · rintro before d after f rfl function named first
    exact function_seen declared function named first
  · rintro before x t position mid after rfl first
    exact alias_seen declared first

end Seeing

/-- The names that a program is told are taken are, in some order, those of the declarations that clash
with one before them in their block; and in each block the first declaration of a name counts. -/
theorem first_declarations_count (p : Located Program) :
    ((checkProgram p).filter TypeError.isDuplicate).Perm ((Program.blocks p).flatMap duplicates) ∧
    ∀ (ctx : Context) (block : List (Located Decl)), ∃ inner es, FirstCounts ctx block inner es :=
  ⟨checkProgram_reveals p, declareBlock_first⟩

/-- A program that declares `main` twice, and `T` twice in the second one. -/
def twiceNamed : Located Program :=
  ⟨⟨[], [⟨.function [] "main" none [("n", ⟨.nat, none⟩)] (some ⟨.nat, none⟩) [] [] ⟨.var "n", none⟩,
      some ⟨1, 1, 0⟩⟩,
    ⟨.function [] "main" none [("b", ⟨.bool, none⟩)] (some ⟨.nat, none⟩) []
      [⟨.typeAlias "T" ⟨.nat, none⟩, some ⟨3, 3, 60⟩⟩, ⟨.typeAlias "T" ⟨.bool, none⟩, some ⟨4, 3, 80⟩⟩]
      ⟨.ascribe ⟨.literal (.nat 0), none⟩ ⟨.var "T", none⟩, none⟩, some ⟨2, 1, 40⟩⟩]⟩, none⟩

theorem twiceNamed_reported :
    ((checkProgram twiceNamed).filter TypeError.isDuplicate).Perm
      [⟨.duplicateDeclaration "main", some ⟨2, 1, 40⟩⟩, ⟨.duplicateDeclaration "T", some ⟨4, 3, 80⟩⟩] ∧
    ∃ inner es t fs, Gives (declareBlock {} twiceNamed.node.decls) inner es ∧
      Gives (signatureOf inner (twiceNamed.node.decls.head (by simp [twiceNamed]))) t fs ∧
      VariableSeen inner "main" t := by
  obtain ⟨counted, first⟩ := first_declarations_count twiceNamed
  have said : (Program.blocks twiceNamed).flatMap duplicates =
      [⟨.duplicateDeclaration "main", some ⟨2, 1, 40⟩⟩,
        ⟨.duplicateDeclaration "T", some ⟨4, 3, 80⟩⟩] := by decide +kernel
  rw [said] at counted
  obtain ⟨inner, es, block⟩ := first {} twiceNamed.node.decls
  obtain ⟨t, fs, signed, seen⟩ := block.functions [] _ _ "main" rfl rfl rfl rfl
  exact ⟨counted, inner, es, t, fs, block.declared, signed, seen⟩

/-- A program with an alias that comes before the two aliases `T`. -/
def ahead (use : TypeExpr) : Located Program :=
  ⟨⟨[], [⟨.typeAlias "A" ⟨use, some ⟨1, 10, 9⟩⟩, some ⟨1, 1, 0⟩⟩,
    ⟨.typeAlias "T" ⟨.nat, some ⟨2, 10, 21⟩⟩, some ⟨2, 1, 12⟩⟩,
    ⟨.typeAlias "T" ⟨.bool, some ⟨3, 10, 35⟩⟩, some ⟨3, 1, 26⟩⟩,
    ⟨.function [] "main" none [("n", ⟨.nat, some ⟨4, 13, 53⟩⟩)] (some ⟨.nat, some ⟨4, 21, 61⟩⟩) [] []
      ⟨.var "n", some ⟨4, 34, 74⟩⟩, some ⟨4, 1, 41⟩⟩]⟩, some ⟨0, 0, 0⟩⟩

/-- A program with two aliases `T` in a function that has a type parameter of that name. -/
def hidden (use : TypeExpr) : Located Program :=
  ⟨⟨[], [⟨.function [] "main" (some ["T"]) [("n", ⟨.nat, some ⟨1, 24, 23⟩⟩)]
    (some ⟨.nat, some ⟨1, 32, 31⟩⟩) []
    [⟨.typeAlias "T" ⟨.nat, some ⟨2, 12, 49⟩⟩, some ⟨2, 3, 40⟩⟩,
      ⟨.typeAlias "T" ⟨.bool, some ⟨3, 12, 65⟩⟩, some ⟨3, 3, 56⟩⟩]
    ⟨.ascribe ⟨.var "n", some ⟨4, 10, 80⟩⟩ ⟨use, some ⟨4, 15, 85⟩⟩, some ⟨4, 10, 80⟩⟩,
    some ⟨1, 1, 0⟩⟩]⟩, some ⟨0, 0, 0⟩⟩

/-- Aliases are declared one after the other, so one that comes before the first alias `T` does not see
it; and a type parameter hides all aliases of its name. Neither use of `T` means `Nat`, as the first
alias has it. -/
theorem uses_not_first :
    checkProgram (ahead .nat) = [⟨.duplicateDeclaration "T", some ⟨3, 1, 26⟩⟩] ∧
    checkProgram (ahead (.var "T")) =
      [⟨.undefinedVariable "T", some ⟨1, 10, 9⟩⟩, ⟨.duplicateDeclaration "T", some ⟨3, 1, 26⟩⟩] ∧
    checkProgram (hidden .nat) = [⟨.duplicateDeclaration "T", some ⟨3, 3, 56⟩⟩] ∧
    checkProgram (hidden (.var "T")) =
      [⟨.duplicateDeclaration "T", some ⟨3, 3, 56⟩⟩, ⟨.mismatch (.var "T") .nat, some ⟨4, 10, 80⟩⟩,
        ⟨.mismatch .nat (.var "T"), some ⟨4, 10, 80⟩⟩] := by
  decide +kernel

end StellaLang.Typing
