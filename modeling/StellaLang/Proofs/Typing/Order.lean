import Mathlib.Data.List.Nodup
import StellaLang.Proofs.Typing.Places

/-! The order of functions does not matter. All signatures of a block are known before any of its
functions is checked, and to check a function leaves nothing behind but its errors; so functions
with different names may stand in any order, in a program and in the locals of a function. -/
namespace StellaLang.Typing

open Syntax (Decl Expr Program TypeExpr)
open Check Agree

/-- That a block is another one in which the functions of one block, itself or the locals of a
function at any depth, were put into another order. All other declarations keep theirs. -/
inductive Reordered : List (Located Decl) → List (Located Decl) → Prop where
  | here (permuted : block.Perm block')
      (others : block'.filter (!·.node.isFunction) = block.filter (!·.node.isFunction))
      (distinct : ((block.filter (·.node.isFunction)).map (·.node.name?)).Nodup) :
      Reordered block block'
  | inside (before after : List (Located Decl)) (modifiers : List Syntax.Modifier) (name : String)
      (generics : Option (List String)) (params : List (String × Located TypeExpr))
      (result : Option (Located TypeExpr)) (throws : List (Located TypeExpr)) (body : Located Expr)
      (position : Option Position) (inner : Reordered locals locals') :
      Reordered
        (before ++ ⟨.function modifiers name generics params result throws locals body, position⟩ ::
          after)
        (before ++ ⟨.function modifiers name generics params result throws locals' body, position⟩ ::
          after)

instance : Additive List.Perm where
  none := .nil
  append first second := first.append second

namespace Check.Agree

variable {R : α → β → Prop} {x : Check α} {y : Check β}

/-- Where all places stay, the errors are the same. -/
theorem still (agree : Agree (Moved id) R x y) : ∃ a b es, Gives x a es ∧ Gives y b es ∧ R a b := by
  obtain ⟨a, b, es, fs, found, found', related, moved⟩ := agree
  obtain rfl := moved.eq
  exact ⟨a, b, fs, found, found', related⟩

/-- What the first step finds, the second one finds. -/
theorem carry {x y : Check α} {a : α} {es : List TypeError} (agree : Agree (Moved id) Eq x y)
    (found : Gives x a es) : Gives y a es := by
  obtain ⟨b, _, fs, first, second, rfl⟩ := agree.still
  obtain ⟨rfl, rfl⟩ := found.unique first
  exact second

theorem permuted (agree : Agree (Moved id) R x y) : Agree List.Perm R x y := by
  obtain ⟨a, b, es, found, found', related⟩ := agree.still
  exact ⟨a, b, es, es, found, found', related, .refl es⟩

theorem trans {S : β → γ → Prop} {T : α → γ → Prop} {z : Check γ} (first : Agree List.Perm R x y)
    (second : Agree List.Perm S y z) (compose : ∀ a b c, R a b → S b c → T a c) :
    Agree List.Perm T x z := by
  obtain ⟨a, b, es, fs, found, middle, related, permuted⟩ := first
  obtain ⟨b', c, fs', gs, middle', found', related', permuted'⟩ := second
  obtain ⟨rfl, rfl⟩ := middle.unique middle'
  exact ⟨a, c, es, gs, found, found', compose a b' c related related', permuted.trans permuted'⟩

end Check.Agree

section Alike

variable {ctx ctx' : Context}

theorem meanings_alike (same : ctx.SameTypes ctx') (ts : List (Located TypeExpr)) :
    Agree (Moved id) Eq (meanings ctx ts) (meanings ctx' ts) := by
  have moved := meanings_relocated (f := id) same ts
  rwa [TypeExpr.relocateAll_id] at moved

theorem declaredResult_alike (same : ctx.SameTypes ctx') (result : Option (Located TypeExpr)) :
    Agree (Moved id) Eq (declaredResult ctx result) (declaredResult ctx' result) := by
  cases result with
  | none => exact .same _
  | some t =>
    have moved := meaning_relocated (f := id) same t
    rwa [TypeExpr.relocate_id] at moved

theorem signature_alike (same : ctx.SameTypes ctx') (generics : Option (List String))
    (params : List (String × Located TypeExpr)) (result : Option (Located TypeExpr)) :
    Agree (Moved id) Eq (signature ctx generics params result)
      (signature ctx' generics params result) := by
  have moved := signature_relocated (f := id) same generics params result
  have still : result.map (TypeExpr.relocate id) = result := by
    cases result with
    | none => rfl
    | some t => rw [Option.map_some, TypeExpr.relocate_id]
  rwa [TypeExpr.relocateFields_id, still] at moved

theorem bindParams_alike (alike : ctx.Alike ctx') (params : List (String × Located TypeExpr)) :
    Agree (Moved id) Declares (bindParams ctx params) (bindParams ctx' params) := by
  have moved := bindParams_relocated (f := id) alike params
  rwa [TypeExpr.relocateFields_id] at moved

theorem synth_alike (alike : ctx.Alike ctx') (e : Located Expr) :
    Agree (Moved id) Eq (synth ctx e) (synth ctx' e) := by
  have moved := synth_relocated (f := id) alike e
  rwa [Expr.relocate_id] at moved

theorem declare_alike (alike : ctx.Alike ctx') (d : Decl) :
    Agree (Moved id) Context.Alike (declare ctx d) (declare ctx' d) := by
  have moved := declare_relocated (f := id) alike d
  rwa [Decl.relocateNode_id] at moved

theorem declareAll_alike (alike : ctx.Alike ctx') (names : List String) (ds : List (Located Decl)) :
    Agree (Moved id) Declares (declareAll ctx names ds) (declareAll ctx' names ds) := by
  have moved := declareAll_relocated (f := id) alike names ds
  rwa [Decl.relocateAll_id] at moved

theorem declareBlock_alike (alike : ctx.Alike ctx') (block : List (Located Decl)) :
    Agree (Moved id) Context.Alike (declareBlock ctx block) (declareBlock ctx' block) := by
  have moved := declareBlock_relocated (f := id) alike block
  rwa [Decl.relocateAll_id] at moved

theorem checkDecl_alike (alike : ctx.Alike ctx') (d : Located Decl) :
    Agree (Moved id) Eq (checkDecl ctx d) (checkDecl ctx' d) := by
  have moved := checkDecl_relocated (f := id) alike d
  rwa [Decl.relocate_id] at moved

theorem checkDecls_alike (alike : ctx.Alike ctx') (ds : List (Located Decl)) :
    Agree (Moved id) Eq (checkDecls ctx ds) (checkDecls ctx' ds) := by
  have moved := checkDecls_relocated (f := id) alike ds
  rwa [Decl.relocateAll_id] at moved

end Alike

section Signatures

theorem name_of_isFunction {d : Located Decl} (function : d.node.isFunction = true) :
    ∃ x, d.node.name? = some x := by
  obtain ⟨d, _⟩ := d
  cases d with
  | function _ name => exact ⟨name, rfl⟩
  | _ => contradiction

/-- The context with some declarations in it, none of which is left out. -/
def declareEach (ctx : Context) : List (Located Decl) → Check Context
  | [] => return ctx
  | d :: ds => do declareEach (← declare ctx d.node) ds

/-- Functions with different names are all declared. -/
theorem declareAll_distinct (ctx : Context) (names : List String) {ds : List (Located Decl)}
    (functions : ∀ d ∈ ds, d.node.isFunction = true) (distinct : (ds.map (·.node.name?)).Nodup)
    (fresh : ∀ x ∈ names, some x ∉ ds.map (·.node.name?)) :
    declareAll ctx names ds =
      declareEach ctx ds >>= fun inner =>
        pure (inner, (ds.filterMap (·.node.name?)).reverse ++ names) := by
  induction ds generalizing ctx names with
  | nil => rfl
  | cons d ds ih =>
    rw [List.map_cons, List.nodup_cons] at distinct
    obtain ⟨x, named⟩ := name_of_isFunction (functions d List.mem_cons_self)
    have unknown : names.contains x = false := by
      have : x ∉ names := fun known => fresh x known (named ▸ List.mem_cons_self)
      simpa using this
    have rest (inner : Context) := ih inner (x :: names)
      (fun e member => functions e (List.mem_cons_of_mem d member)) distinct.2 fun y known => by
        rcases List.mem_cons.mp known with rfl | known
        · exact named ▸ distinct.1
        · exact fun member => fresh y known (List.mem_cons_of_mem _ member)
    rw [declareAll, declareEach, bind_assoc, named]
    dsimp only
    rw [unknown]
    refine congrArg (declare ctx d.node >>= ·) (funext fun inner => ?_)
    rw [rest inner, List.filterMap_cons, named]
    simp

theorem declareEach_alike {ctx ctx' : Context} (alike : ctx.Alike ctx') (ds : List (Located Decl)) :
    Agree (Moved id) Context.Alike (declareEach ctx ds) (declareEach ctx' ds) := by
  induction ds generalizing ctx ctx' with
  | nil => exact .answer alike
  | cons d ds ih => exact .bind (declare_alike alike d.node) fun _ _ after => ih after

theorem Check.Gives.declareEach_function {ctx inner : Context} {generics : Option (List String)}
    {params : List (String × Located TypeExpr)} {result : Option (Located TypeExpr)} {t : Ty}
    {es fs : List TypeError} {ds : List (Located Decl)} {modifiers : List Syntax.Modifier}
    {name : String} {throws : List (Located TypeExpr)} {locals : List (Located Decl)}
    {body : Located Expr} {position : Option Position}
    (found : Gives (signature ctx generics params result) t es)
    (rest : Gives (declareEach (ctx.bind name t) ds) inner fs) :
    Gives
      (declareEach ctx
        (⟨.function modifiers name generics params result throws locals body, position⟩ :: ds))
      inner (es ++ fs) := by
  have declared : Gives
      (declare ctx (.function modifiers name generics params result throws locals body))
      (ctx.bind name t) (es ++ []) := found.bind (.answer (ctx.bind name t))
  rw [List.append_nil] at declared
  exact declared.bind rest

/-- What a function adds depends on no other function. -/
theorem declareEach_swap {ctx ctx' : Context} (alike : ctx.Alike ctx') {d e : Located Decl}
    (function : d.node.isFunction = true) (function' : e.node.isFunction = true)
    (different : d.node.name? ≠ e.node.name?) (ds : List (Located Decl)) :
    Agree List.Perm Context.Alike (declareEach ctx (d :: e :: ds)) (declareEach ctx' (e :: d :: ds)) := by
  obtain ⟨d, _⟩ := d
  obtain ⟨e, _⟩ := e
  cases d with
  | function _ f generics params result =>
    cases e with
    | function _ g generics' params' result' =>
      have different : f ≠ g := fun same => different (congrArg some same)
      -- Neither signature needs the other function, only what types mean.
      obtain ⟨t, _, es, first, -, -⟩ :=
        (signature_alike (.refl ctx) generics params result).still
      obtain ⟨_, u, fs, -, second, -⟩ :=
        (signature_alike (.refl ctx') generics' params' result').still
      have same := alike.toSameTypes
      have first' := (signature_alike (same.trans (.bind ctx' g u)) ..).carry first
      have second' := (signature_alike (same.symm.trans (.bind ctx f t)) ..).carry second
      have inner := ((alike.bind f t).bind g u).trans (.bind_bind ctx' different t u)
      obtain ⟨a, b, gs, rest, rest', related⟩ := (declareEach_alike inner ds).still
      exact ⟨a, b, _, _, first.declareEach_function (second'.declareEach_function rest),
        second.declareEach_function (first'.declareEach_function rest'), related,
        List.perm_append_comm_assoc es fs gs⟩
    | _ => contradiction
  | _ => contradiction

/-- Functions with different names may be declared in any order. -/
theorem declareEach_permuted {ds es : List (Located Decl)} (permuted : ds.Perm es)
    (functions : ∀ d ∈ ds, d.node.isFunction = true) (distinct : (ds.map (·.node.name?)).Nodup)
    {ctx ctx' : Context} (alike : ctx.Alike ctx') :
    Agree List.Perm Context.Alike (declareEach ctx ds) (declareEach ctx' es) := by
  induction permuted generalizing ctx ctx' with
  | nil => exact .answer alike
  | cons d _ ih =>
    have functions' := fun e member => functions e (List.mem_cons_of_mem d member)
    have distinct' := (List.nodup_cons.mp distinct).2
    exact .bind (declare_alike alike d.node).permuted fun _ _ after => ih functions' distinct' after
  | swap d e ds =>
    have different : e.node.name? ≠ d.node.name? := by
      intro same
      exact (List.nodup_cons.mp distinct).1 (List.mem_cons.mpr (.inl same))
    exact declareEach_swap alike (functions e List.mem_cons_self)
      (functions d (List.mem_cons_of_mem e List.mem_cons_self)) different ds
  | @trans ds es fs first second ih ih' =>
    have functions' := fun d member => functions d (first.mem_iff.mpr member)
    have distinct' := (first.map _).nodup_iff.mp distinct
    exact (ih functions distinct alike).trans (ih' functions' distinct' (.refl ctx'))
      fun _ _ _ alike alike' => alike.trans alike'

/-- So a block declares the same with its functions in another order. -/
theorem declareBlock_permuted {block block' : List (Located Decl)} (permuted : block.Perm block')
    (others : block'.filter (!·.node.isFunction) = block.filter (!·.node.isFunction))
    (distinct : ((block.filter (·.node.isFunction)).map (·.node.name?)).Nodup)
    {ctx ctx' : Context} (alike : ctx.Alike ctx') :
    Agree List.Perm Context.Alike (declareBlock ctx block) (declareBlock ctx' block') := by
  have reordered := permuted.filter (·.node.isFunction)
  have functions : ∀ d ∈ block.filter (·.node.isFunction), d.node.isFunction = true :=
    fun d member => (List.mem_filter.mp member).2
  have functions' := fun d member => functions d (reordered.mem_iff.mpr member)
  have distinct' := (reordered.map (·.node.name?)).nodup_iff.mp distinct
  unfold declareBlock
  rw [others]
  refine .bind (declareAll_alike alike [] _).permuted fun outer outer' known => ?_
  dsimp only
  rw [declareAll_distinct _ [] functions distinct (by simp),
    declareAll_distinct _ [] functions' distinct' (by simp)]
  simp only [bind_assoc, pure_bind]
  exact .bind (declareEach_permuted reordered functions distinct known.1) fun _ _ inner =>
    .andThen (.note _ _ _ _) fun _ => .answer inner

end Signatures

section Blocks

variable {ctx ctx' : Context}

/-- What is found in one function depends on no other function of the block. -/
theorem checkDecls_permuted {ds es : List (Located Decl)} (permuted : ds.Perm es)
    (alike : ctx.Alike ctx') :
    Agree List.Perm Eq (checkDecls ctx ds) (checkDecls ctx' es) := by
  induction permuted generalizing ctx with
  | nil => exact .same _
  | cons d _ ih => exact .guarded (.andThen (checkDecl_alike alike d).permuted fun _ => ih alike)
  | swap d e ds =>
    obtain ⟨_, _, es, first, first', -⟩ := (checkDecl_alike alike d).still
    obtain ⟨_, _, fs, second, second', -⟩ := (checkDecl_alike alike e).still
    obtain ⟨_, _, gs, rest, rest', -⟩ := (checkDecls_alike alike ds).still
    refine ⟨(), (), _, _, (second.bind ((first.bind rest).guarded ())).guarded (),
      (first'.bind ((second'.bind rest').guarded ())).guarded (), rfl, ?_⟩
    exact List.perm_append_comm_assoc fs es gs
  | @trans ds es fs _ _ ih ih' =>
    exact (ih alike).trans (ih' (.refl ctx')) fun _ _ _ first second => first.trans second

variable (before after : List (Located Decl)) (modifiers : List Syntax.Modifier) (name : String)
  (generics : Option (List String)) (params : List (String × Located TypeExpr))
  (result : Option (Located TypeExpr)) (throws : List (Located TypeExpr)) (body : Located Expr)
  (position : Option Position) {locals locals' : List (Located Decl)}

/-- What a function adds to a block does not depend on its locals. -/
theorem declareAll_inside (ctx : Context) (names : List String) :
    declareAll ctx names
        (before ++ ⟨.function modifiers name generics params result throws locals body, position⟩ ::
          after) =
      declareAll ctx names
        (before ++ ⟨.function modifiers name generics params result throws locals' body, position⟩ ::
          after) := by
  induction before generalizing ctx names with
  | nil => rfl
  | cons d before ih =>
    rw [List.cons_append, List.cons_append, declareAll, declareAll]
    split
    · exact congrArg (declare ctx d.node >>= ·) (funext fun inner => ih inner names)
    · split
      · exact congrArg (report _ _ >>= ·) (funext fun _ => ih ctx names)
      · exact congrArg (declare ctx d.node >>= ·) (funext fun inner => ih inner _)

theorem declareBlock_inside (ctx : Context) :
    declareBlock ctx
        (before ++ ⟨.function modifiers name generics params result throws locals body, position⟩ ::
          after) =
      declareBlock ctx
        (before ++ ⟨.function modifiers name generics params result throws locals' body, position⟩ ::
          after) := by
  have others (ds : List (Located Decl)) :
      (before ++ ⟨.function modifiers name generics params result throws ds body, position⟩ ::
        after).filter (!·.node.isFunction) =
      before.filter (!·.node.isFunction) ++ after.filter (!·.node.isFunction) := by
    rw [List.filter_append, List.filter_cons_of_neg (by simp [Decl.isFunction])]
  have functions (ds : List (Located Decl)) :
      (before ++ ⟨.function modifiers name generics params result throws ds body, position⟩ ::
        after).filter (·.node.isFunction) =
      before.filter (·.node.isFunction) ++
        ⟨.function modifiers name generics params result throws ds body, position⟩ ::
          after.filter (·.node.isFunction) := by
    rw [List.filter_append, List.filter_cons_of_pos (by simp [Decl.isFunction])]
  unfold declareBlock
  rw [others, others, functions, functions]
  refine congrArg (declareAll ctx [] _ >>= ·) (funext fun outer => ?_)
  dsimp only
  rw [declareAll_inside]

/-- What is found with other locals, if those are checked like the first ones. -/
theorem checkDecls_inside
    (declared : ∀ {ctx ctx' : Context}, ctx.Alike ctx' →
      Agree List.Perm Context.Alike (declareBlock ctx locals) (declareBlock ctx' locals'))
    (checked : ∀ {ctx ctx' : Context}, ctx.Alike ctx' →
      Agree List.Perm Eq (checkDecls ctx locals) (checkDecls ctx' locals'))
    (alike : ctx.Alike ctx') :
    Agree List.Perm Eq
      (checkDecls ctx
        (before ++ ⟨.function modifiers name generics params result throws locals body, position⟩ ::
          after))
      (checkDecls ctx'
        (before ++ ⟨.function modifiers name generics params result throws locals' body, position⟩ ::
          after)) := by
  induction before with
  | cons d before ih => exact .guarded (.andThen (checkDecl_alike alike d).permuted fun _ => ih)
  | nil =>
    refine .guarded (.andThen ?_ fun _ => (checkDecls_alike alike after).permuted)
    refine .andThen (.note _ _ _ _) fun _ => ?_
    refine .bind (bindParams_alike (alike.push.bindTypeVars (generics.getD [])) params).permuted
      fun _ _ bound => ?_
    have same := bound.1.toSameTypes
    refine .andThen (meanings_alike same throws).permuted fun _ => ?_
    refine .andThen (declaredResult_alike same result).permuted fun r => ?_
    refine .bind (declared bound.1) fun _ _ inner => ?_
    refine .andThen (checked inner) fun _ => ?_
    refine .andThen (synth_alike inner body).permuted fun t => ?_
    exact (require_relocated (f := id) inner.toSameTypes t r body.position).permuted

end Blocks

namespace Reordered

variable {block block' : List (Located Decl)}

/-- A block declares and is checked alike in the other order. -/
theorem agree (reordered : Reordered block block') :
    (∀ {ctx ctx' : Context}, ctx.Alike ctx' →
      Agree List.Perm Context.Alike (declareBlock ctx block) (declareBlock ctx' block')) ∧
    ∀ {ctx ctx' : Context}, ctx.Alike ctx' →
      Agree List.Perm Eq (checkDecls ctx block) (checkDecls ctx' block') := by
  induction reordered with
  | here permuted others distinct =>
    exact ⟨declareBlock_permuted permuted others distinct, checkDecls_permuted permuted⟩
  | inside before after modifiers name generics params result throws body position _ ih =>
    refine ⟨fun {ctx ctx'} alike => ?_, fun alike => ?_⟩
    · rw [declareBlock_inside]
      exact (declareBlock_alike alike _).permuted
    · exact checkDecls_inside before after modifiers name generics params result throws body position
        ih.1 ih.2 alike

theorem checkModule (reordered : Reordered block block') (ctx : Context) :
    Agree List.Perm Context.Alike (checkModule ctx block) (checkModule ctx block') := by
  obtain ⟨declared, checked⟩ := reordered.agree
  refine .bind (.bind (declared (.refl ctx)) fun _ _ inner => .andThen (checked inner) fun _ =>
    .answer inner) fun inner inner' alike => ?_
  dsimp only
  rw [alike.vars "main"]
  split
  · exact .andThen (.report (.refl _)) fun _ => .answer alike
  · exact .answer alike

end Reordered

/-- The order of functions does not matter. With the functions of one block in another order, the
program itself or the locals of a function, whose names are all different, a program has the same
errors but for their order; so it is accepted or rejected as before. -/
theorem order_never_matters {p q : Located Program} (extensions : q.node.extensions = p.node.extensions)
    (reordered : Reordered p.node.decls q.node.decls) :
    (checkProgram p).Perm (checkProgram q) ∧ (checkProgram p = [] ↔ checkProgram q = []) := by
  have agree : Agree List.Perm Context.Alike (({} : Checker).checking p) (({} : Checker).checking q) := by
    have mode : q.node.hasExtension Checker.subtypingExtension =
        p.node.hasExtension Checker.subtypingExtension := by
      rw [Program.hasExtension, Program.hasExtension, extensions]
    unfold Checker.checking
    rw [mode]
    dsimp only
    split
    · exact .andThen (.note _ _ _ _) fun _ => reordered.checkModule _
    · exact reordered.checkModule _
  obtain ⟨_, _, es, fs, found, found', -, permuted⟩ := agree
  rw [found.checkProgram, found'.checkProgram]
  refine ⟨permuted, fun none => ?_, fun none => ?_⟩
  · exact (none ▸ permuted).nil_eq.symm
  · exact (none ▸ permuted).eq_nil

/-- A function without parameters that promises a number. -/
def promising (name : String) (locals : List (Located Decl)) (body : Expr) : Located Decl :=
  ⟨.function [] name none [] (some ⟨.nat, none⟩) [] locals ⟨body, none⟩, none⟩

/-- A program whose function has two faulty ones inside, which call each other. -/
def nested (locals : List (Located Decl)) : Located Program :=
  ⟨⟨[], [promising "main" locals (.literal (.nat 0))]⟩, none⟩

theorem order_never_matters_nested :
    let f := promising "f" [] (.unary .not ⟨.application ⟨.var "g", none⟩ [], none⟩)
    let g := promising "g" [] (.unary .head ⟨.application ⟨.var "f", none⟩ [], none⟩)
    Reordered (nested [f, g]).node.decls (nested [g, f]).node.decls ∧
      (checkProgram (nested [f, g])).length = 3 ∧
      (checkProgram (nested [f, g])).Perm (checkProgram (nested [g, f])) ∧
      (checkProgram (nested [f, g]) = [] ↔ checkProgram (nested [g, f]) = []) := by
  intro f g
  have reordered : Reordered (nested [f, g]).node.decls (nested [g, f]).node.decls :=
    .inside [] [] _ _ _ _ _ _ _ _ (.here (.swap g f []) rfl (by decide))
  exact ⟨reordered, by decide +kernel, order_never_matters rfl reordered⟩

end StellaLang.Typing
