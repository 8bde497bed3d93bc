import StellaLang.Proofs.Typing.Places

/-! Aliases are transparent. An annotation that names nothing from outside means one thing everywhere, so
an alias of it may be written out wherever it is used. -/
namespace StellaLang

namespace Syntax.TypeExpr

variable (a : String) (u : Located TypeExpr)

mutual

/-- An annotation below type variables, with the alias `a` written out as `u`. Where a variable is called
like the alias, the alias is not meant. -/
def expand (bound : List String) : Located TypeExpr → Located TypeExpr
  | ⟨t, position⟩ => expandNode bound position t

def expandNode (bound : List String) (position : Option Position) : TypeExpr → Located TypeExpr
  | auto => ⟨auto, position⟩
  | bool => ⟨bool, position⟩
  | nat => ⟨nat, position⟩
  | unit => ⟨unit, position⟩
  | top => ⟨top, position⟩
  | bottom => ⟨bottom, position⟩
  | var x => if x = a ∧ a ∉ bound then u else ⟨var x, position⟩
  | arrow ps r => ⟨arrow (expandAll bound ps) (expand bound r), position⟩
  | forAll xs b => ⟨forAll xs (expand (bound ++ xs) b), position⟩
  | recursive x b => ⟨recursive x (expand (bound ++ [x]) b), position⟩
  | sum l r => ⟨sum (expand bound l) (expand bound r), position⟩
  | tuple ts => ⟨tuple (expandAll bound ts), position⟩
  | record fs => ⟨record (expandFields bound fs), position⟩
  | variant fs => ⟨variant (expandAlternatives bound fs), position⟩
  | list t => ⟨list (expand bound t), position⟩
  | ref t => ⟨ref (expand bound t), position⟩

def expandAll (bound : List String) : List (Located TypeExpr) → List (Located TypeExpr)
  | [] => []
  | t :: ts => expand bound t :: expandAll bound ts

def expandFields (bound : List String) :
    List (String × Located TypeExpr) → List (String × Located TypeExpr)
  | [] => []
  | (l, t) :: fs => (l, expand bound t) :: expandFields bound fs

def expandAlternatives (bound : List String) :
    List (String × Option (Located TypeExpr)) → List (String × Option (Located TypeExpr))
  | [] => []
  | (l, none) :: fs => (l, none) :: expandAlternatives bound fs
  | (l, some t) :: fs => (l, some (expand bound t)) :: expandAlternatives bound fs

end

end Syntax.TypeExpr

namespace Typing

open Syntax (Decl Expr Node Program Retyping TypeExpr)
open Check Agree

section Steady

/-- That a step without faults gives the answer of another one, without faults as well. -/
def Check.Steady (x y : Check α) : Prop :=
  ∃ a es, Gives x a es ∧ (es = [] → Gives y a [])

namespace Check.Steady

variable {x y : Check α}

theorem answer (a : α) : Steady (pure a) (pure a) :=
  ⟨a, [], .answer a, fun _ => .answer a⟩

theorem bind {f g : α → Check β} (first : Steady x y) (next : ∀ a, Steady (f a) (g a)) :
    Steady (x >>= f) (y >>= g) := by
  obtain ⟨a, es, found, steady⟩ := first
  obtain ⟨b, fs, more, steady'⟩ := next a
  refine ⟨b, es ++ fs, found.bind more, fun none => ?_⟩
  obtain ⟨none, none'⟩ := List.append_eq_nil_iff.mp none
  exact (steady none).bind (steady' none')

theorem map (first : Steady x y) (h : α → β) :
    Steady (x >>= fun a => pure (h a)) (y >>= fun a => pure (h a)) :=
  first.bind fun a => answer (h a)

theorem report (fault : Fault) (position : Option Position) (y : Check Ty) :
    Steady (report fault position) y :=
  ⟨.error, _, .report fault position, nofun⟩

end Check.Steady

open Check.Steady

theorem append_subset_append_right {xs ys : List String} (more : xs ⊆ ys) (zs : List String) :
    xs ++ zs ⊆ ys ++ zs :=
  List.append_subset.mpr ⟨List.subset_append_of_subset_left zs more, List.subset_append_right ys zs⟩

variable (ctx : Context)

mutual

/-- What means something where nothing is declared, means the same everywhere. -/
theorem resolve_steady {bound bound' : List String} (more : bound ⊆ bound') (t : Located TypeExpr) :
    Steady (resolve {} bound t) (resolve ctx bound' t) := by
  obtain ⟨t, position⟩ := t
  exact resolveNode_steady more position t
termination_by structural t

theorem resolveNode_steady {bound bound' : List String} (more : bound ⊆ bound')
    (position : Option Position) (t : TypeExpr) :
    Steady (resolveNode {} bound position t) (resolveNode ctx bound' position t) := by
  cases t with
  | auto | bool | nat | unit | top | bottom => exact answer _
  | var x =>
    cases known : bound.contains x with
    | true =>
      have known' : bound'.contains x = true :=
        List.contains_iff_mem.mpr (more (List.contains_iff_mem.mp known))
      simp only [resolveNode, known, known', Bool.true_or, if_true]
      exact answer _
    | false =>
      have undeclared : ({} : Context).scope.hasTypeVar x = false := rfl
      simp only [resolveNode, known, undeclared, Bool.or_self, Bool.false_eq_true, if_false]
      exact Steady.report _ _ _
  | arrow ps r =>
    exact .bind (resolveAll_steady more ps) fun _ => .map (resolve_steady more r) _
  | forAll xs b =>
    exact .map (resolve_steady (append_subset_append_right more xs) b) _
  | recursive x b =>
    exact .map (resolve_steady (append_subset_append_right more [x]) b) _
  | sum l r => exact .bind (resolve_steady more l) fun _ => .map (resolve_steady more r) _
  | tuple ts => exact .map (resolveAll_steady more ts) _
  | record fs => exact .map (resolveFields_steady more fs) _
  | variant fs => exact .map (resolveAlternatives_steady more fs) _
  | list t => exact .map (resolve_steady more t) _
  | ref t => exact .map (resolve_steady more t) _
termination_by structural t

theorem resolveAll_steady {bound bound' : List String} (more : bound ⊆ bound')
    (ts : List (Located TypeExpr)) :
    Steady (resolveAll {} bound ts) (resolveAll ctx bound' ts) := by
  match ts with
  | [] => exact answer _
  | t :: ts => exact .bind (resolve_steady more t) fun _ => .map (resolveAll_steady more ts) _
termination_by structural ts

theorem resolveFields_steady {bound bound' : List String} (more : bound ⊆ bound')
    (fs : List (String × Located TypeExpr)) :
    Steady (resolveFields {} bound fs) (resolveFields ctx bound' fs) := by
  match fs with
  | [] => exact answer _
  | (l, t) :: fs => exact .bind (resolve_steady more t) fun _ => .map (resolveFields_steady more fs) _
termination_by structural fs

theorem resolveAlternatives_steady {bound bound' : List String} (more : bound ⊆ bound')
    (fs : List (String × Option (Located TypeExpr))) :
    Steady (resolveAlternatives {} bound fs) (resolveAlternatives ctx bound' fs) := by
  match fs with
  | [] => exact answer _
  | (l, none) :: fs => exact .map (resolveAlternatives_steady more fs) _
  | (l, some t) :: fs =>
    exact .bind (resolve_steady more t) fun _ => .map (resolveAlternatives_steady more fs) _
termination_by structural fs

end

/-- That an annotation means a type in all contexts, below all binders. -/
def Means (u : Located TypeExpr) (meant : Ty) : Prop :=
  ∀ ctx bound, Gives (resolve ctx bound u) meant []

theorem exists_means {u : Located TypeExpr}
    (lowers : ((Checker.new {}).resolve {} u).2.errors = []) : ∃ meant, Means u meant := by
  obtain ⟨meant, es, found, steady⟩ := resolve_steady {} (List.Subset.refl []) u
  have none : es = [] := (found.meaning {} .start).2.1.symm.trans lowers
  refine ⟨meant, fun ctx bound => ?_⟩
  obtain ⟨meant', es', found', steady'⟩ := resolve_steady ctx (List.nil_subset bound) u
  obtain ⟨rfl, rfl⟩ := found.unique found'
  exact steady' none

end Steady

variable {a : String} {u : Located TypeExpr} {meant : Ty}

/-- Contexts that mean one thing by all names, and by the alias what it is written out as. -/
structure Expanded (a : String) (meant : Ty) (bound : List String) (ctx ctx' : Context) : Prop
    extends ctx.Alike ctx' where
  known : ctx.aliases.lookup a = some meant
  hidden : ctx.scope.hasTypeVar a = true ↔ a ∈ bound

section Annotations

variable {bound : List String} {ctx ctx' : Context}

mutual

theorem resolve_expanded (means : Means u meant) (related : Expanded a meant bound ctx ctx')
    (inner : List String) (t : Located TypeExpr) :
    Agree (Moved id) Eq (resolve ctx inner t)
      (resolve ctx' inner (TypeExpr.expand a u (bound ++ inner) t)) := by
  obtain ⟨t, position⟩ := t
  exact resolveNode_expanded means related inner position t
termination_by structural t

theorem resolveNode_expanded (means : Means u meant) (related : Expanded a meant bound ctx ctx')
    (inner : List String) (position : Option Position) (t : TypeExpr) :
    Agree (Moved id) Eq (resolveNode ctx inner position t)
      (resolve ctx' inner (TypeExpr.expandNode a u (bound ++ inner) position t)) := by
  cases t with
  | auto | bool | nat | unit | top | bottom => exact .same _
  | var x =>
    by_cases written : x = a ∧ a ∉ bound ++ inner
    · obtain ⟨rfl, free⟩ := written
      rw [List.mem_append, not_or] at free
      have unbound : inner.contains x = false := by simpa using free.2
      have global : ctx.scope.hasTypeVar x = false := by
        simpa using mt related.hidden.mp free.1
      have found : resolveNode ctx inner position (.var x) = pure meant := by
        simp only [resolveNode, unbound, global, related.known, Bool.or_self, Bool.false_eq_true,
          if_false]
      have replaced : TypeExpr.expandNode x u (bound ++ inner) position (.var x) = u := by
        rw [TypeExpr.expandNode, if_pos ⟨rfl, by simp [free]⟩]
      rw [found, replaced]
      exact ⟨meant, meant, [], [], .answer meant, means ctx' inner, rfl, .nil⟩
    · rw [TypeExpr.expandNode, if_neg written]
      exact resolveNode_relocated (f := id) related.toSameTypes inner position (.var x)
  | arrow ps r =>
    exact .andThen (resolveAll_expanded means related inner ps) fun _ =>
      .map (resolve_expanded means related inner r) _
  | forAll xs b =>
    rw [TypeExpr.expandNode, List.append_assoc]
    exact .map (resolve_expanded means related (inner ++ xs) b) _
  | recursive x b =>
    rw [TypeExpr.expandNode, List.append_assoc]
    exact .map (resolve_expanded means related (inner ++ [x]) b) _
  | sum l r =>
    exact .andThen (resolve_expanded means related inner l) fun _ =>
      .map (resolve_expanded means related inner r) _
  | tuple ts => exact .map (resolveAll_expanded means related inner ts) _
  | record fs => exact .map (resolveFields_expanded means related inner fs) _
  | variant fs => exact .map (resolveAlternatives_expanded means related inner fs) _
  | list t => exact .map (resolve_expanded means related inner t) _
  | ref t => exact .map (resolve_expanded means related inner t) _
termination_by structural t

theorem resolveAll_expanded (means : Means u meant) (related : Expanded a meant bound ctx ctx')
    (inner : List String) (ts : List (Located TypeExpr)) :
    Agree (Moved id) Eq (resolveAll ctx inner ts)
      (resolveAll ctx' inner (TypeExpr.expandAll a u (bound ++ inner) ts)) := by
  match ts with
  | [] => exact .same _
  | t :: ts =>
    exact .andThen (resolve_expanded means related inner t) fun _ =>
      .map (resolveAll_expanded means related inner ts) _
termination_by structural ts

theorem resolveFields_expanded (means : Means u meant) (related : Expanded a meant bound ctx ctx')
    (inner : List String) (fs : List (String × Located TypeExpr)) :
    Agree (Moved id) Eq (resolveFields ctx inner fs)
      (resolveFields ctx' inner (TypeExpr.expandFields a u (bound ++ inner) fs)) := by
  match fs with
  | [] => exact .same _
  | (l, t) :: fs =>
    exact .andThen (resolve_expanded means related inner t) fun _ =>
      .map (resolveFields_expanded means related inner fs) _
termination_by structural fs

theorem resolveAlternatives_expanded (means : Means u meant)
    (related : Expanded a meant bound ctx ctx') (inner : List String)
    (fs : List (String × Option (Located TypeExpr))) :
    Agree (Moved id) Eq (resolveAlternatives ctx inner fs)
      (resolveAlternatives ctx' inner (TypeExpr.expandAlternatives a u (bound ++ inner) fs)) := by
  match fs with
  | [] => exact .same _
  | (l, none) :: fs => exact .map (resolveAlternatives_expanded means related inner fs) _
  | (l, some t) :: fs =>
    exact .andThen (resolve_expanded means related inner t) fun _ =>
      .map (resolveAlternatives_expanded means related inner fs) _
termination_by structural fs

end

end Annotations

/-- To write an alias out goes unnoticed where no other alias takes its name. -/
theorem expansion_unnoticed (means : Means u meant) :
    Unnoticed (TypeExpr.expand a u) id (· ≠ a) (Expanded a meant) where
  resolve {bound _ _} related t := by
    have resolved := resolve_expanded means related [] t
    rwa [List.append_nil] at resolved
  push related := ⟨related.toAlike.push, related.known, related.hidden⟩
  bindTypeVars {bound ctx _} related xs := by
    refine ⟨related.toAlike.bindTypeVars xs, related.known, ?_⟩
    rw [Context.bindTypeVars, Scope.hasTypeVar_bindTypeVars, List.mem_append, Bool.or_eq_true,
      decide_eq_true_iff, related.hidden]
    exact or_comm
  alike related := related.toAlike
  bind related x t := ⟨related.toAlike.bind x t, related.known, related.hidden⟩
  typeAlias related x t other := by
    refine ⟨⟨⟨?_, related.typeVars⟩, related.vars⟩, ?_, related.hidden⟩
    · rw [related.environment]
    · have different : (a == x) = false := by simpa using other.symm
      rw [List.lookup_cons, different]
      exact related.known
  exceptionType related t := by
    refine ⟨⟨⟨?_, related.typeVars⟩, related.vars⟩, related.known, related.hidden⟩
    rw [related.environment]
  exceptionVariant related l t := by
    refine ⟨⟨⟨?_, related.typeVars⟩, related.vars⟩, related.known, related.hidden⟩
    rw [related.environment]

section Programs

variable {place : Option Position} {ds : List (Located Decl)}

/-- The declarations with an alias written out in all annotations. -/
def expandAlias (a : String) (u : Located TypeExpr) (ds : List (Located Decl)) : List (Located Decl) :=
  Decl.retypeAll (TypeExpr.expand a u) id [] ds

/-- The alias is known from its declaration on. -/
theorem declareBlock_expanded (means : Means u meant) {ctx : Context}
    (outermost : ctx.scope.hasTypeVar a = false) (single : ∀ d ∈ ds, Introduces (· ≠ a) d) :
    Agree (Moved id) (Expanded a meant []) (declareBlock ctx (⟨.typeAlias a u, place⟩ :: ds))
      (declareBlock ctx (⟨.typeAlias a u, place⟩ :: expandAlias a u ds)) := by
  have law := expansion_unnoticed (a := a) means
  have declared : Gives (declare ctx (.typeAlias a u))
      { ctx with aliases := (a, meant) :: ctx.aliases } [] :=
    (means ctx []).meaning.bind (.answer _)
  have related : Expanded a meant [] { ctx with aliases := (a, meant) :: ctx.aliases }
      { ctx with aliases := (a, meant) :: ctx.aliases } := by
    refine ⟨.refl _, List.lookup_cons_self, ?_⟩
    rw [outermost]
    exact ⟨nofun, nofun⟩
  have others : Agree (Moved id) (Declaring (Expanded a meant []))
      (declareAll ctx [] (⟨.typeAlias a u, place⟩ :: ds.filter (!·.node.isFunction)))
      (declareAll ctx []
        (⟨.typeAlias a u, place⟩ :: expandAlias a u (ds.filter (!·.node.isFunction)))) := by
    refine .bind ⟨_, _, [], [], declared, declared, related, .nil⟩ fun _ _ after => ?_
    exact law.declareAll after [a] fun d member => single d (List.mem_of_mem_filter member)
  have front (ds : List (Located Decl)) :
      (⟨.typeAlias a u, place⟩ :: ds).filter (!·.node.isFunction) =
        ⟨.typeAlias a u, place⟩ :: ds.filter (!·.node.isFunction) :=
    List.filter_cons_of_pos rfl
  have functions (ds : List (Located Decl)) :
      (⟨.typeAlias a u, place⟩ :: ds).filter (·.node.isFunction) = ds.filter (·.node.isFunction) :=
    List.filter_cons_of_neg nofun
  unfold declareBlock
  rw [front, front, functions, functions, expandAlias, Unnoticed.functions_retypeAll,
    Unnoticed.others_retypeAll]
  refine .bind others fun _ _ outer => ?_
  refine .bind (law.declareAll outer.1 [] fun d member => single d (List.mem_of_mem_filter member))
    fun _ _ inner => ?_
  exact .andThen (.note _ _ _ _) fun _ => .answer inner.1

theorem checkBlock_expanded (means : Means u meant) {ctx : Context}
    (outermost : ctx.scope.hasTypeVar a = false) (single : ∀ d ∈ ds, Introduces (· ≠ a) d) :
    Agree (Moved id) (Expanded a meant []) (checkBlock ctx (⟨.typeAlias a u, place⟩ :: ds))
      (checkBlock ctx (⟨.typeAlias a u, place⟩ :: expandAlias a u ds)) := by
  have law := expansion_unnoticed (a := a) means
  refine .bind (declareBlock_expanded means outermost single) fun _ _ inner => ?_
  refine .andThen (.guarded (.andThen (.same ()) fun _ => ?_)) fun _ => .answer inner
  exact checkDecls_retyped law inner ds single

/-- Aliases are transparent. If a program begins with an alias whose type means something where nothing
is declared, and no other alias of that name is declared at any depth, then with that type written
out for the name in all annotations the program has the same errors in the same order. (Type variables
of the same name hide the alias, so they are not replaced; without such variables, all are.) -/
theorem aliases_are_transparent {p : Located Program} {a : String} {u : Located TypeExpr}
    {place : Option Position} {ds : List (Located Decl)}
    (first : p.node.decls = ⟨.typeAlias a u, place⟩ :: ds)
    (lowers : ((Checker.new {}).resolve {} u).2.errors = [])
    (single : ∀ d ∈ ds, Introduces (· ≠ a) d) :
    checkProgram ⟨{ p.node with decls := ⟨.typeAlias a u, place⟩ :: expandAlias a u ds }, p.position⟩ =
      checkProgram p := by
  obtain ⟨meant, means⟩ := exists_means lowers
  obtain ⟨⟨extensions, decls⟩, position⟩ := p
  obtain rfl : decls = ⟨.typeAlias a u, place⟩ :: ds := first
  have agree : Agree (Moved id) (Expanded a meant [])
      (({} : Checker).checking ⟨⟨extensions, ⟨.typeAlias a u, place⟩ :: ds⟩, position⟩)
      (({} : Checker).checking
        ⟨⟨extensions, ⟨.typeAlias a u, place⟩ :: expandAlias a u ds⟩, position⟩) := by
    unfold Checker.checking
    dsimp only [Program.hasExtension]
    have checked (c : Checker) : Agree (Moved id) (Expanded a meant [])
        (checkModule (c.within {}) (⟨.typeAlias a u, place⟩ :: ds))
        (checkModule (c.within {}) (⟨.typeAlias a u, place⟩ :: expandAlias a u ds)) :=
      checkModule_of_checkBlock (fun related => related.toAlike)
        (checkBlock_expanded means rfl single)
    split
    · exact .andThen (.note _ _ _ _) fun _ => checked _
    · exact checked _
  obtain ⟨_, _, es, fs, found, found', -, moved⟩ := agree
  rw [found.checkProgram, found'.checkProgram]
  exact moved.eq

/-- The type of chains of units. -/
def chain : Located TypeExpr :=
  ⟨.recursive "X" ⟨.sum ⟨.unit, none⟩ ⟨.var "X", none⟩, none⟩, none⟩

/-- A program that names a type of chains, uses the name in another alias and below a variable, and
asks a chain for a field. -/
def chained : Located Program :=
  ⟨⟨[], [⟨.typeAlias "Chain" chain, none⟩,
    ⟨.typeAlias "Pair" ⟨.tuple [⟨.var "Chain", none⟩, ⟨.var "Chain", none⟩], none⟩, none⟩,
    ⟨.function [] "main" (some ["Y"])
      [("c", ⟨.var "Chain", some ⟨2, 16, 40⟩⟩),
        ("f", ⟨.forAll ["X"] ⟨.arrow [⟨.var "Pair", none⟩] ⟨.var "Chain", none⟩, none⟩, none⟩)]
      (some ⟨.var "Chain", none⟩) [] []
      ⟨.field ⟨.var "c", none⟩ "l", some ⟨3, 9, 60⟩⟩, none⟩]⟩, none⟩

theorem chained_transparent :
    let ds := chained.node.decls.tail
    chained.node.decls = ⟨.typeAlias "Chain" chain, none⟩ :: ds ∧
      ((Checker.new {}).resolve {} chain).2.errors = [] ∧ (∀ d ∈ ds, Introduces (· ≠ "Chain") d) ∧
      (checkProgram chained).length = 1 ∧
      checkProgram ⟨{ chained.node with
        decls := ⟨.typeAlias "Chain" chain, none⟩ :: expandAlias "Chain" chain ds },
          chained.position⟩ = checkProgram chained := by
  intro ds
  have lowers : ((Checker.new {}).resolve {} chain).2.errors = [] := by decide +kernel
  have single : ∀ d ∈ ds, Introduces (· ≠ "Chain") d := by
    intro d member x t place inside
    have found : Node.decl ⟨.typeAlias x t, place⟩ ∈ Decl.postOrderAll ds := by
      rw [Decl.postOrderAll_eq, List.mem_flatMap]
      exact ⟨.decl d, List.mem_map_of_mem member, inside⟩
    simp [ds, chained, Decl.postOrderAll, Decl.postOrder, Decl.inside, TypeExpr.postOrder,
      TypeExpr.inside, TypeExpr.postOrderAll, TypeExpr.postOrderFields, Expr.postOrder,
      Expr.inside] at found
    simp [found]
  exact ⟨rfl, lowers, single, by decide +kernel, aliases_are_transparent rfl lowers single⟩

end Programs

end Typing

end StellaLang
