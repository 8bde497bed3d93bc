import StellaLang.Proofs.Typing.Pairing
import StellaLang.Proofs.Syntax.Renaming
import StellaLang.Typing.Binding

/-! Annotations and patterns under another name for a type parameter. -/
namespace StellaLang.Typing

open Syntax (Node Pattern TypeExpr)
open Check (Paired)

/-- That the type parameter `x` of an expression with these nodes may as well be called `y`: no node
knows that name, no generic expression among them binds `x` again, and the names that one
node binds stay apart. -/
structure Renamable (x y : String) (nodes : List Node) : Prop where
  unused : ∀ node ∈ nodes, y ∉ node.typeNames
  outermost : ∀ node ∈ nodes, x ∉ node.parameters
  separate : ∀ node ∈ nodes, Ty.Separate node.binders

namespace Renamable

variable {x y : String} {nodes more : List Node}

theorem mono (h : Renamable x y nodes) (inside : more ⊆ nodes) : Renamable x y more :=
  ⟨fun node member => h.unused node (inside member), fun node member => h.outermost node (inside member),
    fun node member => h.separate node (inside member)⟩

theorem left (h : Renamable x y (nodes ++ more)) : Renamable x y nodes :=
  h.mono (List.subset_append_left nodes more)

theorem right (h : Renamable x y (nodes ++ more)) : Renamable x y more :=
  h.mono (List.subset_append_right nodes more)

theorem last {node : Node} (h : Renamable x y (nodes ++ [node])) :
    y ∉ node.typeNames ∧ x ∉ node.parameters ∧ Ty.Separate node.binders := by
  have listed : node ∈ nodes ++ [node] := List.mem_append_right nodes (List.mem_singleton.mpr rfl)
  exact ⟨h.unused node listed, h.outermost node listed, h.separate node listed⟩

end Renamable

section Annotations

variable {x y : String} {old : List TypeError} {ctx ctx' : Context}

section Shared

/-- One answer on both sides, with something that is true of it. -/
def Shared (good : α → Prop) (a b : α) : Prop :=
  b = a ∧ good a

/-- Two contexts know the names alike that are not the type parameter. -/
theorem known_alike (h : ctx.Renamed x y ctx') {bound : List String} {z : String} (other : z ≠ y)
    (inner : x ∈ bound ∨ z ≠ x) :
    (bound.contains z || ctx'.scope.hasTypeVar z) = (bound.contains z || ctx.scope.hasTypeVar z) := by
  by_cases same : z = x
  · subst same
    have inner : bound.contains z = true := by simpa using inner
    rw [inner, Bool.true_or, Bool.true_or]
  · rw [h.typeVars z same other]

mutual

/-- Below a binder of `x` an annotation means the same to both. -/
theorem resolve_shared (h : ctx.Renamed x y ctx') {bound : List String} (inner : x ∈ bound)
    {t : Located TypeExpr} (renamable : Renamable x y (TypeExpr.postOrder t)) :
    Paired x y old (Shared (Ty.Spares y)) (resolve ctx bound t) (resolve ctx' bound t) := by
  obtain ⟨t, position⟩ := t
  rw [TypeExpr.postOrder] at renamable
  obtain ⟨unused, -, separate⟩ := renamable.last
  exact resolveNode_shared h inner position unused separate renamable.left
termination_by structural t

theorem resolveNode_shared (h : ctx.Renamed x y ctx') {bound : List String} (inner : x ∈ bound)
    (position : Option Position) {t : TypeExpr} (unused : y ∉ (Node.type ⟨t, position⟩).typeNames)
    (separate : Ty.Separate (Node.type ⟨t, position⟩).binders)
    (renamable : Renamable x y (TypeExpr.inside t)) :
    Paired x y old (Shared (Ty.Spares y)) (resolveNode ctx bound position t)
      (resolveNode ctx' bound position t) := by
  cases t with
  | var z =>
    have other : z ≠ y := by simpa [Node.typeNames, eq_comm] using unused
    have aliases : ctx'.aliases = ctx.aliases := congrArg Environment.aliases h.environment
    rw [resolveNode, resolveNode, known_alike h other (.inl inner), aliases]
    split
    · exact .answer ⟨rfl, Ty.tidy_var z, by simpa [Ty.freeNames] using other.symm⟩
    cases known : ctx.aliases.lookup z with
    | some t => exact .answer ⟨rfl, (h.aliases z t known).2⟩
    | none => exact .reporting (.plain rfl) position ⟨rfl, by decide, List.not_mem_nil⟩
  | arrow ps r =>
    apply Paired.bind (resolveAll_shared h inner renamable.left)
    rintro ps _ ⟨rfl, params⟩
    apply Paired.map (resolve_shared h inner renamable.right)
    rintro r _ ⟨rfl, result⟩
    exact ⟨rfl, Ty.Spares.arrow params result⟩
  | forAll xs b =>
    apply Paired.map (resolve_shared h (List.mem_append_left xs inner) renamable)
    rintro b _ ⟨rfl, body⟩
    exact ⟨rfl, Ty.Spares.forAll separate body⟩
  | recursive z b =>
    apply Paired.map (resolve_shared h (List.mem_append_left [z] inner) renamable)
    rintro b _ ⟨rfl, body⟩
    exact ⟨rfl, Ty.Spares.recursive body⟩
  | sum l r =>
    apply Paired.bind (resolve_shared h inner renamable.left)
    rintro l _ ⟨rfl, left⟩
    apply Paired.map (resolve_shared h inner renamable.right)
    rintro r _ ⟨rfl, right⟩
    exact ⟨rfl, Ty.Spares.sum left right⟩
  | tuple ts =>
    apply Paired.map (resolveAll_shared h inner renamable)
    rintro ts _ ⟨rfl, elements⟩
    exact ⟨rfl, elements⟩
  | record fs =>
    apply Paired.map (resolveFields_shared h inner renamable)
    rintro fs _ ⟨rfl, fields⟩
    exact ⟨rfl, fields⟩
  | variant fs =>
    apply Paired.map (resolveAlternatives_shared h inner renamable)
    rintro fs _ ⟨rfl, payloads⟩
    exact ⟨rfl, payloads⟩
  | list t =>
    apply Paired.map (resolve_shared h inner renamable)
    rintro t _ ⟨rfl, element⟩
    exact ⟨rfl, Ty.tidy_list.mpr element.1, element.2⟩
  | ref t =>
    apply Paired.map (resolve_shared h inner renamable)
    rintro t _ ⟨rfl, referent⟩
    exact ⟨rfl, Ty.tidy_ref.mpr referent.1, referent.2⟩
  | auto | bool | nat | unit | top | bottom => exact .answer ⟨rfl, by decide, List.not_mem_nil⟩
termination_by structural t

theorem resolveAll_shared (h : ctx.Renamed x y ctx') {bound : List String} (inner : x ∈ bound)
    {ts : List (Located TypeExpr)} (renamable : Renamable x y (TypeExpr.postOrderAll ts)) :
    Paired x y old (Shared fun ts => Ty.Spares y (.tuple ts)) (resolveAll ctx bound ts)
      (resolveAll ctx' bound ts) := by
  match ts with
  | [] => exact .answer ⟨rfl, by decide, List.not_mem_nil⟩
  | t :: ts =>
    apply Paired.bind (resolve_shared h inner renamable.left)
    rintro t _ ⟨rfl, first⟩
    apply Paired.map (resolveAll_shared h inner renamable.right)
    rintro ts _ ⟨rfl, rest⟩
    exact ⟨rfl, Ty.Spares.tuple_cons first rest⟩
termination_by structural ts

theorem resolveFields_shared (h : ctx.Renamed x y ctx') {bound : List String} (inner : x ∈ bound)
    {fs : List (String × Located TypeExpr)}
    (renamable : Renamable x y (TypeExpr.postOrderFields fs)) :
    Paired x y old (Shared fun fs => Ty.Spares y (.record fs)) (resolveFields ctx bound fs)
      (resolveFields ctx' bound fs) := by
  match fs with
  | [] => exact .answer ⟨rfl, by decide, List.not_mem_nil⟩
  | (l, t) :: fs =>
    apply Paired.bind (resolve_shared h inner renamable.left)
    rintro t _ ⟨rfl, first⟩
    apply Paired.map (resolveFields_shared h inner renamable.right)
    rintro fs _ ⟨rfl, rest⟩
    exact ⟨rfl, Ty.Spares.record_cons first rest⟩
termination_by structural fs

theorem resolveAlternatives_shared (h : ctx.Renamed x y ctx') {bound : List String} (inner : x ∈ bound)
    {fs : List (String × Option (Located TypeExpr))}
    (renamable : Renamable x y (TypeExpr.postOrderAlternatives fs)) :
    Paired x y old (Shared fun fs => Ty.Spares y (.variant fs)) (resolveAlternatives ctx bound fs)
      (resolveAlternatives ctx' bound fs) := by
  match fs with
  | [] => exact .answer ⟨rfl, by decide, List.not_mem_nil⟩
  | (l, none) :: fs =>
    refine .map (resolveAlternatives_shared h inner renamable) ?_
    rintro fs _ ⟨rfl, rest⟩
    exact ⟨rfl, Ty.Spares.variant_cons (fun _ absent => nomatch absent) rest⟩
  | (l, some t) :: fs =>
    apply Paired.bind (resolve_shared h inner renamable.left)
    rintro t _ ⟨rfl, first⟩
    apply Paired.map (resolveAlternatives_shared h inner renamable.right)
    rintro fs _ ⟨rfl, rest⟩
    exact ⟨rfl, Ty.Spares.variant_cons (fun u same => Option.some.inj same ▸ first) rest⟩
termination_by structural fs

end

end Shared

open Ty (Labelled)

mutual

/-- Elsewhere it means the same but for the name. -/
theorem resolve_renamed (h : ctx.Renamed x y ctx') {bound : List String} (outer : x ∉ bound)
    {t : Located TypeExpr} (renamable : Renamable x y (TypeExpr.postOrder t)) :
    Paired x y old (Ty.Renamed x y) (resolve ctx bound t) (resolve ctx' bound (TypeExpr.rename x y t)) := by
  obtain ⟨t, position⟩ := t
  rw [TypeExpr.postOrder] at renamable
  obtain ⟨unused, -, separate⟩ := renamable.last
  exact resolveNode_renamed h outer position unused separate renamable.left
termination_by structural t

theorem resolveNode_renamed (h : ctx.Renamed x y ctx') {bound : List String} (outer : x ∉ bound)
    (position : Option Position) {t : TypeExpr} (unused : y ∉ (Node.type ⟨t, position⟩).typeNames)
    (separate : Ty.Separate (Node.type ⟨t, position⟩).binders)
    (renamable : Renamable x y (TypeExpr.inside t)) :
    Paired x y old (Ty.Renamed x y) (resolveNode ctx bound position t)
      (resolveNode ctx' bound position (TypeExpr.renameNode x y t)) := by
  cases t with
  | var z =>
    have other : z ≠ y := by simpa [Node.typeNames, eq_comm] using unused
    have aliases : ctx'.aliases = ctx.aliases := congrArg Environment.aliases h.environment
    by_cases same : z = x
    · subst same
      rw [TypeExpr.renameNode, if_pos rfl, resolveNode, resolveNode, h.first, h.second,
        Bool.or_true, Bool.or_true]
      exact .answer (.var z y)
    · rw [TypeExpr.renameNode, if_neg same, resolveNode, resolveNode,
        known_alike h other (.inr same), aliases]
      split
      · refine .answer (.of_spares ⟨Ty.tidy_var z, ?_⟩ ⟨Ty.tidy_var z, ?_⟩)
        · simpa [Ty.freeNames, eq_comm] using same
        · simpa [Ty.freeNames, eq_comm] using other
      cases known : ctx.aliases.lookup z with
      | some t => exact .answer (.of_spares (h.aliases z t known).1 (h.aliases z t known).2)
      | none => exact .report (.plain rfl) position
  | arrow ps r =>
    apply Paired.bind (resolveAll_renamed h outer renamable.left)
    intro ps qs params
    exact .map (resolve_renamed h outer renamable.right) fun r s result =>
      Ty.Renamed.arrow_iff.mpr ⟨params, result⟩
  | forAll zs b =>
    have unused : y ∉ zs := unused
    by_cases inner : x ∈ zs
    -- A binder of `x` ends the scope of the parameter: the body is the same on both sides.
    · rw [TypeExpr.renameNode, if_pos inner]
      apply Paired.map (resolve_shared h (List.mem_append_right bound inner) renamable)
      rintro b _ ⟨rfl, spares⟩
      refine .of_spares ⟨(Ty.Spares.forAll separate spares).1, ?_⟩ (.forAll separate spares)
      simp [Ty.freeNames, inner]
    · have outer : x ∉ bound ++ zs := by simp [outer, inner]
      rw [TypeExpr.renameNode, if_neg inner]
      exact .map (resolve_renamed h outer renamable) fun b c body => body.forAll separate inner unused
  | recursive z b =>
    have unused : z ≠ y := by simpa [Node.typeNames, Node.binders, eq_comm] using unused
    by_cases inner : z = x
    · rw [TypeExpr.renameNode, if_pos inner]
      have hidden : x ∈ bound ++ [z] := by simp [inner]
      apply Paired.map (resolve_shared h hidden renamable)
      rintro b _ ⟨rfl, spares⟩
      refine .of_spares ⟨(Ty.Spares.recursive spares).1, ?_⟩ (.recursive spares)
      simp [Ty.freeNames, inner]
    · have outer : x ∉ bound ++ [z] := by simp [outer, Ne.symm inner]
      rw [TypeExpr.renameNode, if_neg inner]
      exact .map (resolve_renamed h outer renamable) fun b c body => body.recursive inner unused
  | sum l r =>
    apply Paired.bind (resolve_renamed h outer renamable.left)
    intro l l' left
    exact .map (resolve_renamed h outer renamable.right) fun r r' right =>
      Ty.Renamed.sum_iff.mpr ⟨left, right⟩
  | tuple ts =>
    exact .map (resolveAll_renamed h outer renamable) fun ts us elements =>
      Ty.Renamed.tuple_iff.mpr elements
  | record fs =>
    exact .map (resolveFields_renamed h outer renamable) fun fs gs fields =>
      Ty.Renamed.record_iff.mpr fields
  | variant fs =>
    exact .map (resolveAlternatives_renamed h outer renamable) fun fs gs payloads =>
      Ty.Renamed.variant_iff.mpr payloads
  | list t =>
    exact .map (resolve_renamed h outer renamable) fun t u element => Ty.Renamed.list_iff.mpr element
  | ref t =>
    exact .map (resolve_renamed h outer renamable) fun t u referent => Ty.Renamed.ref_iff.mpr referent
  | auto => exact .answer (.constant .unknown)
  | bool => exact .answer (.constant .bool)
  | nat => exact .answer (.constant .nat)
  | unit => exact .answer (.constant .unit)
  | top => exact .answer (.constant .top)
  | bottom => exact .answer (.constant .bottom)
termination_by structural t

theorem resolveAll_renamed (h : ctx.Renamed x y ctx') {bound : List String} (outer : x ∉ bound)
    {ts : List (Located TypeExpr)} (renamable : Renamable x y (TypeExpr.postOrderAll ts)) :
    Paired x y old (List.Forall₂ (Ty.Renamed x y)) (resolveAll ctx bound ts)
      (resolveAll ctx' bound (TypeExpr.renameAll x y ts)) := by
  match ts with
  | [] => exact .answer .nil
  | t :: ts =>
    apply Paired.bind (resolve_renamed h outer renamable.left)
    intro t u first
    exact .map (resolveAll_renamed h outer renamable.right) fun ts us rest => .cons first rest
termination_by structural ts

theorem resolveFields_renamed (h : ctx.Renamed x y ctx') {bound : List String} (outer : x ∉ bound)
    {fs : List (String × Located TypeExpr)} (renamable : Renamable x y (TypeExpr.postOrderFields fs)) :
    Paired x y old (List.Forall₂ (Labelled (Ty.Renamed x y))) (resolveFields ctx bound fs)
      (resolveFields ctx' bound (TypeExpr.renameFields x y fs)) := by
  match fs with
  | [] => exact .answer .nil
  | (l, t) :: fs =>
    apply Paired.bind (resolve_renamed h outer renamable.left)
    intro t u first
    exact .map (resolveFields_renamed h outer renamable.right) fun fs gs rest => .cons ⟨rfl, first⟩ rest
termination_by structural fs

theorem resolveAlternatives_renamed (h : ctx.Renamed x y ctx') {bound : List String} (outer : x ∉ bound)
    {fs : List (String × Option (Located TypeExpr))}
    (renamable : Renamable x y (TypeExpr.postOrderAlternatives fs)) :
    Paired x y old (List.Forall₂ (Labelled (Option.Rel (Ty.Renamed x y))))
      (resolveAlternatives ctx bound fs)
      (resolveAlternatives ctx' bound (TypeExpr.renameAlternatives x y fs)) := by
  match fs with
  | [] => exact .answer .nil
  | (l, none) :: fs =>
    exact .map (resolveAlternatives_renamed h outer renamable) fun fs gs rest => .cons ⟨rfl, .none⟩ rest
  | (l, some t) :: fs =>
    apply Paired.bind (resolve_renamed h outer renamable.left)
    intro t u first
    exact .map (resolveAlternatives_renamed h outer renamable.right) fun fs gs rest =>
      .cons ⟨rfl, .some first⟩ rest
termination_by structural fs

end

theorem meaning_paired (h : ctx.Renamed x y ctx') {t : Located TypeExpr}
    (renamable : Renamable x y (TypeExpr.postOrder t)) :
    Paired x y old (Ty.Renamed x y) (meaning ctx t) (meaning ctx' (TypeExpr.rename x y t)) := by
  have resolved : Paired x y old (Ty.Renamed x y) (resolve ctx [] t)
      (resolve ctx' [] (TypeExpr.rename x y t)) :=
    resolve_renamed h List.not_mem_nil renamable
  intro p q abreast
  rw [meaning_apply, meaning_apply, Syntax.isClosed_rename]
  split
  · exact resolved p q abreast
  rename_i closed
  have closed : TypeExpr.isClosed t = true := by simpa using closed
  -- Both sides ask the cache for the same annotation, and both know the same of it.
  rw [Syntax.rename_of_closed x y closed] at resolved ⊢
  have same : denote ctx' [] t = denote ctx [] t :=
    denote_nameless ctx' ctx [] [] (nameless_of_closed closed)
  have counted : Progress.Renamed x y old { p with cache := p.cache.count t }
      { q with cache := p.cache.count t } :=
    abreast.of_eq rfl rfl rfl rfl rfl rfl rfl (abreast.sound.count t)
  obtain ⟨answers, states⟩ := resolved _ _ counted
  rw [abreast.cache]
  split
  · rename_i u found
    rw [resolve_answer, resolve_answer, same, ← abreast.sound.get? found ctx] at answers
    exact ⟨answers, counted.of_eq rfl rfl rfl rfl rfl rfl rfl (counted.sound.of_entries rfl)⟩
  · refine ⟨answers, states.of_eq rfl rfl rfl rfl rfl rfl ?_ ?_⟩
    · change (resolve ctx' [] t _).2.cache.put t (resolve ctx' [] t _).1 =
        (resolve ctx [] t _).2.cache.put t (resolve ctx [] t _).1
      rw [states.cache, resolve_answer, resolve_answer, same]
    · change Progress.CacheSound { (resolve ctx [] t _).2 with
        cache := (resolve ctx [] t _).2.cache.put t (resolve ctx [] t _).1 }
      rw [resolve_answer]
      exact states.sound.put closed ctx

theorem meanings_paired (h : ctx.Renamed x y ctx') {ts : List (Located TypeExpr)}
    (renamable : Renamable x y (TypeExpr.postOrderAll ts)) :
    Paired x y old (List.Forall₂ (Ty.Renamed x y)) (meanings ctx ts)
      (meanings ctx' (TypeExpr.renameAll x y ts)) := by
  induction ts with
  | nil => exact .answer .nil
  | cons t ts ih =>
    apply Paired.bind (meaning_paired h renamable.left)
    intro t u first
    exact .map (ih renamable.right) fun ts us rest => .cons first rest

end Annotations

section Patterns

variable {x y : String} {old : List TypeError} {ctx ctx' : Context}

/-- The variables of a pattern on both sides. -/
abbrev Bound (x y : String) : Bindings → Bindings → Prop :=
  List.Forall₂ (Ty.Labelled (Ty.Renamed x y))

theorem unexpectedPattern_paired {t u : Ty} (related : t.Renamed x y u) (position : Option Position) :
    Paired x y old (Bound x y) (unexpectedPattern t position) (unexpectedPattern u position) :=
  .map (.report (.one (by simp [Fault.aboutOne]) related) position) fun _ _ _ => .nil

theorem notAVariant_paired {t u : Ty} (related : t.Renamed x y u) (position : Option Position) :
    Paired x y old (Bound x y) (Check.report (.notAVariant t) position >>= fun _ => pure [])
      (Check.report (.notAVariant u) position >>= fun _ => pure []) :=
  .map (.report (.one (by simp [Fault.aboutOne]) related) position) fun _ _ _ => .nil

theorem literalBindings_paired (h : ctx.Renamed x y ctx') (c : Form.Constant) {t u : Ty}
    (related : t.Renamed x y u) (position : Option Position) :
    Paired x y old (Bound x y) (literalBindings ctx t (Ty.ofConstant c) position)
      (literalBindings ctx' u (Ty.ofConstant c) position) := by
  unfold literalBindings
  rw [h.conforms related (.constant c)]
  split
  · exact .answer .nil
  · exact unexpectedPattern_paired related position

mutual

theorem bindings_paired (h : ctx.Renamed x y ctx') {t u : Ty} (related : t.Renamed x y u)
    {p : Located Pattern} (renamable : Renamable x y (Pattern.postOrder p)) :
    Paired x y old (Bound x y) (bindings ctx t p) (bindings ctx' u (Pattern.rename x y p)) := by
  obtain ⟨p, position⟩ := p
  exact .guarded .nil (bindingsNode_paired h related position renamable.left)
termination_by structural p

theorem bindingsNode_paired (h : ctx.Renamed x y ctx') {t u : Ty} (related : t.Renamed x y u)
    (position : Option Position) {p : Pattern} (renamable : Renamable x y (Pattern.inside p)) :
    Paired x y old (Bound x y) (bindingsNode ctx t position p)
      (bindingsNode ctx' u position (Pattern.renameNode x y p)) := by
  cases p with
  | castAs q type =>
    apply Paired.bind (meaning_paired h renamable.right)
    intro target target' cast
    dsimp only
    rw [related.castableTo cast]
    split
    · exact bindings_paired h cast renamable.left
    · exact .bind (.report (.illegalCast related cast) position) fun _ _ _ =>
        bindings_paired h cast renamable.left
  | ascribed q type =>
    apply Paired.bind (meaning_paired h renamable.right)
    intro t u ascribed
    apply Paired.bind (require_paired h related ascribed position)
    intro _ _ _
    exact bindings_paired h ascribed renamable.left
  | variant l payload =>
    cases related.shape with
    | @variant fs gs payloads =>
      have found := Ty.rel_lookup payloads l
      cases payload with
      | none =>
        rw [Pattern.renameNode, bindingsNode_variant, bindingsNode_variant]
        generalize fs.lookup l = carried, gs.lookup l = carried' at found ⊢
        cases found with
        | none => exact .map (.report (.plain rfl) position) fun _ _ _ => .nil
        | some found =>
          cases found with
          | none => exact .answer .nil
          | some _ => exact unexpectedPattern_paired related position
      | some q =>
        rw [Pattern.renameNode, bindingsNode_variant, bindingsNode_variant]
        generalize fs.lookup l = carried, gs.lookup l = carried' at found ⊢
        cases found with
        | none => exact .map (.report (.plain rfl) position) fun _ _ _ => .nil
        | some found =>
          cases found with
          | none => exact unexpectedPattern_paired related position
          | some carried => exact bindings_paired h carried renamable
    | constant c => cases c with
      | never | unknown | error =>
        cases payload with
        | none => exact .answer .nil
        | some q => exact bindings_paired h related renamable
      | _ => cases payload <;> exact notAVariant_paired related position
    | _ => cases payload <;> exact notAVariant_paired related position
  | inl q =>
    cases related.shape with
    | sum left => exact bindings_paired h left renamable
    | constant c => cases c with
      | never | unknown | error => exact bindings_paired h related renamable
      | _ => exact unexpectedPattern_paired related position
    | _ => exact unexpectedPattern_paired related position
  | inr q =>
    cases related.shape with
    | sum _ right => exact bindings_paired h right renamable
    | constant c => cases c with
      | never | unknown | error => exact bindings_paired h related renamable
      | _ => exact unexpectedPattern_paired related position
    | _ => exact unexpectedPattern_paired related position
  | tuple ps =>
    cases related.shape with
    | tuple elements =>
      simp only [bindingsNode, Pattern.renameNode, elements.length_eq, Syntax.renamePatterns_eq,
        List.length_map]
      split
      · rw [← Syntax.renamePatterns_eq]
        exact bindingsEach_paired h elements renamable
      · exact unexpectedPattern_paired related position
    | constant c => cases c with
      | never | unknown | error => exact bindingsAll_paired h related renamable
      | _ => exact unexpectedPattern_paired related position
    | _ => exact unexpectedPattern_paired related position
  | record fs =>
    cases related.shape with
    | record fields => exact bindingsFields_paired h fields position renamable
    | constant c => cases c with
      | never | unknown | error => exact bindingsFieldsAll_paired h related renamable
      | _ => exact unexpectedPattern_paired related position
    | _ => exact unexpectedPattern_paired related position
  | list ps =>
    cases related.shape with
    | list element => exact bindingsAll_paired h element renamable
    | constant c => cases c with
      | never | unknown | error => exact bindingsAll_paired h related renamable
      | _ => exact unexpectedPattern_paired related position
    | _ => exact unexpectedPattern_paired related position
  | cons head tail =>
    cases related.shape with
    | list element =>
      apply Paired.bind (bindings_paired h element renamable.left)
      intro _ _ first
      exact .map (bindings_paired h related renamable.right) fun _ _ rest => List.rel_append first rest
    | constant c => cases c with
      | never | unknown | error =>
        apply Paired.bind (bindings_paired h related renamable.left)
        intro _ _ first
        exact .map (bindings_paired h related renamable.right) fun _ _ rest => List.rel_append first rest
      | _ => exact unexpectedPattern_paired related position
    | _ => exact unexpectedPattern_paired related position
  | bool _ => exact literalBindings_paired h .bool related position
  | unit => exact literalBindings_paired h .unit related position
  | nat _ => exact literalBindings_paired h .nat related position
  | succ q =>
    apply Paired.bind (literalBindings_paired h .nat related position)
    intro _ _ first
    exact .map (bindings_paired h (.constant .nat) renamable) fun _ _ rest => List.rel_append first rest
  | var v => exact .answer (.cons ⟨rfl, related⟩ .nil)
termination_by structural p

theorem bindingsAll_paired (h : ctx.Renamed x y ctx') {t u : Ty} (related : t.Renamed x y u)
    {ps : List (Located Pattern)} (renamable : Renamable x y (Pattern.postOrderAll ps)) :
    Paired x y old (Bound x y) (bindingsAll ctx t ps) (bindingsAll ctx' u (Pattern.renameAll x y ps)) := by
  match ps with
  | [] => exact .answer .nil
  | p :: ps =>
    apply Paired.bind (bindings_paired h related renamable.left)
    intro _ _ first
    exact .map (bindingsAll_paired h related renamable.right) fun _ _ rest => List.rel_append first rest
termination_by structural ps

theorem bindingsEach_paired (h : ctx.Renamed x y ctx') {ts us : List Ty}
    (elements : List.Forall₂ (Ty.Renamed x y) ts us) {ps : List (Located Pattern)}
    (renamable : Renamable x y (Pattern.postOrderAll ps)) :
    Paired x y old (Bound x y) (bindingsEach ctx ts ps)
      (bindingsEach ctx' us (Pattern.renameAll x y ps)) := by
  match ps, elements with
  | [], _ => exact .answer .nil
  | _ :: _, .nil => exact .answer .nil
  | p :: ps, .cons related elements =>
    apply Paired.bind (bindings_paired h related renamable.left)
    intro _ _ first
    exact .map (bindingsEach_paired h elements renamable.right) fun _ _ rest => List.rel_append first rest
termination_by structural ps

theorem bindingsFields_paired (h : ctx.Renamed x y ctx') {gs gs' : List (String × Ty)}
    (fields : List.Forall₂ (Ty.Labelled (Ty.Renamed x y)) gs gs') (position : Option Position)
    {fs : List (String × Located Pattern)} (renamable : Renamable x y (Pattern.postOrderFields fs)) :
    Paired x y old (Bound x y) (bindingsFields ctx gs position fs)
      (bindingsFields ctx' gs' position (Pattern.renameFields x y fs)) := by
  match fs with
  | [] => exact .answer .nil
  | (l, p) :: fs =>
    have found := Ty.rel_lookup fields l
    rw [Pattern.renameFields, bindingsFields_cons, bindingsFields_cons]
    generalize gs.lookup l = field, gs'.lookup l = field' at found ⊢
    cases found with
    | none =>
      have record : (Ty.record gs).Renamed x y (.record gs') := Ty.Renamed.record_iff.mpr fields
      exact .bind (.report (.missingRecordField l record) position) fun _ _ _ =>
        bindingsFields_paired h fields position renamable.right
    | some related =>
      apply Paired.bind (bindings_paired h related renamable.left)
      intro _ _ first
      exact .map (bindingsFields_paired h fields position renamable.right) fun _ _ rest =>
        List.rel_append first rest
termination_by structural fs

theorem bindingsFieldsAll_paired (h : ctx.Renamed x y ctx') {t u : Ty} (related : t.Renamed x y u)
    {fs : List (String × Located Pattern)} (renamable : Renamable x y (Pattern.postOrderFields fs)) :
    Paired x y old (Bound x y) (bindingsFieldsAll ctx t fs)
      (bindingsFieldsAll ctx' u (Pattern.renameFields x y fs)) := by
  match fs with
  | [] => exact .answer .nil
  | (_, p) :: fs =>
    apply Paired.bind (bindings_paired h related renamable.left)
    intro _ _ first
    exact .map (bindingsFieldsAll_paired h related renamable.right) fun _ _ rest =>
      List.rel_append first rest
termination_by structural fs

end

end Patterns

end StellaLang.Typing
