import StellaLang.Proofs.Syntax.Sites
import StellaLang.Proofs.Typing.Renaming
import StellaLang.Proofs.Typing.Reverting

/-! Annotations under another name for a variable that they bind. The new name changes no error, and it
changes what an annotation means, up to the names of binders, exactly if the old one captures a
variable in the type of an alias. -/
namespace StellaLang.Typing

open Check
open Syntax (Node TypeExpr)
open Syntax.TypeExpr (Binder Hole Site)
open Ty (Reverts SameIf Within)

/-- Two steps that go on in one state, whatever they start from, with answers so related. -/
def Check.InStep (R : α → β → Prop) (a : Check α) (b : Check β) : Prop :=
  ∀ p, R (a p).1 (b p).1 ∧ (b p).2 = (a p).2

namespace Check.InStep

variable {R : α → β → Prop} {S : γ → δ → Prop} {a : Check α} {b : Check β}

theorem answer {u : α} {v : β} (related : R u v) : InStep R (pure u) (pure v) :=
  fun _ => ⟨related, rfl⟩

theorem bind {f : α → Check γ} {g : β → Check δ} (first : InStep R a b)
    (next : ∀ u v, R u v → InStep S (f u) (g v)) : InStep S (a >>= f) (b >>= g) := by
  intro p
  obtain ⟨related, same⟩ := first p
  have later := next _ _ related (a p).2
  rw [bind_apply, bind_apply, same]
  exact later

theorem map {f : α → γ} {g : β → δ} (first : InStep R a b) (each : ∀ u v, R u v → S (f u) (g v)) :
    InStep S (a >>= fun u => pure (f u)) (b >>= fun v => pure (g v)) :=
  first.bind fun u v related => answer (each u v related)

/-- One step on both sides. -/
theorem shared (first : Check α) {f : α → Check γ} {g : α → Check δ}
    (next : ∀ u, InStep S (f u) (g u)) :
    InStep S (first >>= f) (first >>= g) :=
  fun p => next (first p).1 (first p).2

theorem report {R : Ty → Ty → Prop} (fault : Fault) (position : Option Position)
    (related : R .error .error) : InStep R (report fault position) (report fault position) :=
  fun _ => ⟨related, rfl⟩

end Check.InStep

/-- That no node uses a type name. -/
def Unused (y : String) (nodes : List Node) : Prop :=
  ∀ node ∈ nodes, y ∉ node.typeNames

namespace Unused

variable {y : String} {nodes more : List Node}

theorem mono (h : Unused y nodes) (inside : more ⊆ nodes) : Unused y more :=
  fun node member => h node (inside member)

theorem left (h : Unused y (nodes ++ more)) : Unused y nodes :=
  h.mono (List.subset_append_left nodes more)

theorem right (h : Unused y (nodes ++ more)) : Unused y more :=
  h.mono (List.subset_append_right nodes more)

theorem last {node : Node} (h : Unused y (nodes ++ [node])) : y ∉ node.typeNames :=
  h node (List.mem_append_right nodes (List.mem_singleton.mpr rfl))

end Unused

theorem contains_congr {z : String} {bound bound' : List String} (same : z ∈ bound' ↔ z ∈ bound) :
    bound'.contains z = bound.contains z := by
  rw [Bool.eq_iff_iff, List.contains_iff_mem, List.contains_iff_mem, same]

/-- Two lists of bound variables that differ in `y` at most. -/
def AlikeBut (y : String) (bound bound' : List String) : Prop :=
  ∀ z, z ≠ y → (z ∈ bound' ↔ z ∈ bound)

namespace AlikeBut

variable {y : String} {bound bound' : List String}

theorem append (alike : AlikeBut y bound bound') (zs : List String) :
    AlikeBut y (bound ++ zs) (bound' ++ zs) := by
  intro z other
  rw [List.mem_append, List.mem_append, alike z other]

theorem contains (alike : AlikeBut y bound bound') {z : String} (other : z ≠ y) :
    bound'.contains z = bound.contains z :=
  contains_congr (alike z other)

end AlikeBut

/-- The variables bound around a part of two annotations that call one of them `x` and `y`. -/
structure Rebound (x y : String) (bound bound' : List String) : Prop where
  other : x ≠ y
  first : x ∈ bound
  second : y ∈ bound'
  others : ∀ z, z ≠ x → z ≠ y → (z ∈ bound' ↔ z ∈ bound)

namespace Rebound

variable {x y : String} {bound bound' : List String}

theorem append (h : Rebound x y bound bound') (zs : List String) :
    Rebound x y (bound ++ zs) (bound' ++ zs) where
  other := h.other
  first := List.mem_append_left zs h.first
  second := List.mem_append_left zs h.second
  others := fun z other other' => by rw [List.mem_append, List.mem_append, h.others z other other']

/-- Below another binder of `x` the two differ in `y` only. -/
theorem below (h : Rebound x y bound bound') {zs : List String} (inner : x ∈ zs) :
    AlikeBut y (bound ++ zs) (bound' ++ zs) := by
  intro z other
  by_cases same : z = x
  · simp [same, inner]
  · rw [List.mem_append, List.mem_append, h.others z same other]

theorem of_binder {binder : Binder} (outer : List String) (other : x ≠ y) (member : x ∈ binder.names) :
    Rebound x y (outer ++ binder.names) (outer ++ (binder.rename x y).names) := by
  rw [binder.names_rename]
  refine ⟨other, List.mem_append_right _ member, List.mem_append_right _ ?_, fun z other other' => ?_⟩
  · exact List.mem_map.mpr ⟨x, member, if_pos rfl⟩
  · rw [List.mem_append, List.mem_append]
    refine or_congr_right ⟨fun inside => ?_, fun inside => ?_⟩
    · obtain ⟨w, among, same⟩ := List.mem_map.mp inside
      split at same
      · exact absurd same.symm other'
      · exact same ▸ among
    · exact List.mem_map.mpr ⟨z, inside, if_neg other⟩

end Rebound

section Exposed

variable (ctx : Context) (x : String)

mutual

/-- What the aliases stand for that an annotation below the binders `bound` uses, if no binder of `x`
is between. -/
def exposed (bound : List String) : Located TypeExpr → List Ty
  | ⟨t, _⟩ => exposedNode bound t

def exposedNode (bound : List String) : TypeExpr → List Ty
  | .var z =>
    if bound.contains z || ctx.scope.hasTypeVar z then [] else (ctx.aliases.lookup z).toList
  | .arrow ps r => exposedAll bound ps ++ exposed bound r
  | .forAll zs b => if x ∈ zs then [] else exposed (bound ++ zs) b
  | .recursive z b => if x = z then [] else exposed (bound ++ [z]) b
  | .sum l r => exposed bound l ++ exposed bound r
  | .tuple ts => exposedAll bound ts
  | .record fs => exposedFields bound fs
  | .variant fs => exposedAlternatives bound fs
  | .list t => exposed bound t
  | .ref t => exposed bound t
  | .auto | .bool | .nat | .unit | .top | .bottom => []

def exposedAll (bound : List String) : List (Located TypeExpr) → List Ty
  | [] => []
  | t :: ts => exposed bound t ++ exposedAll bound ts

def exposedFields (bound : List String) : List (String × Located TypeExpr) → List Ty
  | [] => []
  | (_, t) :: fs => exposed bound t ++ exposedFields bound fs

def exposedAlternatives (bound : List String) : List (String × Option (Located TypeExpr)) → List Ty
  | [] => []
  | (_, none) :: fs => exposedAlternatives bound fs
  | (_, some t) :: fs => exposed bound t ++ exposedAlternatives bound fs

end

end Exposed

/-- That the types that aliases stand for do not mention a name. -/
def Context.AliasesSpare (y : String) (ctx : Context) : Prop :=
  ∀ z t, ctx.aliases.lookup z = some t → t.Within (· ≠ y)

section Annotations

variable {x y : String} {ctx : Context}

section Unaffected

mutual

/-- An annotation that does not use a name means the same whether it is bound or not. -/
theorem resolve_unaffected (known : ctx.AliasesSpare y) {bound bound' : List String}
    (alike : AlikeBut y bound bound') {t : Located TypeExpr}
    (unused : Unused y (TypeExpr.postOrder t)) :
    InStep (Shared (Within (· ≠ y))) (resolve ctx bound t) (resolve ctx bound' t) := by
  obtain ⟨t, position⟩ := t
  rw [TypeExpr.postOrder] at unused
  exact resolveNode_unaffected known alike position unused.last unused.left
termination_by structural t

theorem resolveNode_unaffected (known : ctx.AliasesSpare y) {bound bound' : List String}
    (alike : AlikeBut y bound bound') (position : Option Position) {t : TypeExpr}
    (name : y ∉ (Node.type ⟨t, position⟩).typeNames) (unused : Unused y (TypeExpr.inside t)) :
    InStep (Shared (Within (· ≠ y))) (resolveNode ctx bound position t)
      (resolveNode ctx bound' position t) := by
  cases t with
  | auto | bool | nat | unit | top | bottom => exact .answer ⟨rfl, .of_closed rfl⟩
  | var z =>
    have other : z ≠ y := by simpa [Node.typeNames, eq_comm] using name
    rw [resolveNode, resolveNode, alike.contains other]
    split
    · exact .answer ⟨rfl, Within.var_iff.mpr other⟩
    cases found : ctx.aliases.lookup z with
    | some t => exact .answer ⟨rfl, known z t found⟩
    | none => exact .report _ position ⟨rfl, .of_closed rfl⟩
  | arrow ps r =>
    apply InStep.bind (resolveAll_unaffected known alike unused.left)
    rintro ps _ ⟨rfl, params⟩
    apply InStep.map (resolve_unaffected known alike unused.right)
    rintro r _ ⟨rfl, result⟩
    exact ⟨rfl, Within.arrow_iff.mpr ⟨params, result⟩⟩
  | forAll zs b =>
    apply InStep.map (resolve_unaffected known (alike.append zs) unused)
    rintro b _ ⟨rfl, body⟩
    exact ⟨rfl, Within.forAll_iff.mpr (body.mono fun _ => .inr)⟩
  | recursive z b =>
    apply InStep.map (resolve_unaffected known (alike.append [z]) unused)
    rintro b _ ⟨rfl, body⟩
    exact ⟨rfl, Within.recursive_iff.mpr (body.mono fun _ => .inr)⟩
  | sum l r =>
    apply InStep.bind (resolve_unaffected known alike unused.left)
    rintro l _ ⟨rfl, left⟩
    apply InStep.map (resolve_unaffected known alike unused.right)
    rintro r _ ⟨rfl, right⟩
    exact ⟨rfl, Within.sum_iff.mpr ⟨left, right⟩⟩
  | tuple ts =>
    apply InStep.map (resolveAll_unaffected known alike unused)
    rintro ts _ ⟨rfl, elements⟩
    exact ⟨rfl, Within.tuple_iff.mpr elements⟩
  | record fs =>
    apply InStep.map (resolveFields_unaffected known alike unused)
    rintro fs _ ⟨rfl, fields⟩
    exact ⟨rfl, Within.record_iff.mpr fields⟩
  | variant fs =>
    apply InStep.map (resolveAlternatives_unaffected known alike unused)
    rintro fs _ ⟨rfl, payloads⟩
    exact ⟨rfl, Within.variant_iff.mpr payloads⟩
  | list t =>
    apply InStep.map (resolve_unaffected known alike unused)
    rintro t _ ⟨rfl, element⟩
    exact ⟨rfl, element⟩
  | ref t =>
    apply InStep.map (resolve_unaffected known alike unused)
    rintro t _ ⟨rfl, referent⟩
    exact ⟨rfl, referent⟩
termination_by structural t

theorem resolveAll_unaffected (known : ctx.AliasesSpare y) {bound bound' : List String}
    (alike : AlikeBut y bound bound') {ts : List (Located TypeExpr)}
    (unused : Unused y (TypeExpr.postOrderAll ts)) :
    InStep (Shared fun us => ∀ u ∈ us, u.Within (· ≠ y)) (resolveAll ctx bound ts)
      (resolveAll ctx bound' ts) := by
  match ts with
  | [] => exact .answer ⟨rfl, List.forall_mem_nil _⟩
  | t :: ts =>
    apply InStep.bind (resolve_unaffected known alike unused.left)
    rintro t _ ⟨rfl, first⟩
    apply InStep.map (resolveAll_unaffected known alike unused.right)
    rintro ts _ ⟨rfl, rest⟩
    exact ⟨rfl, List.forall_mem_cons.mpr ⟨first, rest⟩⟩
termination_by structural ts

theorem resolveFields_unaffected (known : ctx.AliasesSpare y) {bound bound' : List String}
    (alike : AlikeBut y bound bound') {fs : List (String × Located TypeExpr)}
    (unused : Unused y (TypeExpr.postOrderFields fs)) :
    InStep (Shared fun gs => ∀ g ∈ gs, g.2.Within (· ≠ y)) (resolveFields ctx bound fs)
      (resolveFields ctx bound' fs) := by
  match fs with
  | [] => exact .answer ⟨rfl, List.forall_mem_nil _⟩
  | (l, t) :: fs =>
    apply InStep.bind (resolve_unaffected known alike unused.left)
    rintro t _ ⟨rfl, first⟩
    apply InStep.map (resolveFields_unaffected known alike unused.right)
    rintro fs _ ⟨rfl, rest⟩
    exact ⟨rfl, List.forall_mem_cons.mpr ⟨first, rest⟩⟩
termination_by structural fs

theorem resolveAlternatives_unaffected (known : ctx.AliasesSpare y) {bound bound' : List String}
    (alike : AlikeBut y bound bound') {fs : List (String × Option (Located TypeExpr))}
    (unused : Unused y (TypeExpr.postOrderAlternatives fs)) :
    InStep (Shared fun gs => ∀ g ∈ gs, ∀ t ∈ g.2, t.Within (· ≠ y)) (resolveAlternatives ctx bound fs)
      (resolveAlternatives ctx bound' fs) := by
  match fs with
  | [] => exact .answer ⟨rfl, List.forall_mem_nil _⟩
  | (l, none) :: fs =>
    have unused : Unused y (TypeExpr.postOrderAlternatives fs) := unused
    apply InStep.map (resolveAlternatives_unaffected known alike unused)
    rintro fs _ ⟨rfl, rest⟩
    exact ⟨rfl, List.forall_mem_cons.mpr ⟨fun _ carried => (nomatch carried), rest⟩⟩
  | (l, some t) :: fs =>
    apply InStep.bind (resolve_unaffected known alike unused.left)
    rintro t _ ⟨rfl, first⟩
    apply InStep.map (resolveAlternatives_unaffected known alike unused.right)
    rintro fs _ ⟨rfl, rest⟩
    exact ⟨rfl, List.forall_mem_cons.mpr ⟨fun _ carried => Option.some.inj carried ▸ first, rest⟩⟩
termination_by structural fs

end

end Unaffected

/-- That the types exposed to a binder of `x` do not mention `x`. -/
abbrev Spared (x : String) (types : List Ty) : Prop :=
  ∀ u ∈ types, u.Within (· ≠ x)

theorem Spared.append_iff {ts us : List Ty} : Spared x (ts ++ us) ↔ Spared x ts ∧ Spared x us :=
  List.forall_mem_append

mutual

/-- Where `x` is bound, and `y` instead of it, an annotation means the same but for the name. -/
theorem resolve_rebound (known : ctx.AliasesSpare y) {bound bound' : List String}
    (h : Rebound x y bound bound') {t : Located TypeExpr} (unused : Unused y (TypeExpr.postOrder t)) :
    InStep (Reverts x y (Spared x (exposed ctx x bound t))) (resolve ctx bound t)
      (resolve ctx bound' (TypeExpr.rename x y t)) := by
  obtain ⟨t, position⟩ := t
  rw [TypeExpr.postOrder] at unused
  exact resolveNode_rebound known h position unused.last unused.left
termination_by structural t

theorem resolveNode_rebound (known : ctx.AliasesSpare y) {bound bound' : List String}
    (h : Rebound x y bound bound') (position : Option Position) {t : TypeExpr}
    (name : y ∉ (Node.type ⟨t, position⟩).typeNames) (unused : Unused y (TypeExpr.inside t)) :
    InStep (Reverts x y (Spared x (exposedNode ctx x bound t))) (resolveNode ctx bound position t)
      (resolveNode ctx bound' position (TypeExpr.renameNode x y t)) := by
  have nothing {t : Ty} {u : Ty} (same : Reverts x y True t u) : Reverts x y (Spared x []) t u :=
    same.of_iff (iff_of_true trivial (List.forall_mem_nil _))
  cases t with
  | auto | bool | nat | unit | top | bottom => exact .answer (nothing (.closed rfl))
  | var z =>
    by_cases same : z = x
    · subst same
      have first : bound.contains z = true := List.contains_iff_mem.mpr h.first
      have second : bound'.contains y = true := List.contains_iff_mem.mpr h.second
      rw [TypeExpr.renameNode, if_pos rfl, resolveNode, resolveNode, exposedNode, first, second,
        Bool.true_or, Bool.true_or]
      exact .answer (nothing (.var h.other))
    · have kept : z ≠ y := by simpa [Node.typeNames, eq_comm] using name
      have alike := contains_congr (h.others z same kept)
      rw [TypeExpr.renameNode, if_neg same, resolveNode, resolveNode, exposedNode, alike]
      split
      · have absent : x ∉ (Ty.var z).freeNames := by simpa [Ty.freeNames] using Ne.symm same
        exact .answer (nothing (.of_apart absent (Within.var_iff.mpr kept)))
      cases found : ctx.aliases.lookup z with
      | some t => exact .answer ((Reverts.of_spared (known z t found)).of_iff (by simp [Spared]))
      | none => exact .report _ position (nothing (.closed rfl))
  | arrow ps r =>
    apply InStep.bind (resolveAll_rebound known h unused.left)
    intro ps qs params
    apply InStep.map (resolve_rebound known h unused.right)
    intro r s result
    exact (params.arrow result).of_iff Spared.append_iff.symm
  | forAll zs b =>
    have absent : y ∉ zs := name
    rw [TypeExpr.renameNode, exposedNode]
    by_cases inner : x ∈ zs
    -- Another binder of `x` ends the scope of the first one: the body is the same on both sides.
    · rw [if_pos inner, if_pos inner]
      apply InStep.map (resolve_unaffected known (h.below inner) unused)
      rintro _ c ⟨rfl, body⟩
      have hidden : x ∉ (Ty.forAll zs c).freeNames := by simp [Ty.freeNames, inner]
      exact nothing (.of_apart hidden (Within.forAll_iff.mpr (body.mono fun _ => .inr)))
    · rw [if_neg inner, if_neg inner]
      apply InStep.map (resolve_rebound known (h.append zs) unused)
      exact fun b c body => body.forAll inner absent
  | recursive z b =>
    have absent : y ≠ z := by simpa [Node.typeNames, Node.binders] using name
    rw [TypeExpr.renameNode, exposedNode]
    by_cases inner : x = z
    · rw [if_pos inner.symm, if_pos inner]
      apply InStep.map (resolve_unaffected known (h.below (List.mem_singleton.mpr inner)) unused)
      rintro _ c ⟨rfl, body⟩
      have hidden : x ∉ (Ty.recursive z c).freeNames := by simp [Ty.freeNames, inner]
      exact nothing (.of_apart hidden (Within.recursive_iff.mpr (body.mono fun _ => .inr)))
    · rw [if_neg (Ne.symm inner), if_neg inner]
      apply InStep.map (resolve_rebound known (h.append [z]) unused)
      exact fun b c body => body.recursive inner absent
  | sum l r =>
    apply InStep.bind (resolve_rebound known h unused.left)
    intro l l' left
    apply InStep.map (resolve_rebound known h unused.right)
    intro r r' right
    exact (left.sum right).of_iff Spared.append_iff.symm
  | tuple ts => exact .map (resolveAll_rebound known h unused) fun _ _ elements => elements
  | record fs => exact .map (resolveFields_rebound known h unused) fun _ _ fields => fields
  | variant fs =>
    exact .map (resolveAlternatives_rebound known h unused) fun _ _ payloads => payloads
  | list t => exact .map (resolve_rebound known h unused) fun _ _ element => element.list
  | ref t => exact .map (resolve_rebound known h unused) fun _ _ referent => referent.ref
termination_by structural t

theorem resolveAll_rebound (known : ctx.AliasesSpare y) {bound bound' : List String}
    (h : Rebound x y bound bound') {ts : List (Located TypeExpr)}
    (unused : Unused y (TypeExpr.postOrderAll ts)) :
    InStep (fun us vs => Reverts x y (Spared x (exposedAll ctx x bound ts)) (.tuple us) (.tuple vs))
      (resolveAll ctx bound ts) (resolveAll ctx bound' (TypeExpr.renameAll x y ts)) := by
  match ts with
  | [] => exact .answer ((Reverts.closed rfl).of_iff (iff_of_true trivial (List.forall_mem_nil _)))
  | t :: ts =>
    apply InStep.bind (resolve_rebound known h unused.left)
    intro t u first
    apply InStep.map (resolveAll_rebound known h unused.right)
    intro ts us rest
    exact (first.tuple_cons rest).of_iff Spared.append_iff.symm
termination_by structural ts

theorem resolveFields_rebound (known : ctx.AliasesSpare y) {bound bound' : List String}
    (h : Rebound x y bound bound') {fs : List (String × Located TypeExpr)}
    (unused : Unused y (TypeExpr.postOrderFields fs)) :
    InStep (fun gs hs => Reverts x y (Spared x (exposedFields ctx x bound fs)) (.record gs) (.record hs))
      (resolveFields ctx bound fs) (resolveFields ctx bound' (TypeExpr.renameFields x y fs)) := by
  match fs with
  | [] => exact .answer ((Reverts.closed rfl).of_iff (iff_of_true trivial (List.forall_mem_nil _)))
  | (l, t) :: fs =>
    apply InStep.bind (resolve_rebound known h unused.left)
    intro t u first
    apply InStep.map (resolveFields_rebound known h unused.right)
    intro fs gs rest
    exact (first.record_cons rest).of_iff Spared.append_iff.symm
termination_by structural fs

theorem resolveAlternatives_rebound (known : ctx.AliasesSpare y) {bound bound' : List String}
    (h : Rebound x y bound bound') {fs : List (String × Option (Located TypeExpr))}
    (unused : Unused y (TypeExpr.postOrderAlternatives fs)) :
    InStep
      (fun gs hs => Reverts x y (Spared x (exposedAlternatives ctx x bound fs)) (.variant gs) (.variant hs))
      (resolveAlternatives ctx bound fs)
      (resolveAlternatives ctx bound' (TypeExpr.renameAlternatives x y fs)) := by
  match fs with
  | [] => exact .answer ((Reverts.closed rfl).of_iff (iff_of_true trivial (List.forall_mem_nil _)))
  | (l, none) :: fs =>
    have unused : Unused y (TypeExpr.postOrderAlternatives fs) := unused
    apply InStep.map (resolveAlternatives_rebound known h unused)
    exact fun gs hs rest => rest.variant_cons_none
  | (l, some t) :: fs =>
    apply InStep.bind (resolve_rebound known h unused.left)
    intro t u first
    apply InStep.map (resolveAlternatives_rebound known h unused.right)
    intro fs gs rest
    exact (first.variant_cons_some rest).of_iff Spared.append_iff.symm
termination_by structural fs

end

/-- A binder with another name for one of its variables means the same up to the name exactly if
nothing exposed to it mentions the old one. -/
theorem resolve_binder (known : ctx.AliasesSpare y) (bound : List String) {binder : Binder}
    (member : x ∈ binder.names) {body : Located TypeExpr} (position : Option Position)
    (unused : Unused y (TypeExpr.postOrder ⟨binder.bind body, position⟩)) :
    InStep (SameIf (Spared x (exposed ctx x (bound ++ binder.names) body)))
      (resolve ctx bound ⟨binder.bind body, position⟩)
      (resolve ctx bound ⟨(binder.rename x y).bind (TypeExpr.rename x y body), position⟩) := by
  rw [TypeExpr.postOrder] at unused
  have new : y ∉ binder.names := binder.typeNames_bind body position ▸ unused.last
  have other : x ≠ y := fun same => new (same ▸ member)
  have below : Unused y (TypeExpr.postOrder body) := binder.inside_bind body ▸ unused.left
  have inside := resolve_rebound known (Rebound.of_binder bound other member) below
  cases binder with
  | forAll xs => exact .map inside fun b c body => body.forAll_rename other member new
  | recursive z =>
    obtain rfl := List.mem_singleton.mp member
    refine .map inside fun b c body => ?_
    rw [if_pos rfl]
    exact body.recursive_rename other

section Holes

variable {t u : Located TypeExpr} {p : Prop}

theorem resolveAll_hole {bound : List String}
    (same : InStep (SameIf p) (resolve ctx bound t) (resolve ctx bound u))
    (before after : List (Located TypeExpr)) :
    InStep (fun ts us => SameIf p (.tuple ts) (.tuple us)) (resolveAll ctx bound (before ++ t :: after))
      (resolveAll ctx bound (before ++ u :: after)) := by
  induction before with
  | nil =>
    apply InStep.bind same
    intro t u same
    refine .shared _ fun ts => .answer ?_
    simpa [SameIf] using same
  | cons s before ih =>
    refine .shared _ fun s => ih.map fun ts us same => ?_
    simpa [SameIf] using same

theorem resolveFields_hole {bound : List String}
    (same : InStep (SameIf p) (resolve ctx bound t) (resolve ctx bound u))
    (before : List (String × Located TypeExpr)) (label : String) (after : List (String × Located TypeExpr)) :
    InStep (fun fs gs => SameIf p (.record fs) (.record gs))
      (resolveFields ctx bound (before ++ (label, t) :: after))
      (resolveFields ctx bound (before ++ (label, u) :: after)) := by
  induction before with
  | nil =>
    apply InStep.bind same
    intro t u same
    refine .shared _ fun fs => .answer ?_
    simpa [SameIf] using same
  | cons f before ih =>
    refine .shared _ fun s => ih.map fun fs gs same => ?_
    simpa [SameIf] using same

theorem resolveAlternatives_hole {bound : List String}
    (same : InStep (SameIf p) (resolve ctx bound t) (resolve ctx bound u))
    (before : List (String × Option (Located TypeExpr))) (label : String)
    (after : List (String × Option (Located TypeExpr))) :
    InStep (fun fs gs => SameIf p (.variant fs) (.variant gs))
      (resolveAlternatives ctx bound (before ++ (label, some t) :: after))
      (resolveAlternatives ctx bound (before ++ (label, some u) :: after)) := by
  induction before with
  | nil =>
    apply InStep.bind same
    intro t u same
    refine .shared _ fun fs => .answer ?_
    simpa [SameIf] using same
  | cons f before ih =>
    obtain ⟨l, _ | s⟩ := f
    · refine ih.map fun fs gs same => ?_
      simpa [SameIf] using same
    · refine .shared _ fun s => ih.map fun fs gs same => ?_
      simpa [SameIf] using same

/-- Two parts that are one type up to names are so in any hole. -/
theorem resolve_hole {bound : List String} (hole : Hole) (position : Option Position)
    (same : InStep (SameIf p) (resolve ctx (bound ++ hole.names) t) (resolve ctx (bound ++ hole.names) u)) :
    InStep (SameIf p) (resolve ctx bound ⟨hole.fill t, position⟩)
      (resolve ctx bound ⟨hole.fill u, position⟩) := by
  have here (none : hole.names = []) : InStep (SameIf p) (resolve ctx bound t) (resolve ctx bound u) := by
    rwa [none, List.append_nil] at same
  cases hole with
  | param before after output =>
    apply InStep.bind (resolveAll_hole (here rfl) before after)
    exact fun ps qs params => .shared _ fun r => .answer params.params
  | result params => exact .shared _ fun ps => .map (here rfl) fun r s result => result.result
  | body binder =>
    cases binder with
    | forAll xs => exact .map same fun b c body => body.forAll
    | recursive z => exact .map same fun b c body => body.recursive
  | left r =>
    apply InStep.bind (here rfl)
    exact fun l l' left => .shared _ fun r => .answer left.sum_left
  | right l => exact .shared _ fun l => .map (here rfl) fun r r' right => right.sum_right
  | element before after =>
    exact .map (resolveAll_hole (here rfl) before after) fun ts us elements => elements
  | field before label after =>
    exact .map (resolveFields_hole (here rfl) before label after) fun fs gs fields => fields
  | payload before label after =>
    exact .map (resolveAlternatives_hole (here rfl) before label after) fun fs gs payloads => payloads
  | list => exact .map (here rfl) fun t u element => element.list
  | ref => exact .map (here rfl) fun t u referent => referent.ref

/-- So they are anywhere in an annotation. -/
theorem resolve_site {bound : List String} (site : Site)
    (same : InStep (SameIf p) (resolve ctx (bound ++ site.names) t) (resolve ctx (bound ++ site.names) u)) :
    InStep (SameIf p) (resolve ctx bound (site.fill t)) (resolve ctx bound (site.fill u)) := by
  induction site generalizing bound with
  | nil => rwa [Site.names, List.flatMap_nil, List.append_nil] at same
  | cons hole site ih =>
    rw [Site.names, List.flatMap_cons, ← List.append_assoc] at same
    exact resolve_hole hole.node hole.position (ih same)

end Holes

end Annotations

namespace Checker

/-- Another name for a variable that is bound somewhere in an annotation. Whatever was done with a
checker, a name that stands neither in the annotation nor in the type of an alias changes no error,
and the meaning is the same up to the names of binders exactly if no alias that is used below the
binder stands for a type in which the old name is free: it would be captured. -/
theorem binder_renamed_iff (c : Checker) (reachable : c.Reachable) (scope : Scope) {x y : String}
    (site : Site) (binder : Binder) (member : x ∈ binder.names) (body : Located TypeExpr)
    (position : Option Position)
    (unused : Unused y (TypeExpr.postOrder (site.fill ⟨binder.bind body, position⟩)))
    (known : ∀ z t, c.environment.aliases.lookup z = some t → y ∉ t.freeNames) :
    let original := c.resolve scope (site.fill ⟨binder.bind body, position⟩)
    let renamed := c.resolve scope
      (site.fill ⟨(binder.rename x y).bind (TypeExpr.rename x y body), position⟩)
    renamed.2.errors = original.2.errors ∧
      (renamed.1.form = original.1.form ↔
        ∀ u ∈ exposed (c.within scope) x (site.names ++ binder.names) body, x ∉ u.freeNames) := by
  have spare : (c.within scope).AliasesSpare y := fun z t found => Ty.within_ne_iff.mpr (known z t found)
  have part := resolve_binder spare ([] ++ site.names) member position
    (unused.mono (site.postOrder_subset_fill _))
  obtain ⟨meanings, progress⟩ := resolve_site site part c.progress
  have sound := reachable.reached.cacheSound
  have cached (t : Located TypeExpr) := meaning_eq_resolve (c.within scope) t sound
  intro original renamed
  have answer (t : Located TypeExpr) :
      (c.resolve scope t).1 = (Typing.resolve (c.within scope) [] t c.progress).1 :=
    congrArg Prod.fst (cached t)
  have errors (t : Located TypeExpr) :
      (c.resolve scope t).2.errors = (Typing.resolve (c.within scope) [] t c.progress).2.errors :=
    congrArg (Progress.errors ·.2) (cached t)
  refine ⟨?_, ?_⟩
  · rw [errors, errors, progress]
  · rw [answer, answer]
    exact meanings.trans (forall₂_congr fun _ _ => Ty.within_ne_iff)

/-- The scope of a type parameter. -/
def parameterScope : Scope :=
  ({} : Scope).bindTypeVar "X"

/-- A checker that knows `A` as another name for the type parameter. -/
def aliasing : Checker :=
  ((Checker.new {}).declare parameterScope [⟨.typeAlias "A" ⟨.var "X", none⟩, none⟩]).2

theorem aliasing_reachable : aliasing.Reachable :=
  .declare parameterScope _ (.new {})

theorem aliasing_lookup {z : String} {t : Ty} (found : aliasing.environment.aliases.lookup z = some t) :
    z = "A" ∧ t = .var "X" := by
  have aliases : aliasing.environment.aliases = [("A", .var "X")] := by decide +kernel
  rw [aliases, List.lookup_cons] at found
  split at found
  · rename_i same
    exact ⟨eq_of_beq same, (Option.some.inj found).symm⟩
  · contradiction

theorem functions_renamed :
    let site : Site := [⟨.list, none⟩]
    let body : Located TypeExpr := ⟨.arrow [⟨.var "Y", none⟩] ⟨.var "A", none⟩, none⟩
    let original := aliasing.resolve parameterScope (site.fill ⟨.forAll ["Y"] body, none⟩)
    let renamed := aliasing.resolve parameterScope
      (site.fill ⟨.forAll ["Z"] (TypeExpr.rename "Y" "Z" body), none⟩)
    (aliasing.Reachable ∧ "Y" ∈ (Binder.forAll ["Y"]).names ∧
      Unused "Z" (TypeExpr.postOrder (site.fill ⟨.forAll ["Y"] body, none⟩)) ∧
      (∀ z t, aliasing.environment.aliases.lookup z = some t → "Z" ∉ t.freeNames)) ∧
    renamed.2.errors = original.2.errors ∧
      (renamed.1.form = original.1.form ↔
        ∀ u ∈ exposed (aliasing.within parameterScope) "Y" ["Y"] body, "Y" ∉ u.freeNames) ∧
      renamed.1.form = original.1.form := by
  intro site body original renamed
  have member : "Y" ∈ (Binder.forAll ["Y"]).names := List.mem_singleton.mpr rfl
  have unused : Unused "Z" (TypeExpr.postOrder (site.fill ⟨.forAll ["Y"] body, none⟩)) := by
    unfold Unused
    decide +kernel
  have known (z : String) (t : Ty) (found : aliasing.environment.aliases.lookup z = some t) :
      "Z" ∉ t.freeNames := by
    obtain ⟨-, rfl⟩ := aliasing_lookup found
    decide
  obtain ⟨errors, same⟩ := binder_renamed_iff aliasing aliasing_reachable parameterScope site (.forAll ["Y"])
    member body none unused known
  exact ⟨⟨aliasing_reachable, member, unused, known⟩, errors, same, same.mpr (by decide +kernel)⟩

/-- The type parameter that an alias stands for is captured by a binder of its name. -/
theorem alias_captured :
    ¬∀ (c : Checker) (scope : Scope) (x y : String) (site : Site) (binder : Binder)
      (body : Located TypeExpr) (position : Option Position), c.Reachable → x ∈ binder.names →
      Unused y (TypeExpr.postOrder (site.fill ⟨binder.bind body, position⟩)) →
      (∀ frame ∈ scope.frames, y ∉ frame.typeVars ∧ ∀ f ∈ frame.vars, y ≠ f.1 ∧ y ∉ f.2.freeNames) →
      (∀ z t, c.environment.aliases.lookup z = some t → y ≠ z ∧ y ∉ t.freeNames) →
      let original := c.resolve scope (site.fill ⟨binder.bind body, position⟩)
      let renamed := c.resolve scope
        (site.fill ⟨(binder.rename x y).bind (TypeExpr.rename x y body), position⟩)
      renamed.2.errors = original.2.errors ∧ renamed.1.form = original.1.form := by
  intro renamed
  have unused : Unused "Y" (TypeExpr.postOrder ⟨.forAll ["X"] ⟨.var "A", none⟩, none⟩) := by
    unfold Unused
    decide +kernel
  have known (z : String) (t : Ty) (found : aliasing.environment.aliases.lookup z = some t) :
      "Y" ≠ z ∧ "Y" ∉ t.freeNames := by
    obtain ⟨rfl, rfl⟩ := aliasing_lookup found
    decide
  have same := (renamed aliasing parameterScope "X" "Y" [] (.forAll ["X"]) ⟨.var "A", none⟩ none
    aliasing_reachable (List.mem_singleton.mpr rfl) unused (by decide +kernel) known).2
  have captured : (aliasing.resolve parameterScope ⟨.forAll ["X"] ⟨.var "A", none⟩, none⟩).1 =
      .forAll ["X"] (.var "X") := by decide +kernel
  have free : (aliasing.resolve parameterScope ⟨.forAll ["Y"] ⟨.var "A", none⟩, none⟩).1 =
      .forAll ["Y"] (.var "X") := by decide +kernel
  change (aliasing.resolve parameterScope ⟨.forAll ["Y"] ⟨.var "A", none⟩, none⟩).1.form =
    (aliasing.resolve parameterScope ⟨.forAll ["X"] ⟨.var "A", none⟩, none⟩).1.form at same
  rw [captured, free] at same
  simp [Ty.form, Form.close, Form.closing, places] at same

end Checker

end StellaLang.Typing
