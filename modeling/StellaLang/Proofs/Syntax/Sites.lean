import StellaLang.Proofs.Syntax.Renaming

/-! Places inside an annotation. A hole is a node with one of its parts left out, and the holes on
the way down to a part make up the place where it stands. -/
namespace StellaLang.Syntax.TypeExpr

/-- A node that binds type variables, but for its body. -/
inductive Binder where
  | forAll (vars : List String)
  | recursive (var : String)

namespace Binder

def names : Binder → List String
  | forAll xs => xs
  | recursive x => [x]

def bind : Binder → Located TypeExpr → TypeExpr
  | forAll xs, body => .forAll xs body
  | recursive x, body => .recursive x body

/-- The binder with a variable called `y` that was called `x`. -/
def rename (x y : String) : Binder → Binder
  | forAll xs => forAll (xs.map fun z => if z = x then y else z)
  | recursive z => recursive (if z = x then y else z)

theorem names_rename (x y : String) (binder : Binder) :
    (binder.rename x y).names = binder.names.map fun z => if z = x then y else z := by
  cases binder <;> rfl

theorem typeNames_bind (binder : Binder) (body : Located TypeExpr) (position : Option Position) :
    (Node.type ⟨binder.bind body, position⟩).typeNames = binder.names := by
  cases binder <;> rfl

theorem inside_bind (binder : Binder) (body : Located TypeExpr) :
    inside (binder.bind body) = postOrder body := by
  cases binder <;> rfl

end Binder

inductive Hole where
  | param (before after : List (Located TypeExpr)) (output : Located TypeExpr)
  | result (params : List (Located TypeExpr))
  | body (binder : Binder)
  | left (r : Located TypeExpr)
  | right (l : Located TypeExpr)
  | element (before after : List (Located TypeExpr))
  | field (before : List (String × Located TypeExpr)) (label : String)
      (after : List (String × Located TypeExpr))
  | payload (before : List (String × Option (Located TypeExpr))) (label : String)
      (after : List (String × Option (Located TypeExpr)))
  | list
  | ref

namespace Hole

def fill : Hole → Located TypeExpr → TypeExpr
  | param before after output, t => .arrow (before ++ t :: after) output
  | result params, t => .arrow params t
  | body binder, t => binder.bind t
  | left r, t => .sum t r
  | right l, t => .sum l t
  | element before after, t => .tuple (before ++ t :: after)
  | field before label after, t => .record (before ++ (label, t) :: after)
  | payload before label after, t => .variant (before ++ (label, some t) :: after)
  | list, t => .list t
  | ref, t => .ref t

/-- The variables bound around the part that is left out, by this node. -/
def names : Hole → List String
  | body binder => binder.names
  | _ => []

theorem postOrder_subset_inside (hole : Hole) (t : Located TypeExpr) :
    postOrder t ⊆ inside (hole.fill t) := by
  have all (before after : List (Located TypeExpr)) : postOrder t ⊆ postOrderAll (before ++ t :: after) := by
    induction before with
    | nil => exact List.subset_append_left ..
    | cons u before ih => exact List.subset_append_of_subset_right _ ih
  cases hole with
  | param before after output => exact List.subset_append_of_subset_left _ (all before after)
  | result params => exact List.subset_append_right ..
  | body binder => exact (binder.inside_bind t) ▸ List.Subset.refl _
  | left r => exact List.subset_append_left ..
  | right l => exact List.subset_append_right ..
  | element before after => exact all before after
  | field before label after =>
    change postOrder t ⊆ postOrderFields (before ++ (label, t) :: after)
    induction before with
    | nil => exact List.subset_append_left ..
    | cons f before ih => exact List.subset_append_of_subset_right _ ih
  | payload before label after =>
    change postOrder t ⊆ postOrderAlternatives (before ++ (label, some t) :: after)
    induction before with
    | nil => exact List.subset_append_left ..
    | cons f before ih =>
      obtain ⟨m, payload⟩ := f
      cases payload with
      | none => exact ih
      | some u => exact List.subset_append_of_subset_right _ ih
  | list => exact List.Subset.refl _
  | ref => exact List.Subset.refl _

end Hole

/-- The holes from the root of an annotation down to a part of it, each at its own position. -/
abbrev Site := List (Located Hole)

namespace Site

/-- The annotation with a part put in. -/
def fill (site : Site) (t : Located TypeExpr) : Located TypeExpr :=
  site.foldr (fun hole t => ⟨hole.node.fill t, hole.position⟩) t

/-- The variables bound around the part, from the outside in. -/
def names (site : Site) : List String :=
  site.flatMap (·.node.names)

theorem postOrder_subset_fill (site : Site) (t : Located TypeExpr) :
    postOrder t ⊆ postOrder (fill site t) := by
  induction site with
  | nil => exact List.Subset.refl _
  | cons hole site ih =>
    have below := hole.node.postOrder_subset_inside (fill site t)
    exact List.Subset.trans ih (List.subset_append_of_subset_left _ below)

section Parts

variable {u : Located TypeExpr}

mutual

/-- Every part of an annotation stands at a place in it. -/
theorem exists_site {t : Located TypeExpr} (part : Node.type u ∈ postOrder t) :
    ∃ site : Site, site.fill u = t := by
  obtain ⟨t, position⟩ := t
  rcases List.mem_append.mp part with below | root
  · obtain ⟨hole, site, rfl⟩ := exists_hole below
    exact ⟨⟨hole, position⟩ :: site, rfl⟩
  · obtain rfl : u = ⟨t, position⟩ := by simpa using root
    exact ⟨[], rfl⟩
termination_by structural t

theorem exists_hole {t : TypeExpr} (part : Node.type u ∈ inside t) :
    ∃ (hole : Hole) (site : Site), hole.fill (site.fill u) = t := by
  cases t with
  | auto | bool | nat | unit | top | bottom | var => contradiction
  | arrow ps r =>
    rcases List.mem_append.mp part with params | result
    · obtain ⟨before, after, site, rfl⟩ := exists_element params
      exact ⟨.param before after r, site, rfl⟩
    · obtain ⟨site, rfl⟩ := exists_site result
      exact ⟨.result ps, site, rfl⟩
  | forAll xs b =>
    obtain ⟨site, rfl⟩ := exists_site part
    exact ⟨.body (.forAll xs), site, rfl⟩
  | recursive x b =>
    obtain ⟨site, rfl⟩ := exists_site part
    exact ⟨.body (.recursive x), site, rfl⟩
  | sum l r =>
    rcases List.mem_append.mp part with left | right
    · obtain ⟨site, rfl⟩ := exists_site left
      exact ⟨.left r, site, rfl⟩
    · obtain ⟨site, rfl⟩ := exists_site right
      exact ⟨.right l, site, rfl⟩
  | tuple ts =>
    obtain ⟨before, after, site, rfl⟩ := exists_element part
    exact ⟨.element before after, site, rfl⟩
  | record fs =>
    obtain ⟨before, label, after, site, rfl⟩ := exists_field part
    exact ⟨.field before label after, site, rfl⟩
  | variant fs =>
    obtain ⟨before, label, after, site, rfl⟩ := exists_payload part
    exact ⟨.payload before label after, site, rfl⟩
  | list t =>
    obtain ⟨site, rfl⟩ := exists_site part
    exact ⟨.list, site, rfl⟩
  | ref t =>
    obtain ⟨site, rfl⟩ := exists_site part
    exact ⟨.ref, site, rfl⟩
termination_by structural t

theorem exists_element {ts : List (Located TypeExpr)} (part : Node.type u ∈ postOrderAll ts) :
    ∃ (before after : List (Located TypeExpr)) (site : Site), before ++ site.fill u :: after = ts := by
  match ts with
  | [] => contradiction
  | t :: ts =>
    rcases List.mem_append.mp part with first | rest
    · obtain ⟨site, rfl⟩ := exists_site first
      exact ⟨[], ts, site, rfl⟩
    · obtain ⟨before, after, site, rfl⟩ := exists_element rest
      exact ⟨t :: before, after, site, rfl⟩
termination_by structural ts

theorem exists_field {fs : List (String × Located TypeExpr)} (part : Node.type u ∈ postOrderFields fs) :
    ∃ (before : List (String × Located TypeExpr)) (label : String)
      (after : List (String × Located TypeExpr)) (site : Site),
      before ++ (label, site.fill u) :: after = fs := by
  match fs with
  | [] => contradiction
  | (l, t) :: fs =>
    rcases List.mem_append.mp part with first | rest
    · obtain ⟨site, rfl⟩ := exists_site first
      exact ⟨[], l, fs, site, rfl⟩
    · obtain ⟨before, label, after, site, rfl⟩ := exists_field rest
      exact ⟨(l, t) :: before, label, after, site, rfl⟩
termination_by structural fs

theorem exists_payload {fs : List (String × Option (Located TypeExpr))}
    (part : Node.type u ∈ postOrderAlternatives fs) :
    ∃ (before : List (String × Option (Located TypeExpr))) (label : String)
      (after : List (String × Option (Located TypeExpr))) (site : Site),
      before ++ (label, some (site.fill u)) :: after = fs := by
  match fs with
  | [] => contradiction
  | (l, none) :: fs =>
    have part : Node.type u ∈ postOrderAlternatives fs := part
    obtain ⟨before, label, after, site, rfl⟩ := exists_payload part
    exact ⟨(l, none) :: before, label, after, site, rfl⟩
  | (l, some t) :: fs =>
    rcases List.mem_append.mp part with first | rest
    · obtain ⟨site, rfl⟩ := exists_site first
      exact ⟨[], l, fs, site, rfl⟩
    · obtain ⟨before, label, after, site, rfl⟩ := exists_payload rest
      exact ⟨(l, some t) :: before, label, after, site, rfl⟩
termination_by structural fs

end

end Parts

end Site

end StellaLang.Syntax.TypeExpr
