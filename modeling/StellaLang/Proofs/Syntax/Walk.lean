import StellaLang.Syntax.Node

/-! The expressions that the walk over all nodes comes to. There are none below types and
patterns. -/
namespace StellaLang.Syntax

def Node.expr? : Node → Option (Located Expr)
  | .expr e => some e
  | _ => none

/-- The expressions among some nodes. -/
def expressions (nodes : List Node) : List (Located Expr) :=
  nodes.filterMap Node.expr?

theorem expressions_append (ns ms : List Node) :
    expressions (ns ++ ms) = expressions ns ++ expressions ms :=
  List.filterMap_append

section Types

mutual

theorem expressions_type (t : Located TypeExpr) : expressions (TypeExpr.postOrder t) = [] := by
  obtain ⟨t, position⟩ := t
  rw [TypeExpr.postOrder, expressions_append, expressions_inside_type t]
  rfl
termination_by structural t

theorem expressions_inside_type (t : TypeExpr) : expressions (TypeExpr.inside t) = [] := by
  cases t with
  | arrow ps r =>
    rw [TypeExpr.inside, expressions_append, expressions_types ps, expressions_type r]
    rfl
  | sum l r =>
    rw [TypeExpr.inside, expressions_append, expressions_type l, expressions_type r]
    rfl
  | forAll _ b => exact expressions_type b
  | recursive _ b => exact expressions_type b
  | tuple ts => exact expressions_types ts
  | record fs => exact expressions_type_fields fs
  | variant fs => exact expressions_type_alternatives fs
  | list t => exact expressions_type t
  | ref t => exact expressions_type t
  | auto | bool | nat | unit | top | bottom | var => rfl
termination_by structural t

theorem expressions_types (ts : List (Located TypeExpr)) :
    expressions (TypeExpr.postOrderAll ts) = [] := by
  match ts with
  | [] => rfl
  | t :: ts =>
    rw [TypeExpr.postOrderAll, expressions_append, expressions_type t, expressions_types ts]
    rfl
termination_by structural ts

theorem expressions_type_fields (fs : List (String × Located TypeExpr)) :
    expressions (TypeExpr.postOrderFields fs) = [] := by
  match fs with
  | [] => rfl
  | (_, t) :: fs =>
    rw [TypeExpr.postOrderFields, expressions_append, expressions_type t,
      expressions_type_fields fs]
    rfl
termination_by structural fs

theorem expressions_type_alternatives (fs : List (String × Option (Located TypeExpr))) :
    expressions (TypeExpr.postOrderAlternatives fs) = [] := by
  match fs with
  | [] => rfl
  | (_, none) :: fs => exact expressions_type_alternatives fs
  | (_, some t) :: fs =>
    rw [TypeExpr.postOrderAlternatives, expressions_append, expressions_type t,
      expressions_type_alternatives fs]
    rfl
termination_by structural fs

end

end Types

section Patterns

mutual

theorem expressions_pattern (p : Located Pattern) : expressions (Pattern.postOrder p) = [] := by
  obtain ⟨p, position⟩ := p
  rw [Pattern.postOrder, expressions_append, expressions_inside_pattern p]
  rfl
termination_by structural p

theorem expressions_inside_pattern (p : Pattern) : expressions (Pattern.inside p) = [] := by
  cases p with
  | castAs p t | ascribed p t =>
    rw [Pattern.inside, expressions_append, expressions_pattern p, expressions_type t]
    rfl
  | cons h t =>
    rw [Pattern.inside, expressions_append, expressions_pattern h, expressions_pattern t]
    rfl
  | variant _ payload =>
    cases payload with
    | none => rfl
    | some p => exact expressions_pattern p
  | inl p => exact expressions_pattern p
  | inr p => exact expressions_pattern p
  | succ p => exact expressions_pattern p
  | tuple ps => exact expressions_patterns ps
  | list ps => exact expressions_patterns ps
  | record fs => exact expressions_pattern_fields fs
  | bool | unit | nat | var => rfl
termination_by structural p

theorem expressions_patterns (ps : List (Located Pattern)) :
    expressions (Pattern.postOrderAll ps) = [] := by
  match ps with
  | [] => rfl
  | p :: ps =>
    rw [Pattern.postOrderAll, expressions_append, expressions_pattern p, expressions_patterns ps]
    rfl
termination_by structural ps

theorem expressions_pattern_fields (fs : List (String × Located Pattern)) :
    expressions (Pattern.postOrderFields fs) = [] := by
  match fs with
  | [] => rfl
  | (_, p) :: fs =>
    rw [Pattern.postOrderFields, expressions_append, expressions_pattern p,
      expressions_pattern_fields fs]
    rfl
termination_by structural fs

end

end Patterns

end StellaLang.Syntax
