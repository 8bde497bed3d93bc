import Mathlib.Algebra.BigOperators.Ring.List
import Mathlib.Algebra.Order.Ring.Nat
import Mathlib.Algebra.Order.BigOperators.Group.List
import StellaLang.Proofs.Syntax.Children
import StellaLang.Proofs.Syntax.Equality

/-! What equal expressions have in common: the nodes below them are equal one by one. So an expression
never occurs below an equal one, and what occurs in an expression occurs as often in every other
occurrence of it. -/
namespace StellaLang.Syntax

variable (f : Option Position → Option Position)

section Places

def Node.relocate : Node → Node
  | .type t => .type (TypeExpr.relocate f t)
  | .pattern p => .pattern (Pattern.relocate f p)
  | .expr e => .expr (Expr.relocate f e)
  | .decl d => .decl (Decl.relocate f d)
  | .program p => .program (Program.relocate f p)

theorem TypeExpr.relocateAlternatives_eq (fs : List (String × Option (Located TypeExpr))) :
    relocateAlternatives f fs = fs.map fun (l, t) => (l, t.map (relocate f)) := by
  induction fs with
  | nil => rfl
  | cons field fs ih =>
    obtain ⟨l, _ | t⟩ := field
    · rw [relocateAlternatives, ih]; rfl
    · rw [relocateAlternatives, ih]; rfl

theorem Pattern.relocateAll_eq (ps : List (Located Pattern)) :
    relocateAll f ps = ps.map (relocate f) := by
  induction ps with
  | nil => rfl
  | cons p ps ih => rw [relocateAll, ih, List.map_cons]

theorem Pattern.relocateFields_eq (fs : List (String × Located Pattern)) :
    relocateFields f fs = fs.map fun (l, p) => (l, relocate f p) := by
  induction fs with
  | nil => rfl
  | cons field fs ih => rw [relocateFields, ih, List.map_cons]

theorem Expr.relocateFields_eq (fs : List (String × Located Expr)) :
    relocateFields f fs = fs.map fun (l, e) => (l, relocate f e) := by
  induction fs with
  | nil => rfl
  | cons field fs ih => rw [relocateFields, ih, List.map_cons]

theorem TypeExpr.children_relocate (t : TypeExpr) :
    (relocateNode f t).children = t.children.map (Node.relocate f) := by
  cases t with
  | variant fs =>
    simp only [relocateNode, relocateAlternatives_eq, children, List.filterMap_map, List.map_filterMap]
    congr 1
    funext field
    obtain ⟨l, _ | t⟩ := field
    · rfl
    · rfl
  | _ =>
    simp [relocateNode, children, relocateAll_eq, relocateFields_eq, Node.relocate, Function.comp_def]

theorem Pattern.children_relocate (p : Pattern) :
    (relocateNode f p).children = p.children.map (Node.relocate f) := by
  cases p with
  | variant l payload => cases payload <;> rfl
  | _ =>
    simp [relocateNode, children, relocateAll_eq, relocateFields_eq, Node.relocate, Function.comp_def]

theorem Expr.children_relocate (e : Expr) :
    (relocateNode f e).children = e.children.map (Node.relocate f) := by
  cases e with
  | variant l payload => cases payload <;> rfl
  | _ =>
    simp [relocateNode, children, bindingChildren, relocateAll_eq, relocateFields_eq,
      relocateBindings_eq, TypeExpr.relocateAll_eq, TypeExpr.relocateFields_eq, Node.relocate,
      Function.comp_def, List.flatMap_map, List.map_flatMap]

theorem Decl.children_relocate (d : Decl) :
    (relocateNode f d).children = d.children.map (Node.relocate f) := by
  cases d with
  | function _ _ _ _ result =>
    cases result <;>
      simp [relocateNode, children, relocateAll_eq, TypeExpr.relocateAll_eq, TypeExpr.relocateFields_eq,
        Node.relocate, Function.comp_def]
  | _ => rfl

theorem Node.children_relocate (n : Node) :
    (n.relocate f).children = n.children.map (Node.relocate f) := by
  obtain ⟨t, _⟩ | ⟨p, _⟩ | ⟨e, _⟩ | ⟨d, _⟩ | p := n
  · exact t.children_relocate f
  · exact p.children_relocate f
  · exact e.children_relocate f
  · exact d.children_relocate f
  · simp [relocate, children, Program.relocate, Decl.relocateAll_eq, Function.comp_def]

/-- The walk comes to the same nodes at other places. -/
theorem Node.postOrder_relocate (n : Node) :
    (n.relocate f).postOrder = n.postOrder.map (Node.relocate f) := by
  induction n using Node.induction with
  | step n ih =>
    rw [postOrder_eq, children_relocate, List.flatMap_map, List.flatMap_congr ih, postOrder_eq n,
      List.map_append, List.map_flatMap]
    rfl

theorem Node.below_relocate (n : Node) : (n.relocate f).below = n.below.map (Node.relocate f) := by
  rw [below, children_relocate, List.flatMap_map, below, List.map_flatMap]
  exact List.flatMap_congr fun c _ => c.postOrder_relocate f

end Places

section Equal

/-- Whether a node is an occurrence of an expression, wherever it stands. -/
def Node.copyOf (e : Located Expr) (n : Node) : Bool :=
  n == .expr e

variable {e e' : Located Expr}

theorem Node.copyOf_expr (e e' : Located Expr) : copyOf e (.expr e') = (e' == e) :=
  rfl

theorem Node.copyOf_self (e : Located Expr) : copyOf e (.expr e) = true :=
  BEq.refl e

theorem Node.copyOf_eq_true {n : Node} : n.copyOf e = true ↔ ∃ e', n = .expr e' ∧ (e' == e) = true := by
  constructor
  · intro copy
    cases n with
    | expr e' => exact ⟨e', rfl, copy⟩
    | _ => contradiction
  · rintro ⟨e', rfl, equal⟩
    exact equal

theorem Node.copyOf_beq (equal : (e == e') = true) : copyOf e = copyOf e' := by
  funext n
  cases n with
  | expr e'' =>
    rw [copyOf_expr, copyOf_expr]
    exact BEq.congr_right equal
  | _ => rfl

/-- Whether a node is an occurrence depends on nothing but the node without its places. -/
theorem Node.copyOf_congr {n m : Node} (one : n.relocate nowhere = m.relocate nowhere)
    (s : Located Expr) : n.copyOf s = m.copyOf s := by
  cases n with
  | expr e =>
    cases m with
    | expr e' =>
      have equal : (e == e') = true := Expr.beq_iff.mpr (Node.expr.inj one)
      rw [copyOf_expr, copyOf_expr]
      exact BEq.congr_left equal
    | _ => contradiction
  | _ => cases m <;> first | rfl | contradiction

theorem Expr.below_beq (equal : (e == e') = true) :
    (Node.expr e).below.map (Node.relocate nowhere) =
      (Node.expr e').below.map (Node.relocate nowhere) := by
  rw [← Node.below_relocate, ← Node.below_relocate]
  exact congrArg (fun e => Node.below (.expr e)) (Expr.beq_iff.mp equal)

theorem Expr.length_below_beq (equal : (e == e') = true) :
    (Node.expr e).below.length = (Node.expr e').below.length := by
  have lengths := congrArg List.length (below_beq equal)
  rwa [List.length_map, List.length_map] at lengths

theorem countP_congr_nowhere {ns ms : List Node}
    (one : ns.map (Node.relocate nowhere) = ms.map (Node.relocate nowhere)) (s : Located Expr) :
    ns.countP (Node.copyOf s) = ms.countP (Node.copyOf s) := by
  induction ns generalizing ms with
  | nil => rw [List.map_eq_nil_iff.mp one.symm]
  | cons n ns ih =>
    cases ms with
    | nil => contradiction
    | cons m ms =>
      obtain ⟨first, others⟩ := List.cons.inj one
      rw [List.countP_cons, List.countP_cons, Node.copyOf_congr first s, ih others]

/-- Equal expressions have a third one below them equally often. -/
theorem Expr.countP_below_beq (equal : (e == e') = true) (s : Located Expr) :
    (Node.expr e).below.countP (Node.copyOf s) = (Node.expr e').below.countP (Node.copyOf s) :=
  countP_congr_nowhere (below_beq equal) s

theorem Node.length_of_mem_postOrder {n m : Node} (member : m ∈ n.postOrder) :
    m.postOrder.length ≤ n.postOrder.length := by
  induction n using Node.induction with
  | step n ih =>
    rw [postOrder_eq, List.mem_append, List.mem_flatMap] at member
    rcases member with ⟨c, part, member⟩ | itself
    · exact (ih c part member).trans (length_postOrder_child part).le
    · rw [List.mem_singleton.mp itself]

/-- No expression occurs below an equal one. -/
theorem Expr.countP_below_self (equal : (e == e') = true) :
    (Node.expr e).below.countP (Node.copyOf e') = 0 := by
  rw [List.countP_eq_zero]
  intro m member again
  obtain ⟨e'', rfl, again⟩ := Node.copyOf_eq_true.mp again
  obtain ⟨c, part, member⟩ := Node.mem_below.mp member
  have shorter := Node.length_postOrder_child part
  have fits := Node.length_of_mem_postOrder member
  have same := length_below_beq (BEq.trans equal (BEq.symm again))
  rw [Node.length_postOrder (.expr e)] at shorter
  rw [Node.length_postOrder (.expr e'')] at fits
  omega

/-- All occurrences of an expression stand apart, and in each of them occurs what occurs in one. -/
theorem Node.countP_mul_le (n : Node) (e s : Located Expr) :
    n.postOrder.countP (Node.copyOf e) * (Node.expr e).below.countP (Node.copyOf s) ≤
      n.postOrder.countP (Node.copyOf s) := by
  induction n using Node.induction with
  | step n ih =>
    rw [postOrder_eq, List.countP_append, List.countP_append]
    by_cases copy : n.copyOf e = true
    · obtain ⟨e', rfl, equal⟩ := copyOf_eq_true.mp copy
      have none : ((Node.expr e').children.flatMap postOrder).countP (Node.copyOf e) = 0 :=
        Expr.countP_below_self equal
      have inner : ((Node.expr e').children.flatMap postOrder).countP (Node.copyOf s) = _ :=
        Expr.countP_below_beq equal s
      have itself : [Node.expr e'].countP (Node.copyOf e) = 1 := by simpa using copy
      rw [none, inner, itself, Nat.zero_add, Nat.one_mul]
      exact Nat.le_add_right _ _
    · have itself : [n].countP (Node.copyOf e) = 0 := by simpa using copy
      rw [itself, Nat.add_zero, List.countP_flatMap, List.countP_flatMap, ← List.sum_map_mul_right]
      exact (List.sum_le_sum ih).trans (Nat.le_add_right _ _)

end Equal

end StellaLang.Syntax
