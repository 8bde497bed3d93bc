import Mathlib.Data.List.Basic
import StellaLang.Syntax.Node

/-! The nodes that a node is made of, as its fields are declared, and the walk over all nodes in
terms of them: the walks over the parts, one after the other, and then the node itself. What holds of
a node if it holds of all its parts, holds of every node. -/
namespace StellaLang.Syntax

def TypeExpr.children : TypeExpr → List Node
  | arrow params result => params.map .type ++ [.type result]
  | forAll _ body => [.type body]
  | recursive _ body => [.type body]
  | sum left right => [.type left, .type right]
  | tuple elements => elements.map .type
  | record fields => fields.map fun field => .type field.2
  | variant fields => fields.filterMap fun field => field.2.map .type
  | list element => [.type element]
  | ref referent => [.type referent]
  | auto | bool | nat | unit | top | bottom | var _ => []

def Pattern.children : Pattern → List Node
  | castAs pattern type => [.pattern pattern, .type type]
  | ascribed pattern type => [.pattern pattern, .type type]
  | variant _ payload => (payload.map .pattern).toList
  | inl pattern => [.pattern pattern]
  | inr pattern => [.pattern pattern]
  | tuple elements => elements.map .pattern
  | record fields => fields.map fun field => .pattern field.2
  | list elements => elements.map .pattern
  | cons head tail => [.pattern head, .pattern tail]
  | succ pattern => [.pattern pattern]
  | bool _ | unit | nat _ | var _ => []

/-- A binding, or a case of a match, is no node, but its pattern and its expression are. -/
def Expr.bindingChildren (bindings : List (Located Pattern × Located Expr)) : List Node :=
  bindings.flatMap fun binding => [.pattern binding.1, .expr binding.2]

def Expr.children : Expr → List Node
  | sequence first second => [.expr first, .expr second]
  | assign target value => [.expr target, .expr value]
  | cond condition thenBranch elseBranch => [.expr condition, .expr thenBranch, .expr elseBranch]
  | letIn bindings body => bindingChildren bindings ++ [.expr body]
  | letRec bindings body => bindingChildren bindings ++ [.expr body]
  | typeAbstraction _ body => [.expr body]
  | binary _ left right => [.expr left, .expr right]
  | ascribe expr type => [.expr expr, .type type]
  | cast expr type => [.expr expr, .type type]
  | abstraction params body => params.map (fun param => .type param.2) ++ [.expr body]
  | variant _ payload => (payload.map .expr).toList
  | matching scrutinee cases => .expr scrutinee :: bindingChildren cases
  | list elements => elements.map .expr
  | unary _ operand => [.expr operand]
  | application function args => .expr function :: args.map .expr
  | typeApplication function types => .expr function :: types.map .type
  | field expr _ => [.expr expr]
  | component expr _ => [.expr expr]
  | tuple elements => elements.map .expr
  | record fields => fields.map fun field => .expr field.2
  | cons head tail => [.expr head, .expr tail]
  | tryCatch body pattern handler => [.expr body, .pattern pattern, .expr handler]
  | tryWith body fallback => [.expr body, .expr fallback]
  | tryCast expr type pattern success failure =>
    [.expr expr, .type type, .pattern pattern, .expr success, .expr failure]
  | natRec count initial step => [.expr count, .expr initial, .expr step]
  | fold type expr => [.type type, .expr expr]
  | unfold type expr => [.type type, .expr expr]
  | panic | literal _ | var _ => []

def Decl.children : Decl → List Node
  | function _ _ _ params result throws locals body =>
    params.map (fun param => .type param.2) ++ (result.map .type).toList ++ throws.map .type ++
      locals.map .decl ++ [.expr body]
  | typeAlias _ type => [.type type]
  | exceptionType type => [.type type]
  | exceptionVariant _ type => [.type type]

namespace Node

/-- The nodes directly below a node, from the first field to the last. -/
def children : Node → List Node
  | type t => t.node.children
  | pattern p => p.node.children
  | expr e => e.node.children
  | decl d => d.node.children
  | program p => p.node.decls.map .decl

/-- All nodes strictly below a node, each after the nodes below it. -/
def below (n : Node) : List Node :=
  n.children.flatMap postOrder

end Node

section Lists

theorem TypeExpr.postOrderAll_eq (ts : List (Located TypeExpr)) :
    postOrderAll ts = (ts.map Node.type).flatMap Node.postOrder := by
  induction ts with
  | nil => rfl
  | cons t ts ih => rw [postOrderAll, ih]; rfl

theorem TypeExpr.postOrderFields_eq (fs : List (String × Located TypeExpr)) :
    postOrderFields fs = (fs.map fun f => Node.type f.2).flatMap Node.postOrder := by
  induction fs with
  | nil => rfl
  | cons f fs ih => rw [postOrderFields, ih]; rfl

theorem TypeExpr.postOrderAlternatives_eq (fs : List (String × Option (Located TypeExpr))) :
    postOrderAlternatives fs = (fs.filterMap fun f => f.2.map Node.type).flatMap Node.postOrder := by
  induction fs with
  | nil => rfl
  | cons f fs ih =>
    obtain ⟨_, _ | t⟩ := f
    · rw [postOrderAlternatives, ih]; rfl
    · rw [postOrderAlternatives, ih]; rfl

theorem Pattern.postOrderAll_eq (ps : List (Located Pattern)) :
    postOrderAll ps = (ps.map Node.pattern).flatMap Node.postOrder := by
  induction ps with
  | nil => rfl
  | cons p ps ih => rw [postOrderAll, ih]; rfl

theorem Pattern.postOrderFields_eq (fs : List (String × Located Pattern)) :
    postOrderFields fs = (fs.map fun f => Node.pattern f.2).flatMap Node.postOrder := by
  induction fs with
  | nil => rfl
  | cons f fs ih => rw [postOrderFields, ih]; rfl

theorem Expr.postOrderAll_eq (es : List (Located Expr)) :
    postOrderAll es = (es.map Node.expr).flatMap Node.postOrder := by
  induction es with
  | nil => rfl
  | cons e es ih => rw [postOrderAll, ih]; rfl

theorem Expr.postOrderFields_eq (fs : List (String × Located Expr)) :
    postOrderFields fs = (fs.map fun f => Node.expr f.2).flatMap Node.postOrder := by
  induction fs with
  | nil => rfl
  | cons f fs ih => rw [postOrderFields, ih]; rfl

theorem Expr.postOrderBindings_eq (bs : List (Located Pattern × Located Expr)) :
    postOrderBindings bs = (bindingChildren bs).flatMap Node.postOrder := by
  induction bs with
  | nil => rfl
  | cons b bs ih =>
    rw [postOrderBindings, ih, List.append_assoc]
    rfl

theorem Decl.postOrderAll_eq (ds : List (Located Decl)) :
    postOrderAll ds = (ds.map Node.decl).flatMap Node.postOrder := by
  induction ds with
  | nil => rfl
  | cons d ds ih => rw [postOrderAll, ih]; rfl

end Lists

section Parts

theorem TypeExpr.inside_eq (t : TypeExpr) : inside t = t.children.flatMap Node.postOrder := by
  cases t <;>
    simp [inside, children, postOrderAll_eq, postOrderFields_eq, postOrderAlternatives_eq, Node.postOrder]

theorem Pattern.inside_eq (p : Pattern) : inside p = p.children.flatMap Node.postOrder := by
  cases p with
  | variant _ payload => cases payload <;> simp [inside, children, Node.postOrder]
  | _ => simp [inside, children, postOrderAll_eq, postOrderFields_eq, Node.postOrder]

theorem Expr.inside_eq (e : Expr) : inside e = e.children.flatMap Node.postOrder := by
  cases e with
  | variant _ payload => cases payload <;> simp [inside, children, Node.postOrder]
  | _ =>
    simp [inside, children, postOrderAll_eq, postOrderFields_eq, postOrderBindings_eq,
      TypeExpr.postOrderAll_eq, TypeExpr.postOrderFields_eq, Node.postOrder]

theorem Decl.inside_eq (d : Decl) : inside d = d.children.flatMap Node.postOrder := by
  cases d with
  | function _ _ _ _ result =>
    cases result <;>
      simp [inside, children, postOrderAll_eq, TypeExpr.postOrderAll_eq, TypeExpr.postOrderFields_eq,
        Node.postOrder]
  | _ => simp [inside, children, Node.postOrder]

end Parts

namespace Node

/-- The walk over a node is the walks over its parts in order, and then the node. -/
theorem postOrder_eq (n : Node) : n.postOrder = n.children.flatMap postOrder ++ [n] := by
  obtain ⟨t, place⟩ | ⟨p, place⟩ | ⟨e, place⟩ | ⟨d, place⟩ | p := n
  · exact congrArg (· ++ [type ⟨t, place⟩]) t.inside_eq
  · exact congrArg (· ++ [pattern ⟨p, place⟩]) p.inside_eq
  · exact congrArg (· ++ [expr ⟨e, place⟩]) e.inside_eq
  · exact congrArg (· ++ [decl ⟨d, place⟩]) d.inside_eq
  · exact congrArg (· ++ [program p]) (Decl.postOrderAll_eq p.node.decls)

theorem postOrder_eq_below (n : Node) : n.postOrder = n.below ++ [n] :=
  n.postOrder_eq

theorem length_postOrder (n : Node) : n.postOrder.length = n.below.length + 1 := by
  rw [postOrder_eq_below, List.length_append, List.length_singleton]

/-- A part has fewer nodes than the whole. -/
theorem length_postOrder_child {n c : Node} (part : c ∈ n.children) :
    c.postOrder.length < n.postOrder.length := by
  obtain ⟨before, after, parts⟩ := List.append_of_mem part
  rw [length_postOrder n, below, parts, List.flatMap_append, List.flatMap_cons, List.length_append,
    List.length_append]
  omega

/-- What a node has if all its parts have it, every node has. -/
theorem induction {motive : Node → Prop}
    (step : ∀ n : Node, (∀ c ∈ n.children, motive c) → motive n) (n : Node) : motive n :=
  step n fun c _ => induction step c
termination_by n.postOrder.length
decreasing_by exact length_postOrder_child ‹_›

theorem mem_below {n m : Node} : m ∈ n.below ↔ ∃ c ∈ n.children, m ∈ c.postOrder :=
  List.mem_flatMap

/-- The walk over a node comes to what the walk over a part comes to. -/
theorem mem_postOrder_of_child {n c m : Node} (part : c ∈ n.children) (member : m ∈ c.postOrder) :
    m ∈ n.postOrder := by
  rw [postOrder_eq_below]
  exact List.mem_append_left _ (mem_below.mpr ⟨c, part, member⟩)

/-- A list of walks cut in front of one node is cut inside of one of the walks. -/
theorem flatMap_split {cs : List Node} {earlier later : List Node} {n : Node}
    (split : cs.flatMap postOrder = earlier ++ n :: later) :
    ∃ before c after inner rest, cs = before ++ c :: after ∧ c.postOrder = inner ++ n :: rest ∧
      earlier = before.flatMap postOrder ++ inner ∧ later = rest ++ after.flatMap postOrder := by
  induction cs generalizing earlier with
  | nil => simp at split
  | cons c cs ih =>
    -- the cut is behind the first walk, or at its end, or inside of it
    have further (earlier' : List Node) (others : cs.flatMap postOrder = earlier' ++ n :: later)
        (front : earlier = c.postOrder ++ earlier') :
        ∃ before d after inner rest, c :: cs = before ++ d :: after ∧
          d.postOrder = inner ++ n :: rest ∧ earlier = before.flatMap postOrder ++ inner ∧
          later = rest ++ after.flatMap postOrder := by
      obtain ⟨before, d, after, inner, rest, parts, inside, ahead, behind⟩ := ih others
      refine ⟨c :: before, d, after, inner, rest, congrArg (c :: ·) parts, inside, ?_, behind⟩
      rw [front, ahead, List.flatMap_cons, List.append_assoc]
    rw [List.flatMap_cons, List.append_eq_append_iff] at split
    rcases split with ⟨earlier', front, others⟩ | ⟨_ | ⟨m, rest⟩, inside, others⟩
    · exact further earlier' others front
    · exact further [] others.symm (by rw [inside, List.append_nil, List.append_nil])
    · obtain ⟨rfl, rfl⟩ := List.cons.inj others
      exact ⟨[], c, cs, earlier, rest, rfl, inside, rfl, rfl⟩

/-- Wherever the walk comes to a node, it has just been through the nodes below it. -/
theorem below_suffix {root n : Node} {earlier later : List Node}
    (split : root.postOrder = earlier ++ n :: later) : n.below <:+ earlier := by
  induction root using Node.induction generalizing earlier later with
  | step root ih =>
    rw [postOrder_eq, List.append_eq_append_iff] at split
    rcases split with ⟨earlier', front, last⟩ | ⟨_ | ⟨m, rest⟩, inside, last⟩
    · cases earlier' with
      | nil =>
        obtain ⟨rfl, -⟩ := List.cons.inj last
        rw [List.append_nil] at front
        exact ⟨[], front.symm⟩
      | cons m earlier' => simp at last
    · obtain ⟨rfl, -⟩ := List.cons.inj last
      rw [List.append_nil] at inside
      exact ⟨[], inside⟩
    · obtain ⟨rfl, -⟩ := List.cons.inj last
      obtain ⟨before, c, after, inner, rest, parts, within, front, -⟩ := flatMap_split inside
      have member : c ∈ root.children := parts ▸ List.mem_append_right _ List.mem_cons_self
      rw [front]
      exact (ih c member within).trans (List.suffix_append _ _)

end Node

end StellaLang.Syntax
