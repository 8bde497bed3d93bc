import StellaLang.Syntax.Decl

/-! Nodes of any family, and the walk that lists every node of a tree after all
nodes below it, parts in the order in which they are declared. -/
namespace StellaLang.Syntax

inductive Node where
  | type (node : Located TypeExpr)
  | pattern (node : Located Pattern)
  | expr (node : Located Expr)
  | decl (node : Located Decl)
  | program (node : Located Program)

namespace Node

/-- The name of the construct at the root. -/
def form : Node → String
  | type t => t.node.form
  | pattern p => p.node.form
  | expr e => e.node.form
  | decl d => d.node.form
  | program p => p.node.form

def position : Node → Option Position
  | type t => t.position
  | pattern p => p.position
  | expr e => e.position
  | decl d => d.position
  | program p => p.position

/-- Attaches a place to a node that has none; an earlier place stays. -/
def place : Node → Position → Node
  | type t, p => type (t.place p)
  | pattern q, p => pattern (q.place p)
  | expr e, p => expr (e.place p)
  | decl d, p => decl (d.place p)
  | program q, p => program (q.place p)

/-- What `place` logs: nothing if it attaches the place. -/
def placeLog (node : Node) (p : Position) : List Log.Entry :=
  (node.position.map (·.refused p)).toList

def isLeafExpr : Node → Bool
  | expr e => e.node.isLeaf
  | _ => false

/-- Equality of structure. Nodes of different families are never equal. -/
def same : Node → Node → Bool
  | type t, type u => t == u
  | pattern p, pattern q => p == q
  | expr e, expr f => e == f
  | decl d, decl e => d == e
  | program p, program q => p == q
  | _, _ => false

instance : BEq Node := ⟨same⟩

/-- The class of each node: the index of the first node equal to it. -/
def classes (nodes : List Node) : List Nat :=
  nodes.map fun node => nodes.findIdx (· == node)

end Node

namespace TypeExpr

mutual

def postOrder : Located TypeExpr → List Node
  | ⟨t, p⟩ => inside t ++ [.type ⟨t, p⟩]

/-- All nodes strictly inside a type. -/
def inside : TypeExpr → List Node
  | arrow ps r => postOrderAll ps ++ postOrder r
  | forAll _ b => postOrder b
  | recursive _ b => postOrder b
  | sum l r => postOrder l ++ postOrder r
  | tuple ts => postOrderAll ts
  | record fs => postOrderFields fs
  | variant fs => postOrderAlternatives fs
  | list t => postOrder t
  | ref t => postOrder t
  | auto | bool | nat | unit | top | bottom | var _ => []

def postOrderAll : List (Located TypeExpr) → List Node
  | [] => []
  | t :: ts => postOrder t ++ postOrderAll ts

def postOrderFields : List (String × Located TypeExpr) → List Node
  | [] => []
  | (_, t) :: fs => postOrder t ++ postOrderFields fs

def postOrderAlternatives : List (String × Option (Located TypeExpr)) → List Node
  | [] => []
  | (_, none) :: fs => postOrderAlternatives fs
  | (_, some t) :: fs => postOrder t ++ postOrderAlternatives fs

end

def isVar : TypeExpr → Bool
  | var _ => true
  | _ => false

/-- A closed type names nothing, so it means the same everywhere. Bound
variables count as names. -/
def isClosed (t : Located TypeExpr) : Bool :=
  (postOrder t).all fun
    | .type u => !u.node.isVar
    | _ => true

end TypeExpr

namespace Pattern

mutual

def postOrder : Located Pattern → List Node
  | ⟨q, p⟩ => inside q ++ [.pattern ⟨q, p⟩]

/-- All nodes strictly inside a pattern. -/
def inside : Pattern → List Node
  | castAs q t => postOrder q ++ TypeExpr.postOrder t
  | ascribed q t => postOrder q ++ TypeExpr.postOrder t
  | variant _ none => []
  | variant _ (some q) => postOrder q
  | inl q => postOrder q
  | inr q => postOrder q
  | tuple qs => postOrderAll qs
  | record fs => postOrderFields fs
  | list qs => postOrderAll qs
  | cons h t => postOrder h ++ postOrder t
  | succ q => postOrder q
  | bool _ | unit | nat _ | var _ => []

def postOrderAll : List (Located Pattern) → List Node
  | [] => []
  | q :: qs => postOrder q ++ postOrderAll qs

def postOrderFields : List (String × Located Pattern) → List Node
  | [] => []
  | (_, q) :: fs => postOrder q ++ postOrderFields fs

end

end Pattern

namespace Expr

mutual

def postOrder : Located Expr → List Node
  | ⟨e, p⟩ => inside e ++ [.expr ⟨e, p⟩]

/-- All nodes strictly inside an expression. -/
def inside : Expr → List Node
  | sequence a b => postOrder a ++ postOrder b
  | assign a b => postOrder a ++ postOrder b
  | cond a b c => postOrder a ++ postOrder b ++ postOrder c
  | letIn bs e => postOrderBindings bs ++ postOrder e
  | letRec bs e => postOrderBindings bs ++ postOrder e
  | typeAbstraction _ e => postOrder e
  | binary _ a b => postOrder a ++ postOrder b
  | ascribe e t => postOrder e ++ TypeExpr.postOrder t
  | cast e t => postOrder e ++ TypeExpr.postOrder t
  | abstraction ps e => TypeExpr.postOrderFields ps ++ postOrder e
  | variant _ none => []
  | variant _ (some e) => postOrder e
  | matching e cs => postOrder e ++ postOrderBindings cs
  | list es => postOrderAll es
  | unary _ e => postOrder e
  | application e es => postOrder e ++ postOrderAll es
  | typeApplication e ts => postOrder e ++ TypeExpr.postOrderAll ts
  | field e _ => postOrder e
  | component e _ => postOrder e
  | tuple es => postOrderAll es
  | record fs => postOrderFields fs
  | cons a b => postOrder a ++ postOrder b
  | tryCatch e q h => postOrder e ++ Pattern.postOrder q ++ postOrder h
  | tryWith a b => postOrder a ++ postOrder b
  | tryCast e t q a b =>
    postOrder e ++ TypeExpr.postOrder t ++ Pattern.postOrder q ++ postOrder a ++ postOrder b
  | natRec a b c => postOrder a ++ postOrder b ++ postOrder c
  | fold t e => TypeExpr.postOrder t ++ postOrder e
  | unfold t e => TypeExpr.postOrder t ++ postOrder e
  | panic | literal _ | var _ => []

def postOrderAll : List (Located Expr) → List Node
  | [] => []
  | e :: es => postOrder e ++ postOrderAll es

def postOrderFields : List (String × Located Expr) → List Node
  | [] => []
  | (_, e) :: fs => postOrder e ++ postOrderFields fs

def postOrderBindings : List (Located Pattern × Located Expr) → List Node
  | [] => []
  | (q, e) :: bs => Pattern.postOrder q ++ postOrder e ++ postOrderBindings bs

end

end Expr

namespace Decl

mutual

def postOrder : Located Decl → List Node
  | ⟨d, p⟩ => inside d ++ [.decl ⟨d, p⟩]

/-- All nodes strictly inside a declaration. -/
def inside : Decl → List Node
  | function _ _ _ ps r ts ds e =>
    TypeExpr.postOrderFields ps ++ r.elim [] TypeExpr.postOrder ++ TypeExpr.postOrderAll ts ++
      postOrderAll ds ++ Expr.postOrder e
  | typeAlias _ t => TypeExpr.postOrder t
  | exceptionType t => TypeExpr.postOrder t
  | exceptionVariant _ t => TypeExpr.postOrder t

def postOrderAll : List (Located Decl) → List Node
  | [] => []
  | d :: ds => postOrder d ++ postOrderAll ds

end

end Decl

def Program.postOrder (p : Located Program) : List Node :=
  Decl.postOrderAll p.node.decls ++ [.program p]

/-- Every node of a tree, each after the nodes below it. -/
def Node.postOrder : Node → List Node
  | .type t => TypeExpr.postOrder t
  | .pattern p => Pattern.postOrder p
  | .expr e => Expr.postOrder e
  | .decl d => Decl.postOrder d
  | .program p => Program.postOrder p

end StellaLang.Syntax
