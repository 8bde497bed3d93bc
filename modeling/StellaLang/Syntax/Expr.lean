import StellaLang.Syntax.Operator
import StellaLang.Syntax.Pattern

/-! Expressions. -/
namespace StellaLang.Syntax

inductive Literal where
  | bool (value : Bool)
  | unit
  | nat (value : Nat)
  /-- A cell of memory, as a running program shows it. -/
  | address (value : Nat)
deriving DecidableEq, Repr, Inhabited

inductive Expr where
  | sequence (first second : Located Expr)
  | assign (target value : Located Expr)
  | cond (condition thenBranch elseBranch : Located Expr)
  /-- Each binding sees the ones before it. -/
  | letIn (bindings : List (Located Pattern × Located Expr)) (body : Located Expr)
  /-- Each binding sees all of them. -/
  | letRec (bindings : List (Located Pattern × Located Expr)) (body : Located Expr)
  | typeAbstraction (vars : List String) (body : Located Expr)
  | binary (op : BinaryOp) (left right : Located Expr)
  | ascribe (expr : Located Expr) (type : Located TypeExpr)
  | cast (expr : Located Expr) (type : Located TypeExpr)
  | abstraction (params : List (String × Located TypeExpr)) (body : Located Expr)
  | variant (label : String) (payload : Option (Located Expr))
  | matching (scrutinee : Located Expr) (cases : List (Located Pattern × Located Expr))
  | list (elements : List (Located Expr))
  | unary (op : UnaryOp) (operand : Located Expr)
  | application (function : Located Expr) (args : List (Located Expr))
  | typeApplication (function : Located Expr) (types : List (Located TypeExpr))
  | field (record : Located Expr) (label : String)
  /-- Components count from one. -/
  | component (tuple : Located Expr) (index : Nat)
  | tuple (elements : List (Located Expr))
  | record (fields : List (String × Located Expr))
  | cons (head tail : Located Expr)
  | panic
  | tryCatch (body : Located Expr) (pattern : Located Pattern) (handler : Located Expr)
  | tryWith (body fallback : Located Expr)
  | tryCast (expr : Located Expr) (type : Located TypeExpr) (pattern : Located Pattern)
      (success failure : Located Expr)
  | natRec (count initial step : Located Expr)
  | fold (type : Located TypeExpr) (expr : Located Expr)
  | unfold (type : Located TypeExpr) (expr : Located Expr)
  | literal (value : Literal)
  | var (name : String)

instance : Inhabited Expr := ⟨.panic⟩

namespace Expr

/-- The name of the construct at the root. -/
def form : Expr → String
  | sequence .. => "Sequence"
  | assign .. => "Assign"
  | cond .. => "If"
  | letIn .. => "Let"
  | letRec .. => "LetRec"
  | typeAbstraction .. => "TypeAbstraction"
  | binary .. => "Binary"
  | ascribe .. => "TypeAsc"
  | cast .. => "TypeCast"
  | abstraction .. => "Abstraction"
  | variant .. => "Variant"
  | matching .. => "Match"
  | list _ => "List"
  | unary op _ => op.form
  | application .. => "Application"
  | typeApplication .. => "TypeApplication"
  | field .. => "DotRecord"
  | component .. => "DotTuple"
  | tuple _ => "Tuple"
  | record _ => "Record"
  | cons .. => "ConsList"
  | panic => "Panic"
  | tryCatch .. => "TryCatch"
  | tryWith .. => "TryWith"
  | tryCast .. => "TryCastAs"
  | natRec .. => "NatRec"
  | fold .. => "Fold"
  | unfold .. => "Unfold"
  | literal (.bool true) => "ConstTrue"
  | literal (.bool false) => "ConstFalse"
  | literal .unit => "ConstUnit"
  | literal (.nat _) => "ConstInt"
  | literal (.address _) => "ConstMemory"
  | var _ => "Var"

/-- The forms that can have no parts. A list, tuple or record without parts is no leaf. -/
def isLeaf : Expr → Bool
  | literal _ | var _ | panic => true
  | _ => false

mutual

/-- Equality of structure: places take no part in it. -/
def same : Located Expr → Located Expr → Bool
  | ⟨e, _⟩, ⟨f, _⟩ => sameNode e f
termination_by structural x => x

def sameNode : Expr → Expr → Bool
  | sequence a b, sequence c d => same a c && same b d
  | assign a b, assign c d => same a c && same b d
  | cond a b c, cond a' b' c' => same a a' && same b b' && same c c'
  | letIn bs e, letIn bs' e' => sameBindings bs bs' && same e e'
  | letRec bs e, letRec bs' e' => sameBindings bs bs' && same e e'
  | typeAbstraction xs e, typeAbstraction ys f => xs == ys && same e f
  | binary op a b, binary op' c d => op == op' && same a c && same b d
  | ascribe e t, ascribe f u => same e f && t == u
  | cast e t, cast f u => same e f && t == u
  | abstraction ps e, abstraction qs f => ps == qs && same e f
  | variant l none, variant m none => l == m
  | variant l (some e), variant m (some f) => l == m && same e f
  | matching e cs, matching f ds => same e f && sameBindings cs ds
  | list es, list fs => sameAll es fs
  | unary op e, unary op' f => op == op' && same e f
  | application e es, application f fs => same e f && sameAll es fs
  | typeApplication e ts, typeApplication f us => same e f && ts == us
  | field e l, field f m => same e f && l == m
  | component e i, component f j => same e f && i == j
  | tuple es, tuple fs => sameAll es fs
  | record fs, record gs => sameFields fs gs
  | cons h t, cons h' t' => same h h' && same t t'
  | panic, panic => true
  | tryCatch e p h, tryCatch e' p' h' => same e e' && p == p' && same h h'
  | tryWith a b, tryWith c d => same a c && same b d
  | tryCast e t p a b, tryCast e' t' p' a' b' =>
    same e e' && t == t' && p == p' && same a a' && same b b'
  | natRec a b c, natRec a' b' c' => same a a' && same b b' && same c c'
  | fold t e, fold u f => t == u && same e f
  | unfold t e, unfold u f => t == u && same e f
  | literal a, literal b => a == b
  | var x, var y => x == y
  | _, _ => false
termination_by structural x => x

def sameAll : List (Located Expr) → List (Located Expr) → Bool
  | [], [] => true
  | e :: es, f :: fs => same e f && sameAll es fs
  | _, _ => false
termination_by structural x => x

def sameFields : List (String × Located Expr) → List (String × Located Expr) → Bool
  | [], [] => true
  | (l, e) :: fs, (m, f) :: gs => l == m && same e f && sameFields fs gs
  | _, _ => false
termination_by structural x => x

def sameBindings :
    List (Located Pattern × Located Expr) → List (Located Pattern × Located Expr) → Bool
  | [], [] => true
  | (p, e) :: bs, (q, f) :: cs => p == q && same e f && sameBindings bs cs
  | _, _ => false
termination_by structural x => x

end

instance : BEq (Located Expr) := ⟨same⟩

end Expr

end StellaLang.Syntax
