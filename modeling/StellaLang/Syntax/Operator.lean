/-! Operators of expressions, their written form and how tightly they bind. -/
namespace StellaLang.Syntax

inductive BinaryOp where
  | add
  | subtract
  | multiply
  | divide
  | or
  | and
  | less
  | lessOrEqual
  | greater
  | greaterOrEqual
  | equal
  | notEqual
deriving DecidableEq, Repr, Inhabited

namespace BinaryOp

def text : BinaryOp → String
  | add => "+"
  | subtract => "-"
  | multiply => "*"
  | divide => "/"
  | or => "or"
  | and => "and"
  | less => "<"
  | lessOrEqual => "<="
  | greater => ">"
  | greaterOrEqual => ">="
  | equal => "=="
  | notEqual => "!="

def isComparison : BinaryOp → Bool
  | less | lessOrEqual | greater | greaterOrEqual | equal | notEqual => true
  | _ => false

def isLogical : BinaryOp → Bool
  | and | or => true
  | _ => false

/-- A larger number binds tighter. Every operator groups to the left. -/
def precedence : BinaryOp → Nat
  | add | subtract | or => 2
  | multiply | divide | and => 3
  | _ => 1

end BinaryOp

/-- Built-in operations on one operand. -/
inductive UnaryOp where
  /-- Allocates a reference cell. -/
  | ref
  | deref
  | head
  | isEmpty
  | tail
  | throw
  | inl
  | inr
  | succ
  | not
  | pred
  | isZero
  | fix
deriving DecidableEq, Repr, Inhabited

namespace UnaryOp

/-- The word before the operand. `deref` alone is a sign and not a word. -/
def text : UnaryOp → String
  | ref => "new"
  | deref => "*"
  | head => "List::head"
  | isEmpty => "List::isempty"
  | tail => "List::tail"
  | throw => "throw"
  | inl => "inl"
  | inr => "inr"
  | succ => "succ"
  | not => "not"
  | pred => "Nat::pred"
  | isZero => "Nat::iszero"
  | fix => "fix"

/-- The name of the construct. -/
def form : UnaryOp → String
  | ref => "Ref"
  | deref => "Deref"
  | head => "Head"
  | isEmpty => "IsEmpty"
  | tail => "Tail"
  | throw => "Throw"
  | inl => "Inl"
  | inr => "Inr"
  | succ => "Succ"
  | not => "LogicNot"
  | pred => "Pred"
  | isZero => "IsZero"
  | fix => "Fix"

end UnaryOp

end StellaLang.Syntax
