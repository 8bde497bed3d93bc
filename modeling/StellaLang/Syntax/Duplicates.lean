import StellaLang.Memo
import StellaLang.Syntax.Node

/-! Expressions that a program repeats. Leaves are left out: repeating a name or a
literal is no finding. -/
namespace StellaLang.Syntax

structure Duplicate where
  /-- The first occurrence in post-order. -/
  expr : Located Expr
  /-- How often equal expressions occur. -/
  count : Nat

namespace Program

/-- The expressions of a program that are no leaves, in post-order. -/
def compoundExprs (p : Located Program) : List (Located Expr) :=
  (postOrder p).filterMap fun
    | .expr e => if e.node.isLeaf then none else some e
    | _ => none

end Program

namespace Duplicate

/-- How often each expression occurs, by first occurrence. -/
def tally (exprs : List (Located Expr)) : Memo (Located Expr) Nat :=
  exprs.foldl (fun memo e => memo.put e ((memo.get? e).getD 0 + 1)) {}

/-- The repeated expressions of a program, by first occurrence, so that smaller
ones come before those they are part of. -/
def find (p : Located Program) : List Duplicate :=
  ((tally (Program.compoundExprs p)).entries.filter fun entry => 1 < entry.2).map fun entry =>
    ⟨entry.1, entry.2⟩

/-- What `find` logs. -/
def findLog (p : Located Program) : List Log.Entry :=
  [{ level := .debug
     topic := "stella_syntax::memo"
     text := toString (tally (Program.compoundExprs p)).size ++ " distinct non-leaf expressions, " ++
      toString (find p).length ++ " duplicated" }]

end Duplicate

end StellaLang.Syntax
