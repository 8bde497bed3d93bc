import StellaLang.Typing.Block

/-! The checker as its users see it: a value that holds the declared names, the mode and
the progress, and steps that answer a question and give the next checker. The scope
of variables belongs to the user. -/
namespace StellaLang.Typing

open Syntax (Decl Expr Pattern Program TypeExpr)

structure Checker where
  environment : Environment := {}
  progress : Progress := {}

namespace Checker

def new (limits : Limits) : Checker where
  progress := { limits }

/-- The errors reported and not yet taken by `check`. -/
def errors (c : Checker) : List TypeError :=
  c.progress.errors

def cacheStats (c : Checker) : Memo.Stats :=
  c.progress.cache.stats

def setSubtyping (c : Checker) (subtyping : Bool) : Checker :=
  { c with environment.subtyping := subtyping }

/-- The context that the checker makes of a scope. -/
def within (c : Checker) (scope : Scope) : Context where
  toEnvironment := c.environment
  scope := scope

/-- Takes a step that leaves the environment as it is. -/
def step (c : Checker) (check : Check α) : α × Checker :=
  let (answer, progress) := check c.progress
  (answer, { c with progress })

/-- The type of an expression. -/
def synth (c : Checker) (scope : Scope) (e : Located Expr) : Ty × Checker :=
  c.step (Typing.synth (c.within scope) e)

/-- The meaning of an annotation. -/
def resolve (c : Checker) (scope : Scope) (t : Located TypeExpr) : Ty × Checker :=
  c.step (meaning (c.within scope) t)

/-- The variables of a pattern for values of a type. The pattern itself is looked at
even if checking has halted, its parts are not. -/
def bindings (c : Checker) (scope : Scope) (t : Ty) (p : Located Pattern) : Bindings × Checker :=
  c.step (bindingsNode (c.within scope) t p.position p.node)

/-- Checks a block of declarations, which stay known to the checker and the scope. -/
def declare (c : Checker) (scope : Scope) (block : List (Located Decl)) : Scope × Checker :=
  let (context, progress) := checkBlock (c.within scope) block c.progress
  (context.scope, ⟨context.toEnvironment, progress⟩)

/-- The extension that turns structural subtyping on. -/
def subtypingExtension : String := "structural-subtyping"

/-- The step that checks a program in a scope of its own, in the mode it asks for. -/
def checking (c : Checker) (program : Located Program) : Check Context := do
  let subtyping := program.node.hasExtension subtypingExtension
  if subtyping then
    Check.note .debug "stella_typecheck::check::program" "structural subtyping enabled"
  checkModule ((c.setSubtyping subtyping).within {}) program.node.decls

/-- Checks a program. The answer is all errors reported and not taken before; the checker
keeps none of them, but stays halted if it halted. -/
def check (c : Checker) (program : Located Program) : List TypeError × Checker :=
  let (context, progress) := c.checking program c.progress
  let summary := "checked " ++ toString program.node.decls.length ++ " declarations: " ++
    toString progress.errors.length ++ " errors"
  (progress.errors,
    { environment := context.toEnvironment
      progress := { progress with errors := [] }.note .info "stella_typecheck::check" summary })

end Checker

/-- The errors of a program, found by a new checker without limits. -/
def checkProgram (program : Located Program) : List TypeError :=
  (Checker.new {}).check program |>.1

end StellaLang.Typing
