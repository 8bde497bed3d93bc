import StellaLang.Syntax.Decl
import StellaLang.Typing.Synthesis

/-! Blocks of declarations: a program, or the locals of a function. Type aliases and
exceptions come first, then the signatures of all functions, so that functions may
refer to each other in any order; then the functions themselves. -/
namespace StellaLang.Typing

open Syntax (Decl Expr TypeExpr)

def declTopic : String := "stella_typecheck::check::decl"

/-- The result that a function declares; without one it is `Unit`. -/
def declaredResult (ctx : Context) : Option (Located TypeExpr) → Check Ty
  | some t => meaning ctx t
  | none => return .unit

/-- The type of a function by its declaration. -/
def signature (ctx : Context) (generics : Option (List String))
    (params : List (String × Located TypeExpr)) (result : Option (Located TypeExpr)) :
    Check Ty := do
  let inner := match generics with
    | none => ctx
    | some xs => ctx.push.bindTypeVars xs
  let ts ← meanings inner (params.map (·.2))
  let r ← declaredResult inner result
  return match generics with
    | none => .arrow ts r
    | some xs => .forAll xs (.arrow ts r)

/-- The context with one more declaration in it. -/
def declare (ctx : Context) : Decl → Check Context
  | .function _ f generics params result .. =>
    return ctx.bind f (← signature ctx generics params result)
  | .typeAlias x t => return { ctx with aliases := (x, ← meaning ctx t) :: ctx.aliases }
  | .exceptionType t => do
    let raised ← meaning ctx t
    if ctx.exceptionType.isSome then
      Check.note .warn declTopic "exception type declared more than once; keeping the last"
    return { ctx with exceptionType := some raised }
  | .exceptionVariant l t =>
    return { ctx with exceptionVariants := ctx.exceptionVariants ++ [(l, some (← meaning ctx t))] }

/-- The context after some declarations, with the names they introduced. A declaration
whose name was introduced before is reported and left out. -/
def declareAll (ctx : Context) (names : List String) :
    List (Located Decl) → Check (Context × List String)
  | [] => return (ctx, names)
  | d :: ds =>
    match d.node.name? with
    | none => do declareAll (← declare ctx d.node) names ds
    | some x => do
      if names.contains x then
        let _ ← Check.report (.duplicateDeclaration x) d.position
        declareAll ctx names ds
      else declareAll (← declare ctx d.node) (x :: names) ds

/-- The context inside a block. Functions and types have names of their own. -/
def declareBlock (ctx : Context) (block : List (Located Decl)) : Check Context := do
  let (ctx, _) ← declareAll ctx [] (block.filter (!·.node.isFunction))
  let (ctx, functions) ← declareAll ctx [] (block.filter (·.node.isFunction))
  Check.note .trace declTopic
    ("collected " ++ toString functions.length ++ " function signatures")
  return ctx

mutual

/-- Checks a function; other declarations have no more to check. -/
def checkDecl (ctx : Context) : Located Decl → Check Unit
  | ⟨d, _⟩ => checkDeclNode ctx d

def checkDeclNode (ctx : Context) : Decl → Check Unit
  | .function _ f generics params result throws locals body => do
    Check.note .debug declTopic ("checking function " ++ f)
    let (ctx, _) ← bindParams (ctx.push.bindTypeVars (generics.getD [])) params
    let _ ← meanings ctx throws
    let r ← declaredResult ctx result
    let ctx ← declareBlock ctx locals
    checkDecls ctx locals
    let t ← synth ctx body
    Check.require ctx t r body.position
  | .typeAlias .. => return
  | .exceptionType _ => return
  | .exceptionVariant .. => return

/-- Checks the functions of a block, until checking halts. -/
def checkDecls (ctx : Context) : List (Located Decl) → Check Unit
  | [] => return
  | d :: ds => Check.guarded () do
    checkDecl ctx d
    checkDecls ctx ds

end

/-- Checks a block; the answer is the context inside it. -/
def checkBlock (ctx : Context) (block : List (Located Decl)) : Check Context := do
  let ctx ← declareBlock ctx block
  checkDecls ctx block
  return ctx

/-- Checks a block that is a whole program: something in it must be called `main`. -/
def checkModule (ctx : Context) (block : List (Located Decl)) : Check Context := do
  let ctx ← checkBlock ctx block
  if (ctx.scope.lookup "main").isNone then
    let _ ← Check.report .missingMain none
  return ctx

end StellaLang.Typing
