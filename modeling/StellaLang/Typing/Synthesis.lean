import StellaLang.Coverage
import StellaLang.Syntax.Expr
import StellaLang.Typing.Binding

/-! The types of expressions. Each expression has a type found from its parts; parts of
it that the expression leaves open are unknown and are filled in where the type
meets an expected one. A faulty expression has the type `error` and its neighbours
are checked nonetheless. -/
namespace StellaLang.Typing

open Syntax (BinaryOp Expr Literal Pattern TypeExpr UnaryOp)

def literalType : Literal → Ty
  | .bool _ => .bool
  | .unit => .unit
  | .nat _ => .nat
  | .address _ => .ref .unknown

/-- What taking apart a value gives if nothing but a wildcard is known of it, and
else the report that it cannot be taken apart. -/
def eliminate (found : Ty) (fault : Ty → Fault) (position : Option Position) : Check Ty :=
  if found.isError then return .error
  else if found.isWildcard then return .unknown
  else Check.report (fault found) position

/-- The type of an operation on one operand, from the type of the operand. Faults stand
at the operand; only a `throw` that nothing allows stands at the operation. -/
def unaryType (ctx : Context) (operation operand : Option Position) : UnaryOp → Ty → Check Ty
  | .ref, t => return .ref t
  | .deref, .ref t => return t
  | .deref, t => eliminate t .notAReference operand
  | .head, .list t => return t
  | .head, t => eliminate t .notAList operand
  | .tail, .list t => return .list t
  | .tail, t => eliminate t .notAList operand
  | .isEmpty, .list _ => return .bool
  | .isEmpty, t => do
    let _ ← eliminate t .notAList operand
    return .bool
  | .inl, t => return .sum t .unknown
  | .inr, t => return .sum .unknown t
  | .succ, t => do
    Check.require ctx t .nat operand
    return .nat
  | .pred, t => do
    Check.require ctx t .nat operand
    return .nat
  | .isZero, t => do
    Check.require ctx t .nat operand
    return .bool
  | .not, t => do
    Check.require ctx t .bool operand
    return .bool
  | .fix, .arrow [p] r =>
    if ctx.conforms r p then return p.merge r
    else Check.report (.mismatch (.arrow [p] p) (.arrow [p] r)) operand
  | .fix, t => eliminate t .notAFunction operand
  | .throw, t => do
    match ctx.exception? with
    | some exception => Check.require ctx t exception operand
    | none =>
      let _ ← Check.report .exceptionTypeNotDeclared operation
    return .never

/-- The types of the operands of an operator, if it asks for certain ones, and the type
of its result. -/
def operandType? : BinaryOp → Option Ty × Ty
  | .add | .subtract | .multiply | .divide => (some .nat, .nat)
  | .and | .or => (some .bool, .bool)
  | .less | .lessOrEqual | .greater | .greaterOrEqual => (some .nat, .bool)
  | .equal | .notEqual => (none, .bool)

/-- The declared types of recursive bindings. Each pattern must be an ascription; its
variables are in scope from then on, also in the bindings before it. -/
def declareRecursive (ctx : Context) :
    List (Located Pattern × Located Expr) → Check (Context × List Ty)
  | [] => return (ctx, [])
  | (⟨.ascribed p type, _⟩, _) :: rest => do
    let t ← meaning ctx type
    let (ctx, ts) ← declareRecursive (ctx.bindAll (← bindings ctx t p)) rest
    return (ctx, t :: ts)
  | (⟨_, position⟩, _) :: rest => do
    let t ← Check.report .ambiguousType position
    let (ctx, ts) ← declareRecursive ctx rest
    return (ctx, t :: ts)

/-- The parameters of a function, each in scope from then on. -/
def bindParams (ctx : Context) : List (String × Located TypeExpr) → Check (Context × List Ty)
  | [] => return (ctx, [])
  | (x, type) :: rest => do
    let t ← meaning ctx type
    let (ctx, ts) ← bindParams (ctx.bind x t) rest
    return (ctx, t :: ts)

mutual

/-- The type of an expression; `error` once checking has halted. -/
def synth (ctx : Context) : Located Expr → Check Ty
  | ⟨e, position⟩ => Check.guarded .error do
    let t ← synthNode ctx position e
    Check.judge ctx ⟨e, position⟩ t
    return t

def synthNode (ctx : Context) (position : Option Position) : Expr → Check Ty
  | .sequence a b => do
    let t ← synth ctx a
    Check.require ctx t .unit a.position
    synth ctx b
  | .assign target value => do
    match ← synth ctx target with
    | .ref referent =>
      let t ← synth ctx value
      Check.require ctx t referent value.position
    | t =>
      let _ ← synth ctx value
      unless t.isWildcard do
        let _ ← Check.report (.notAReference t) target.position
    return .unit
  | .cond condition a b => do
    let t ← synth ctx condition
    Check.require ctx t .bool condition.position
    let first ← synth ctx a
    let second ← synth ctx b
    Check.join ctx first second b.position
  | .letIn bs body => do
    let ctx ← synthBindings ctx.push bs
    synth ctx body
  | .letRec bs body => do
    let (ctx, ts) ← declareRecursive ctx.push bs
    expectBindings ctx ts bs
    synth ctx body
  | .typeAbstraction xs body => return .forAll xs (← synth (ctx.push.bindTypeVars xs) body)
  | .binary op a b => do
    let first ← synth ctx a
    match operandType? op with
    | (some operand, result) =>
      Check.require ctx first operand a.position
      let second ← synth ctx b
      Check.require ctx second operand b.position
      return result
    | (none, result) =>
      let second ← synth ctx b
      let _ ← Check.join ctx first second b.position
      return result
  | .ascribe e type => do
    let ascribed ← meaning ctx type
    let t ← synth ctx e
    Check.require ctx t ascribed e.position
    return ascribed
  | .cast e type => do
    let target ← meaning ctx type
    let t ← synth ctx e
    unless t.castableTo target do
      let _ ← Check.report (.illegalCast t target) position
    return target
  | .abstraction params body => do
    let (ctx, ts) ← bindParams ctx.push params
    return .arrow ts (← synth ctx body)
  | .variant l none => return .variant [(l, none)]
  | .variant l (some e) => return .variant [(l, some (← synth ctx e))]
  | .matching e cases => do
    let scrutinee ← synth ctx e
    if cases.isEmpty then Check.report .emptyMatch position
    else
      let result ← joinCases ctx scrutinee .unknown cases
      let missing := Coverage.missing scrutinee (cases.map (·.1))
      unless missing.isEmpty do
        let _ ← Check.report (.nonExhaustiveMatch (missing.map (·.text))) position
      return result
  | .list es => return .list (← joinAll ctx .unknown es)
  | .unary op e => do
    let t ← synth ctx e
    unaryType ctx position e.position op t
  | .application f args => do
    match ← synth ctx f with
    | .arrow params result =>
      if params.length = args.length then
        expectEach ctx params args
      else
        let _ ← synthAll ctx args
        let _ ← Check.report (.wrongArgCount params.length args.length) f.position
      return result
    | t =>
      let _ ← synthAll ctx args
      eliminate t .notAFunction f.position
  | .typeApplication f types => do
    let t ← synth ctx f
    let args ← meanings ctx types
    match t with
    | .forAll xs body =>
      if xs.length = args.length then return Ty.instantiate xs body args
      else Check.report (.wrongTypeArgCount xs.length args.length) f.position
    | t => eliminate t .notAGeneric f.position
  | .field e l => do
    match ← synth ctx e with
    | .record fs =>
      match fs.lookup l with
      | some t => return t
      | none => Check.report (.missingRecordField l (.record fs)) position
    | t => eliminate t .notARecord e.position
  | .component e index => do
    match ← synth ctx e with
    | .tuple ts =>
      match index with
      | 0 => Check.report (.tupleIndexOutOfBounds 0 ts.length) position
      | i + 1 =>
        match ts[i]? with
        | some t => return t
        | none => Check.report (.tupleIndexOutOfBounds index ts.length) position
    | t => eliminate t .notATuple e.position
  | .tuple es => return .tuple (← synthAll ctx es)
  | .record fs => return .record (← synthFields ctx fs)
  | .cons h tail => do
    let list := .list (← synth ctx h)
    let t ← synth ctx tail
    Check.require ctx t list tail.position
    return list.merge t
  | .panic => return .never
  | .tryCatch body p handler => do
    let first ← synth ctx body
    let exception ← match ctx.exception? with
      | some t => pure t
      | none => Check.report .exceptionTypeNotDeclared position
    let bound ← bindings ctx.push exception p
    let second ← synth (ctx.push.bindAll bound) handler
    Check.join ctx first second handler.position
  | .tryWith body fallback => do
    let first ← synth ctx body
    let second ← synth ctx fallback
    Check.join ctx first second fallback.position
  | .tryCast e type p success failure => do
    let _ ← synth ctx e
    let target ← meaning ctx type
    let bound ← bindings ctx.push target p
    let first ← synth (ctx.push.bindAll bound) success
    let second ← synth ctx failure
    Check.join ctx first second failure.position
  | .natRec count initial step => do
    let t ← synth ctx count
    Check.require ctx t .nat count.position
    let result ← synth ctx initial
    let t ← synth ctx step
    Check.require ctx t (.arrow [.nat] (.arrow [result] result)) step.position
    return result
  | .fold type e => do
    let target ← meaning ctx type
    let t ← synth ctx e
    match target with
    | .recursive .. =>
      Check.require ctx t target.unfold e.position
      return target
    | _ =>
      if target.isWildcard then return target
      else Check.report (.notARecursiveType target) position
  | .unfold type e => do
    let target ← meaning ctx type
    let t ← synth ctx e
    match target with
    | .recursive .. =>
      Check.require ctx t target e.position
      return target.unfold
    | _ =>
      if target.isWildcard then return target
      else Check.report (.notARecursiveType target) position
  | .literal l => return literalType l
  | .var x =>
    match ctx.scope.lookup x with
    | some t => return t
    | none => Check.report (.undefinedVariable x) position

def synthAll (ctx : Context) : List (Located Expr) → Check (List Ty)
  | [] => return []
  | e :: es => return (← synth ctx e) :: (← synthAll ctx es)

def synthFields (ctx : Context) : List (String × Located Expr) → Check (List (String × Ty))
  | [] => return []
  | (l, e) :: fs => return (l, ← synth ctx e) :: (← synthFields ctx fs)

/-- Each expression against its own expected type. -/
def expectEach (ctx : Context) (expected : List Ty) : List (Located Expr) → Check Unit
  | [] => return
  | e :: es =>
    match expected with
    | [] => return
    | u :: us => do
      let t ← synth ctx e
      Check.require ctx t u e.position
      expectEach ctx us es

/-- The common type of the elements of a list, given that of the ones before. -/
def joinAll (ctx : Context) (common : Ty) : List (Located Expr) → Check Ty
  | [] => return common
  | e :: es => do
    let t ← synth ctx e
    joinAll ctx (← Check.join ctx common t e.position) es

/-- The context after some bindings, each of which sees the ones before. -/
def synthBindings (ctx : Context) : List (Located Pattern × Located Expr) → Check Context
  | [] => return ctx
  | (p, e) :: bs => do
    let t ← synth ctx e
    synthBindings (ctx.bindAll (← bindings ctx t p)) bs

/-- The right-hand side of each binding against its declared type. -/
def expectBindings (ctx : Context) (expected : List Ty) :
    List (Located Pattern × Located Expr) → Check Unit
  | [] => return
  | (_, e) :: bs =>
    match expected with
    | [] => return
    | u :: us => do
      let t ← synth ctx e
      Check.require ctx t u e.position
      expectBindings ctx us bs

/-- The common type of the cases of a match, given that of the ones before. -/
def joinCases (ctx : Context) (scrutinee common : Ty) :
    List (Located Pattern × Located Expr) → Check Ty
  | [] => return common
  | (p, e) :: cases => do
    let bound ← bindings ctx.push scrutinee p
    let t ← synth (ctx.push.bindAll bound) e
    joinCases ctx scrutinee (← Check.join ctx common t e.position) cases

end

end StellaLang.Typing
