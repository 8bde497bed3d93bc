import StellaLang.Typing.Block

/-! The checker on one store that every step changes in place: the scope, the tables of what is
declared, the names bound around an annotation and the progress. Nothing is handed down.
What a step enters it leaves again: a frame is pushed and popped, names are added and cut
off at a mark, and tables are saved and written back.

`Check` instead hands a context down, where nothing can leak. The two agree, so what is
restored here by hand is restored everywhere. -/
namespace StellaLang.Typing.InPlace

open Syntax (Decl Expr Pattern TypeExpr)

structure Store where
  context : Context := {}
  /-- The names bound around the annotation that is being read, the outermost first. -/
  binders : List String := []
  progress : Progress := {}

/-- A step of checking that changes the store. -/
abbrev Step := StateM Store

namespace Step

theorem bind_apply (x : Step α) (f : α → Step β) (s : Store) :
    (x >>= f) s = f (x s).1 (x s).2 := rfl

/-- A step that only reads what is declared. -/
def look (x : Context → Check α) : Step α := fun s =>
  ((x s.context s.progress).1, { s with progress := (x s.context s.progress).2 })

/-- Changes what is declared. -/
def change (f : Context → Context) : Step Unit :=
  modify fun s => { s with context := f s.context }

def guarded (skipped : α) (x : Step α) : Step α := do
  if (← get).progress.halted then return skipped else x

def note (level : Log.Level) (topic text : String) : Step Unit :=
  look fun _ => Check.note level topic text

def report (fault : Fault) (position : Option Position) : Step Ty :=
  look fun _ => Check.report fault position

def require (t u : Ty) (position : Option Position) : Step Unit :=
  look fun ctx => Check.require ctx t u position

def join (t u : Ty) (position : Option Position) : Step Ty :=
  look fun ctx => Check.join ctx t u position

def exception? : Step (Option Ty) :=
  look fun ctx => return ctx.exception?

/-- The context after its current frame is left. -/
def leave (ctx : Context) : Context :=
  { ctx with scope := ctx.scope.pop }

/-- Enters a frame and leaves it again. -/
def framed (x : Step α) : Step α := do
  change Context.push
  let a ← x
  change leave
  return a

/-- Adds names and cuts them off at the length there was. -/
def under (xs : List String) (x : Step α) : Step α := do
  let mark := (← get).binders.length
  modify fun s => { s with binders := s.binders ++ xs }
  let a ← x
  modify fun s => { s with binders := s.binders.take mark }
  return a

/-- Aliases and exceptions declared meanwhile end here: two tables are saved and written back,
the exception variants are cut off at the number there was. -/
def confined (x : Step α) : Step α := do
  let saved := (← get).context
  let a ← x
  change fun ctx =>
    { ctx with
      aliases := saved.aliases
      exceptionType := saved.exceptionType
      exceptionVariants := ctx.exceptionVariants.take saved.exceptionVariants.length }
  return a

end Step

open Step

section Annotations

mutual

def resolve : Located TypeExpr → Step Ty
  | ⟨t, position⟩ => resolveNode position t

def resolveNode (position : Option Position) : TypeExpr → Step Ty
  | .auto => return .unknown
  | .bool => return .bool
  | .nat => return .nat
  | .unit => return .unit
  | .top => return .top
  | .bottom => return .bottom
  | .var x => do
    let s ← get
    look fun ctx => Typing.resolveNode ctx s.binders position (.var x)
  | .arrow ps r => return .arrow (← resolveAll ps) (← resolve r)
  | .forAll xs b => return .forAll xs (← under xs (resolve b))
  | .recursive x b => return .recursive x (← under [x] (resolve b))
  | .sum l r => return .sum (← resolve l) (← resolve r)
  | .tuple ts => return .tuple (← resolveAll ts)
  | .record fs => return .record (← resolveFields fs)
  | .variant fs => return .variant (← resolveAlternatives fs)
  | .list t => return .list (← resolve t)
  | .ref t => return .ref (← resolve t)

def resolveAll : List (Located TypeExpr) → Step (List Ty)
  | [] => return []
  | t :: ts => return (← resolve t) :: (← resolveAll ts)

def resolveFields : List (String × Located TypeExpr) → Step (List (String × Ty))
  | [] => return []
  | (l, t) :: fs => return (l, ← resolve t) :: (← resolveFields fs)

def resolveAlternatives :
    List (String × Option (Located TypeExpr)) → Step (List (String × Option Ty))
  | [] => return []
  | (l, none) :: fs => return (l, none) :: (← resolveAlternatives fs)
  | (l, some t) :: fs => return (l, some (← resolve t)) :: (← resolveAlternatives fs)

end

def meaning (t : Located TypeExpr) : Step Ty := do
  if !TypeExpr.isClosed t then
    resolve t
  else match ← look fun _ => lookupCache t with
    | some found =>
      note .trace "stella_typecheck::check::ty"
        ("type cache hit for " ++ TypeExpr.text TypeExpr.loosest t)
      return found
    | none =>
      let resolved ← resolve t
      look fun _ => modify fun p => { p with cache := p.cache.put t resolved }
      return resolved

def meanings : List (Located TypeExpr) → Step (List Ty)
  | [] => return []
  | t :: ts => return (← meaning t) :: (← meanings ts)

end Annotations

section Patterns

def unexpectedPattern (t : Ty) (position : Option Position) : Step Bindings :=
  look fun _ => Typing.unexpectedPattern t position

def literalBindings (t expected : Ty) (position : Option Position) : Step Bindings :=
  look fun ctx => Typing.literalBindings ctx t expected position

mutual

def bindings (t : Ty) : Located Pattern → Step Bindings
  | ⟨p, position⟩ => guarded [] (bindingsNode t position p)

def bindingsNode (t : Ty) (position : Option Position) : Pattern → Step Bindings
  | .castAs p type => do
    let target ← meaning type
    unless t.castableTo target do
      let _ ← report (.illegalCast t target) position
    bindings target p
  | .ascribed p type => do
    let ascribed ← meaning type
    require t ascribed position
    bindings ascribed p
  | .variant l payload =>
    match t with
    | .variant fs =>
      match fs.lookup l, payload with
      | none, _ => do
        let _ ← report (.unexpectedVariantLabel l) position
        return []
      | some (some u), some p => bindings u p
      | some none, none => return []
      | _, _ => unexpectedPattern t position
    | _ =>
      if t.isWildcard then
        match payload with
        | some p => bindings t p
        | none => return []
      else do
        let _ ← report (.notAVariant t) position
        return []
  | .inl p =>
    match t with
    | .sum l _ => bindings l p
    | _ => if t.isWildcard then bindings t p else unexpectedPattern t position
  | .inr p =>
    match t with
    | .sum _ r => bindings r p
    | _ => if t.isWildcard then bindings t p else unexpectedPattern t position
  | .tuple ps =>
    match t with
    | .tuple ts =>
      if ts.length = ps.length then bindingsEach ts ps else unexpectedPattern t position
    | _ => if t.isWildcard then bindingsAll t ps else unexpectedPattern t position
  | .record fs =>
    match t with
    | .record gs => bindingsFields gs position fs
    | _ => if t.isWildcard then bindingsFieldsAll t fs else unexpectedPattern t position
  | .list ps =>
    match t with
    | .list u => bindingsAll u ps
    | _ => if t.isWildcard then bindingsAll t ps else unexpectedPattern t position
  | .cons h tail =>
    match t with
    | .list u => return (← bindings u h) ++ (← bindings t tail)
    | _ =>
      if t.isWildcard then return (← bindings t h) ++ (← bindings t tail)
      else unexpectedPattern t position
  | .bool _ => literalBindings t .bool position
  | .unit => literalBindings t .unit position
  | .nat _ => literalBindings t .nat position
  | .succ p => return (← literalBindings t .nat position) ++ (← bindings .nat p)
  | .var x => return [(x, t)]

def bindingsAll (t : Ty) : List (Located Pattern) → Step Bindings
  | [] => return []
  | p :: ps => return (← bindings t p) ++ (← bindingsAll t ps)

def bindingsEach (ts : List Ty) : List (Located Pattern) → Step Bindings
  | [] => return []
  | p :: ps =>
    match ts with
    | [] => return []
    | t :: ts => return (← bindings t p) ++ (← bindingsEach ts ps)

def bindingsFields (gs : List (String × Ty)) (position : Option Position) :
    List (String × Located Pattern) → Step Bindings
  | [] => return []
  | (l, p) :: fs =>
    match gs.lookup l with
    | some t => return (← bindings t p) ++ (← bindingsFields gs position fs)
    | none => do
      let _ ← report (.missingRecordField l (.record gs)) position
      bindingsFields gs position fs

def bindingsFieldsAll (t : Ty) : List (String × Located Pattern) → Step Bindings
  | [] => return []
  | (_, p) :: fs => return (← bindings t p) ++ (← bindingsFieldsAll t fs)

end

end Patterns

section Expressions

def eliminate (found : Ty) (fault : Ty → Fault) (position : Option Position) : Step Ty :=
  look fun _ => Typing.eliminate found fault position

/-- Binds the declared variables as it goes. -/
def declareRecursive : List (Located Pattern × Located Expr) → Step (List Ty)
  | [] => return []
  | (⟨.ascribed p type, _⟩, _) :: rest => do
    let t ← meaning type
    let bound ← bindings t p
    change (·.bindAll bound)
    return t :: (← declareRecursive rest)
  | (⟨_, position⟩, _) :: rest => do
    let t ← report .ambiguousType position
    return t :: (← declareRecursive rest)

/-- Binds the parameters as it goes. -/
def bindParams : List (String × Located TypeExpr) → Step (List Ty)
  | [] => return []
  | (x, type) :: rest => do
    let t ← meaning type
    change (·.bind x t)
    return t :: (← bindParams rest)

mutual

def synth : Located Expr → Step Ty
  | ⟨e, position⟩ => guarded .error do
    let t ← synthNode position e
    look fun ctx => Check.judge ctx ⟨e, position⟩ t
    return t

def synthNode (position : Option Position) : Expr → Step Ty
  | .sequence a b => do
    let t ← synth a
    require t .unit a.position
    synth b
  | .assign target value => do
    match ← synth target with
    | .ref referent =>
      let t ← synth value
      require t referent value.position
    | t =>
      let _ ← synth value
      unless t.isWildcard do
        let _ ← report (.notAReference t) target.position
    return .unit
  | .cond condition a b => do
    let t ← synth condition
    require t .bool condition.position
    let first ← synth a
    let second ← synth b
    join first second b.position
  | .letIn bs body => framed do
    synthBindings bs
    synth body
  | .letRec bs body => framed do
    let ts ← declareRecursive bs
    expectBindings ts bs
    synth body
  | .typeAbstraction xs body => do
    let t ← framed do
      change (·.bindTypeVars xs)
      synth body
    return .forAll xs t
  | .binary op a b => do
    let first ← synth a
    match operandType? op with
    | (some operand, result) =>
      require first operand a.position
      let second ← synth b
      require second operand b.position
      return result
    | (none, result) =>
      let second ← synth b
      let _ ← join first second b.position
      return result
  | .ascribe e type => do
    let ascribed ← meaning type
    let t ← synth e
    require t ascribed e.position
    return ascribed
  | .cast e type => do
    let target ← meaning type
    let t ← synth e
    unless t.castableTo target do
      let _ ← report (.illegalCast t target) position
    return target
  | .abstraction params body => framed do
    let ts ← bindParams params
    return .arrow ts (← synth body)
  | .variant l none => return .variant [(l, none)]
  | .variant l (some e) => return .variant [(l, some (← synth e))]
  | .matching e cases => do
    let scrutinee ← synth e
    if cases.isEmpty then report .emptyMatch position
    else
      let result ← joinCases scrutinee .unknown cases
      let missing := Coverage.missing scrutinee (cases.map (·.1))
      unless missing.isEmpty do
        let _ ← report (.nonExhaustiveMatch (missing.map (·.text))) position
      return result
  | .list es => return .list (← joinAll .unknown es)
  -- The type of exceptions is read before the operand is looked at.
  | .unary .throw e => do
    let raised ← exception?
    let t ← synth e
    match raised with
    | some exception => require t exception e.position
    | none =>
      let _ ← report .exceptionTypeNotDeclared position
    return .never
  | .unary op e => do
    let t ← synth e
    look fun ctx => unaryType ctx position e.position op t
  | .application f args => do
    match ← synth f with
    | .arrow params result =>
      if params.length = args.length then
        expectEach params args
      else
        let _ ← synthAll args
        let _ ← report (.wrongArgCount params.length args.length) f.position
      return result
    | t =>
      let _ ← synthAll args
      eliminate t .notAFunction f.position
  | .typeApplication f types => do
    let t ← synth f
    let args ← meanings types
    match t with
    | .forAll xs body =>
      if xs.length = args.length then return Ty.instantiate xs body args
      else report (.wrongTypeArgCount xs.length args.length) f.position
    | t => eliminate t .notAGeneric f.position
  | .field e l => do
    match ← synth e with
    | .record fs =>
      match fs.lookup l with
      | some t => return t
      | none => report (.missingRecordField l (.record fs)) position
    | t => eliminate t .notARecord e.position
  | .component e index => do
    match ← synth e with
    | .tuple ts =>
      match index with
      | 0 => report (.tupleIndexOutOfBounds 0 ts.length) position
      | i + 1 =>
        match ts[i]? with
        | some t => return t
        | none => report (.tupleIndexOutOfBounds index ts.length) position
    | t => eliminate t .notATuple e.position
  | .tuple es => return .tuple (← synthAll es)
  | .record fs => return .record (← synthFields fs)
  | .cons h tail => do
    let list := .list (← synth h)
    let t ← synth tail
    require t list tail.position
    return list.merge t
  | .panic => return .never
  | .tryCatch body p handler => do
    let first ← synth body
    let exception ← match ← exception? with
      | some t => pure t
      | none => report .exceptionTypeNotDeclared position
    let second ← framed do
      let bound ← bindings exception p
      change (·.bindAll bound)
      synth handler
    join first second handler.position
  | .tryWith body fallback => do
    let first ← synth body
    let second ← synth fallback
    join first second fallback.position
  | .tryCast e type p success failure => do
    let _ ← synth e
    let target ← meaning type
    let first ← framed do
      let bound ← bindings target p
      change (·.bindAll bound)
      synth success
    let second ← synth failure
    join first second failure.position
  | .natRec count initial step => do
    let t ← synth count
    require t .nat count.position
    let result ← synth initial
    let t ← synth step
    require t (.arrow [.nat] (.arrow [result] result)) step.position
    return result
  | .fold type e => do
    let target ← meaning type
    let t ← synth e
    match target with
    | .recursive .. =>
      require t target.unfold e.position
      return target
    | _ =>
      if target.isWildcard then return target
      else report (.notARecursiveType target) position
  | .unfold type e => do
    let target ← meaning type
    let t ← synth e
    match target with
    | .recursive .. =>
      require t target e.position
      return target.unfold
    | _ =>
      if target.isWildcard then return target
      else report (.notARecursiveType target) position
  | .literal l => return literalType l
  | .var x => look fun ctx =>
    match ctx.scope.lookup x with
    | some t => return t
    | none => Check.report (.undefinedVariable x) position

def synthAll : List (Located Expr) → Step (List Ty)
  | [] => return []
  | e :: es => return (← synth e) :: (← synthAll es)

def synthFields : List (String × Located Expr) → Step (List (String × Ty))
  | [] => return []
  | (l, e) :: fs => return (l, ← synth e) :: (← synthFields fs)

def expectEach (expected : List Ty) : List (Located Expr) → Step Unit
  | [] => return
  | e :: es =>
    match expected with
    | [] => return
    | u :: us => do
      let t ← synth e
      require t u e.position
      expectEach us es

def joinAll (common : Ty) : List (Located Expr) → Step Ty
  | [] => return common
  | e :: es => do
    let t ← synth e
    joinAll (← join common t e.position) es

/-- Binds the variables of each pattern before the next binding is looked at. -/
def synthBindings : List (Located Pattern × Located Expr) → Step Unit
  | [] => return
  | (p, e) :: bs => do
    let t ← synth e
    let bound ← bindings t p
    change (·.bindAll bound)
    synthBindings bs

def expectBindings (expected : List Ty) : List (Located Pattern × Located Expr) → Step Unit
  | [] => return
  | (_, e) :: bs =>
    match expected with
    | [] => return
    | u :: us => do
      let t ← synth e
      require t u e.position
      expectBindings us bs

def joinCases (scrutinee common : Ty) : List (Located Pattern × Located Expr) → Step Ty
  | [] => return common
  | (p, e) :: cases => do
    let t ← framed do
      let bound ← bindings scrutinee p
      change (·.bindAll bound)
      synth e
    joinCases scrutinee (← join common t e.position) cases

end

end Expressions

section Declarations

def declaredResult : Option (Located TypeExpr) → Step Ty
  | some t => meaning t
  | none => return .unit

def functionType (params : List (String × Located TypeExpr)) (result : Option (Located TypeExpr)) :
    Step Ty := do
  let ts ← meanings (params.map (·.2))
  return .arrow ts (← declaredResult result)

def signature (generics : Option (List String)) (params : List (String × Located TypeExpr))
    (result : Option (Located TypeExpr)) : Step Ty :=
  match generics with
  | none => functionType params result
  | some xs => do
    let t ← framed do
      change (·.bindTypeVars xs)
      functionType params result
    return .forAll xs t

/-- Enters one more declaration in the tables or the current frame. -/
def declare : Decl → Step Unit
  | .function _ f generics params result .. => do
    let t ← signature generics params result
    change (·.bind f t)
  | .typeAlias x t => do
    let t ← meaning t
    change fun ctx => { ctx with aliases := (x, t) :: ctx.aliases }
  | .exceptionType t => do
    let raised ← meaning t
    let declared ← look fun ctx => return ctx.exceptionType
    if declared.isSome then
      note .warn declTopic "exception type declared more than once; keeping the last"
    change fun ctx => { ctx with exceptionType := some raised }
  | .exceptionVariant l t => do
    let t ← meaning t
    change fun ctx => { ctx with exceptionVariants := ctx.exceptionVariants ++ [(l, some t)] }

def declareAll (names : List String) : List (Located Decl) → Step (List String)
  | [] => return names
  | d :: ds =>
    match d.node.name? with
    | none => do
      declare d.node
      declareAll names ds
    | some x => do
      if names.contains x then
        let _ ← report (.duplicateDeclaration x) d.position
        declareAll names ds
      else
        declare d.node
        declareAll (x :: names) ds

def declareBlock (block : List (Located Decl)) : Step Unit := do
  let _ ← declareAll [] (block.filter (!·.node.isFunction))
  let functions ← declareAll [] (block.filter (·.node.isFunction))
  note .trace declTopic ("collected " ++ toString functions.length ++ " function signatures")

mutual

def checkDecl : Located Decl → Step Unit
  | ⟨d, _⟩ => checkDeclNode d

/-- A function is checked in a frame of its own. What its locals declare ends with the body. -/
def checkDeclNode : Decl → Step Unit
  | .function _ f generics params result throws locals body => do
    note .debug declTopic ("checking function " ++ f)
    framed do
      change (·.bindTypeVars (generics.getD []))
      let _ ← bindParams params
      let _ ← meanings throws
      let r ← declaredResult result
      confined do
        declareBlock locals
        checkDecls locals
        let t ← synth body
        require t r body.position
  | .typeAlias .. => return
  | .exceptionType _ => return
  | .exceptionVariant .. => return

def checkDecls : List (Located Decl) → Step Unit
  | [] => return
  | d :: ds => guarded () do
    checkDecl d
    checkDecls ds

end

def checkBlock (block : List (Located Decl)) : Step Unit := do
  declareBlock block
  checkDecls block

end Declarations

end StellaLang.Typing.InPlace
