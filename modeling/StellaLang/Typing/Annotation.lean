import StellaLang.Syntax.Node
import StellaLang.Syntax.Printer
import StellaLang.Typing.Progress

/-! The meaning of annotations. Names stand for type variables or aliases; an
annotation that names nothing means the same everywhere and is looked up in a
cache. -/
namespace StellaLang.Typing

open Syntax (TypeExpr)

mutual

/-- The meaning of an annotation below the binders `bound`. -/
def resolve (ctx : Context) (bound : List String) : Located TypeExpr → Check Ty
  | ⟨t, position⟩ => resolveNode ctx bound position t

/-- A variable of a binder or of the scope is itself, an alias its meaning. -/
def resolveNode (ctx : Context) (bound : List String) (position : Option Position) :
    TypeExpr → Check Ty
  | .auto => return .unknown
  | .bool => return .bool
  | .nat => return .nat
  | .unit => return .unit
  | .top => return .top
  | .bottom => return .bottom
  | .var x =>
    if bound.contains x || ctx.scope.hasTypeVar x then return .var x
    else match ctx.aliases.lookup x with
      | some t => return t
      | none => Check.report (.undefinedVariable x) position
  | .arrow ps r => return .arrow (← resolveAll ctx bound ps) (← resolve ctx bound r)
  | .forAll xs b => return .forAll xs (← resolve ctx (bound ++ xs) b)
  | .recursive x b => return .recursive x (← resolve ctx (bound ++ [x]) b)
  | .sum l r => return .sum (← resolve ctx bound l) (← resolve ctx bound r)
  | .tuple ts => return .tuple (← resolveAll ctx bound ts)
  | .record fs => return .record (← resolveFields ctx bound fs)
  | .variant fs => return .variant (← resolveAlternatives ctx bound fs)
  | .list t => return .list (← resolve ctx bound t)
  | .ref t => return .ref (← resolve ctx bound t)

def resolveAll (ctx : Context) (bound : List String) : List (Located TypeExpr) → Check (List Ty)
  | [] => return []
  | t :: ts => return (← resolve ctx bound t) :: (← resolveAll ctx bound ts)

def resolveFields (ctx : Context) (bound : List String) :
    List (String × Located TypeExpr) → Check (List (String × Ty))
  | [] => return []
  | (l, t) :: fs => return (l, ← resolve ctx bound t) :: (← resolveFields ctx bound fs)

def resolveAlternatives (ctx : Context) (bound : List String) :
    List (String × Option (Located TypeExpr)) → Check (List (String × Option Ty))
  | [] => return []
  | (l, none) :: fs => return (l, none) :: (← resolveAlternatives ctx bound fs)
  | (l, some t) :: fs =>
    return (l, some (← resolve ctx bound t)) :: (← resolveAlternatives ctx bound fs)

end

/-- Looks an annotation up in the cache; the question is counted. -/
def lookupCache (t : Located TypeExpr) : Check (Option Ty) :=
  modifyGet fun p =>
    let (found, cache) := p.cache.lookup t
    (found, { p with cache })

/-- The meaning of an annotation, from the cache if it is closed and known. -/
def meaning (ctx : Context) (t : Located TypeExpr) : Check Ty := do
  if !TypeExpr.isClosed t then
    resolve ctx [] t
  else match ← lookupCache t with
    | some found =>
      Check.note .trace "stella_typecheck::check::ty"
        ("type cache hit for " ++ TypeExpr.text TypeExpr.loosest t)
      return found
    | none =>
      let resolved ← resolve ctx [] t
      modify fun p => { p with cache := p.cache.put t resolved }
      return resolved

/-- A closed annotation is looked up first, and kept if it was not known. -/
theorem meaning_apply (ctx : Context) (t : Located TypeExpr) (p : Progress) :
    meaning ctx t p =
      if TypeExpr.isClosed t = false then resolve ctx [] t p
      else
        match p.cache.get? t with
        | some found => (found, { p with cache := p.cache.count t }.note .trace
            "stella_typecheck::check::ty"
            ("type cache hit for " ++ TypeExpr.text TypeExpr.loosest t))
        | none =>
          let (resolved, p) := resolve ctx [] t { p with cache := p.cache.count t }
          (resolved, { p with cache := p.cache.put t resolved }) := by
  unfold meaning
  split
  · simp_all
  · rename_i closed
    simp only [lookupCache, Check.bind_apply, modifyGet, MonadStateOf.modifyGet, StateT.modifyGet]
    simp_all
    cases found : p.cache.get? t with
    | none => simp [Memo.lookup, found]; rfl
    | some found => simp [Memo.lookup, found]; rfl

def meanings (ctx : Context) : List (Located TypeExpr) → Check (List Ty)
  | [] => return []
  | t :: ts => return (← meaning ctx t) :: (← meanings ctx ts)

end StellaLang.Typing
