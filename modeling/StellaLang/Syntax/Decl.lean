import StellaLang.Syntax.Expr

/-! Declarations, and programs as blocks of them. -/
namespace StellaLang.Syntax

inductive Modifier where
  | inlined
deriving DecidableEq, Repr, Inhabited

def Modifier.text : Modifier → String
  | .inlined => "inline"

inductive Decl where
  /-- A function is generic if it lists type variables, be it none of them. -/
  | function (modifiers : List Modifier) (name : String) (generics : Option (List String))
      (params : List (String × Located TypeExpr)) (result : Option (Located TypeExpr))
      (throws : List (Located TypeExpr)) (locals : List (Located Decl)) (body : Located Expr)
  | typeAlias (name : String) (type : Located TypeExpr)
  | exceptionType (type : Located TypeExpr)
  | exceptionVariant (label : String) (type : Located TypeExpr)

instance : Inhabited Decl := ⟨.typeAlias "" default⟩

namespace Decl

/-- The name of the construct at the root. -/
def form : Decl → String
  | function _ _ none .. => "Fun"
  | function _ _ (some _) .. => "FunGeneric"
  | typeAlias .. => "TypeAlias"
  | exceptionType _ => "ExceptionType"
  | exceptionVariant .. => "ExceptionVariant"

/-- The name the declaration introduces. Exceptions introduce none. -/
def name? : Decl → Option String
  | function _ name .. => some name
  | typeAlias name _ => some name
  | exceptionType _ => none
  | exceptionVariant .. => none

def isFunction : Decl → Bool
  | function .. => true
  | _ => false

mutual

/-- Equality of structure: places take no part in it. -/
def same : Located Decl → Located Decl → Bool
  | ⟨d, _⟩, ⟨e, _⟩ => sameNode d e
termination_by structural x => x

def sameNode : Decl → Decl → Bool
  | function as f gs ps r ts ds b, function as' f' gs' ps' r' ts' ds' b' =>
    as == as' && f == f' && gs == gs' && ps == ps' && r == r' && ts == ts' &&
      sameAll ds ds' && b == b'
  | typeAlias x t, typeAlias y u => x == y && t == u
  | exceptionType t, exceptionType u => t == u
  | exceptionVariant l t, exceptionVariant m u => l == m && t == u
  | _, _ => false
termination_by structural x => x

def sameAll : List (Located Decl) → List (Located Decl) → Bool
  | [], [] => true
  | d :: ds, e :: es => same d e && sameAll ds es
  | _, _ => false
termination_by structural x => x

end

instance : BEq (Located Decl) := ⟨same⟩

end Decl

structure Program where
  /-- The extensions asked for, one list for each line that asks. -/
  extensions : List (List String)
  decls : List (Located Decl)
deriving Inhabited

namespace Program

/-- The name of the construct at the root. -/
def form (_ : Program) : String := "Module"

/-- Equality of structure: places take no part in it. -/
def same (p q : Located Program) : Bool :=
  p.node.extensions == q.node.extensions && p.node.decls == q.node.decls

instance : BEq (Located Program) := ⟨same⟩

/-- The name of an extension without the signs that mark it. -/
def bareExtension (name : String) : String :=
  .ofList (name.toList.dropWhile (· == '#'))

/-- Whether the program asks for an extension, marked or not. -/
def hasExtension (p : Program) (name : String) : Bool :=
  p.extensions.flatten.any fun asked => bareExtension asked == bareExtension name

end Program

end StellaLang.Syntax
