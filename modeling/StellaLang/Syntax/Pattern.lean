import StellaLang.Syntax.TypeExpr

/-! Patterns, which take a value apart and bind variables to its parts. -/
namespace StellaLang.Syntax

inductive Pattern where
  /-- Matches only if the value can be cast to the type. -/
  | castAs (pattern : Located Pattern) (type : Located TypeExpr)
  | ascribed (pattern : Located Pattern) (type : Located TypeExpr)
  | variant (label : String) (payload : Option (Located Pattern))
  | inl (pattern : Located Pattern)
  | inr (pattern : Located Pattern)
  | tuple (elements : List (Located Pattern))
  | record (fields : List (String × Located Pattern))
  | list (elements : List (Located Pattern))
  | cons (head tail : Located Pattern)
  | bool (value : Bool)
  | unit
  | nat (value : Nat)
  | succ (pattern : Located Pattern)
  | var (name : String)

instance : Inhabited Pattern := ⟨.unit⟩

namespace Pattern

/-- The name of the construct at the root. -/
def form : Pattern → String
  | castAs .. => "CastAs"
  | ascribed .. => "Asc"
  | variant .. => "Variant"
  | inl _ => "Inl"
  | inr _ => "Inr"
  | tuple _ => "Tuple"
  | record _ => "Record"
  | list _ => "List"
  | cons .. => "Cons"
  | bool false => "False"
  | bool true => "True"
  | unit => "Unit"
  | nat _ => "Int"
  | succ _ => "Succ"
  | var _ => "Var"

mutual

/-- Equality of structure: places take no part in it. -/
def same : Located Pattern → Located Pattern → Bool
  | ⟨p, _⟩, ⟨q, _⟩ => sameNode p q
termination_by structural x => x

def sameNode : Pattern → Pattern → Bool
  | castAs p t, castAs q u => same p q && t == u
  | ascribed p t, ascribed q u => same p q && t == u
  | variant l none, variant m none => l == m
  | variant l (some p), variant m (some q) => l == m && same p q
  | inl p, inl q => same p q
  | inr p, inr q => same p q
  | tuple ps, tuple qs => sameAll ps qs
  | record fs, record gs => sameFields fs gs
  | list ps, list qs => sameAll ps qs
  | cons h t, cons h' t' => same h h' && same t t'
  | bool a, bool b => a == b
  | unit, unit => true
  | nat m, nat n => m == n
  | succ p, succ q => same p q
  | var x, var y => x == y
  | _, _ => false
termination_by structural x => x

def sameAll : List (Located Pattern) → List (Located Pattern) → Bool
  | [], [] => true
  | p :: ps, q :: qs => same p q && sameAll ps qs
  | _, _ => false
termination_by structural x => x

def sameFields : List (String × Located Pattern) → List (String × Located Pattern) → Bool
  | [], [] => true
  | (l, p) :: fs, (m, q) :: gs => l == m && same p q && sameFields fs gs
  | _, _ => false
termination_by structural x => x

end

instance : BEq (Located Pattern) := ⟨same⟩

end Pattern

end StellaLang.Syntax
