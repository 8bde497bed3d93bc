import StellaLang.Position

/-! Types as a program writes them. A name may stand for a type variable or for an
alias, which the text alone does not tell. -/
namespace StellaLang.Syntax

inductive TypeExpr where
  /-- Left for the checker to find. -/
  | auto
  | bool
  | nat
  | unit
  | top
  | bottom
  | var (name : String)
  | arrow (params : List (Located TypeExpr)) (result : Located TypeExpr)
  | forAll (vars : List String) (body : Located TypeExpr)
  | recursive (var : String) (body : Located TypeExpr)
  | sum (left right : Located TypeExpr)
  | tuple (elements : List (Located TypeExpr))
  | record (fields : List (String × Located TypeExpr))
  | variant (fields : List (String × Option (Located TypeExpr)))
  | list (element : Located TypeExpr)
  | ref (referent : Located TypeExpr)

instance : Inhabited TypeExpr := ⟨.auto⟩

namespace TypeExpr

/-- The name of the construct at the root. -/
def form : TypeExpr → String
  | auto => "Auto"
  | bool => "Bool"
  | nat => "Nat"
  | unit => "Unit"
  | top => "Top"
  | bottom => "Bottom"
  | var _ => "Var"
  | arrow .. => "Fun"
  | forAll .. => "ForAll"
  | recursive .. => "Rec"
  | sum .. => "Sum"
  | tuple _ => "Tuple"
  | record _ => "Record"
  | variant _ => "Variant"
  | list _ => "List"
  | ref _ => "Ref"

mutual

/-- Equality of structure: places take no part in it. -/
def same : Located TypeExpr → Located TypeExpr → Bool
  | ⟨t, _⟩, ⟨u, _⟩ => sameNode t u
termination_by structural x => x

def sameNode : TypeExpr → TypeExpr → Bool
  | auto, auto => true
  | bool, bool => true
  | nat, nat => true
  | unit, unit => true
  | top, top => true
  | bottom, bottom => true
  | var x, var y => x == y
  | arrow ps r, arrow qs s => sameAll ps qs && same r s
  | forAll xs b, forAll ys c => xs == ys && same b c
  | recursive x b, recursive y c => x == y && same b c
  | sum l r, sum l' r' => same l l' && same r r'
  | tuple ts, tuple us => sameAll ts us
  | record fs, record gs => sameFields fs gs
  | variant fs, variant gs => sameAlternatives fs gs
  | list t, list u => same t u
  | ref t, ref u => same t u
  | _, _ => false
termination_by structural x => x

def sameAll : List (Located TypeExpr) → List (Located TypeExpr) → Bool
  | [], [] => true
  | t :: ts, u :: us => same t u && sameAll ts us
  | _, _ => false
termination_by structural x => x

def sameFields : List (String × Located TypeExpr) → List (String × Located TypeExpr) → Bool
  | [], [] => true
  | (l, t) :: fs, (m, u) :: gs => l == m && same t u && sameFields fs gs
  | _, _ => false
termination_by structural x => x

def sameAlternatives :
    List (String × Option (Located TypeExpr)) → List (String × Option (Located TypeExpr)) → Bool
  | [], [] => true
  | (l, none) :: fs, (m, none) :: gs => l == m && sameAlternatives fs gs
  | (l, some t) :: fs, (m, some u) :: gs => l == m && same t u && sameAlternatives fs gs
  | _, _ => false
termination_by structural x => x

end

instance : BEq (Located TypeExpr) := ⟨same⟩

end TypeExpr

end StellaLang.Syntax
