import StellaLang.Ty.Basic

/-! Types as messages show them. Wildcards have signs of their own, since no program
can write them. -/
namespace StellaLang.Ty

def parenthesizeIf (nested : Bool) (text : String) : String :=
  if nested then "(" ++ text ++ ")" else text

mutual

/-- The text of a type. A part of a sum or the referent of a reference is `nested`:
types open to a side take parentheses there. -/
def textAt (nested : Bool) : Ty → String
  | bool => "Bool"
  | nat => "Nat"
  | unit => "Unit"
  | top => "Top"
  | bottom => "Bot"
  | var x => x
  | never => "!"
  | unknown => "?"
  | error => "<error>"
  | arrow ps r =>
    parenthesizeIf nested ("fn(" ++ String.intercalate ", " (texts ps) ++ ") -> " ++ textAt false r)
  | forAll xs b =>
    parenthesizeIf nested ("forall " ++ String.intercalate ", " xs ++ ". " ++ textAt false b)
  | recursive x b => parenthesizeIf nested ("µ " ++ x ++ ". " ++ textAt false b)
  | sum l r => parenthesizeIf nested (textAt true l ++ " + " ++ textAt true r)
  | tuple ts => "\x7b" ++ String.intercalate ", " (texts ts) ++ "\x7d"
  | record fs => "\x7b" ++ String.intercalate ", " (fieldTexts fs) ++ "\x7d"
  | variant fs => "<| " ++ String.intercalate ", " (alternativeTexts fs) ++ " |>"
  | list t => "[" ++ textAt false t ++ "]"
  | ref t => "&" ++ textAt true t

def texts : List Ty → List String
  | [] => []
  | t :: ts => textAt false t :: texts ts

def fieldTexts : List (String × Ty) → List String
  | [] => []
  | (l, t) :: fs => (l ++ " : " ++ textAt false t) :: fieldTexts fs

def alternativeTexts : List (String × Option Ty) → List String
  | [] => []
  | (l, none) :: fs => l :: alternativeTexts fs
  | (l, some t) :: fs => (l ++ " : " ++ textAt false t) :: alternativeTexts fs

end

def text (t : Ty) : String :=
  t.textAt false

end StellaLang.Ty
