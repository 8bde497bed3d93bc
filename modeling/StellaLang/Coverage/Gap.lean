/-! Descriptions of values that the cases of a match leave out. -/
namespace StellaLang.Coverage

/-- A shape of values. -/
inductive Gap where
  | any
  | bool (value : Bool)
  | unit
  | nat (value : Nat)
  /-- All numbers from one on. -/
  | natFrom (least : Nat)
  | inl (inner : Gap)
  | inr (inner : Gap)
  | nil
  /-- All lists that are not empty. -/
  | cons
  | variant (label : String) (payload : Option Gap)
  | tuple (elements : List Gap)
  | record (fields : List (String × Gap))

instance : Inhabited Gap := ⟨.any⟩

namespace Gap

/-- A pattern for all numbers from `n` on, written out to a depth of 64 at most. -/
def natFromText (n : Nat) : String :=
  let depth := min n 64
  String.join (List.replicate depth "succ(") ++ "_" ++ String.join (List.replicate depth ")")

mutual

/-- The gap as a pattern that a reader could add. -/
def text : Gap → String
  | any => "_"
  | bool b => if b then "true" else "false"
  | unit => "unit"
  | nat n => toString n
  | natFrom n => natFromText n
  | inl g => "inl(" ++ text g ++ ")"
  | inr g => "inr(" ++ text g ++ ")"
  | nil => "[]"
  | cons => "cons(_, _)"
  | variant l none => "<| " ++ l ++ " |>"
  | variant l (some g) => "<| " ++ l ++ " = " ++ text g ++ " |>"
  | tuple gs => "\x7b" ++ String.intercalate ", " (texts gs) ++ "\x7d"
  | record fs => "\x7b" ++ String.intercalate ", " (fieldTexts fs) ++ "\x7d"

def texts : List Gap → List String
  | [] => []
  | g :: gs => text g :: texts gs

def fieldTexts : List (String × Gap) → List String
  | [] => []
  | (l, g) :: fs => (l ++ " = " ++ text g) :: fieldTexts fs

end

end Gap

end StellaLang.Coverage
