import StellaLang.Syntax.Pattern

/-! What a pattern says about the shape of a value. Ascriptions say nothing about it,
so every view here looks through them. -/
namespace StellaLang.Syntax.Pattern

/-- The pattern without the ascriptions around it. -/
def strip : Located Pattern → Pattern
  | ⟨p, _⟩ => stripNode p
where
  stripNode : Pattern → Pattern
    | ascribed p _ => strip p
    | p => p

mutual

/-- Whether the pattern surely matches every value of its type. -/
def isIrrefutable : Located Pattern → Bool
  | ⟨p, _⟩ => isIrrefutableNode p

def isIrrefutableNode : Pattern → Bool
  | ascribed p _ => isIrrefutable p
  | var _ => true
  | unit => true
  | tuple ps => allIrrefutable ps
  | record fs => allFieldsIrrefutable fs
  | _ => false

def allIrrefutable : List (Located Pattern) → Bool
  | [] => true
  | p :: ps => isIrrefutable p && allIrrefutable ps

def allFieldsIrrefutable : List (String × Located Pattern) → Bool
  | [] => true
  | (_, p) :: fs => isIrrefutable p && allFieldsIrrefutable fs

end

def bool? (p : Located Pattern) : Option Bool :=
  match strip p with
  | bool b => some b
  | _ => none

def inl? (p : Located Pattern) : Option (Located Pattern) :=
  match strip p with
  | inl q => some q
  | _ => none

def inr? (p : Located Pattern) : Option (Located Pattern) :=
  match strip p with
  | inr q => some q
  | _ => none

/-- What a pattern for one label asks of the payload. -/
def payload? (label : String) (p : Located Pattern) : Option (Option (Located Pattern)) :=
  match strip p with
  | variant l q => if l = label then some q else none
  | _ => none

def isNil (p : Located Pattern) : Bool :=
  match strip p with
  | list [] => true
  | _ => false

/-- Whether the pattern surely matches every list that is not empty. -/
def isAnyCons (p : Located Pattern) : Bool :=
  match strip p with
  | cons h t => isIrrefutable h && isIrrefutable t
  | _ => false

end StellaLang.Syntax.Pattern
