import StellaLang.Proofs.Coverage.Value

/-! Which values a pattern matches, and which it is made for. A pattern that suits a value
asks nothing that the shape of the value rules out, so it matches if it is
irrefutable. -/
namespace StellaLang.Syntax.Pattern

mutual

/-- Whether a pattern matches a value. A cast may always fail, so it is not counted on. -/
def catches : Located Pattern → Value → Bool
  | ⟨p, _⟩, v => catchesNode p v
termination_by structural p => p

def catchesNode : Pattern → Value → Bool
  | castAs .., _ => false
  | ascribed p _, v => catches p v
  | variant l none, .variant m none => l == m
  | variant l (some p), .variant m (some v) => l == m && catches p v
  | inl p, .inl v => catches p v
  | inr p, .inr v => catches p v
  | tuple ps, .tuple vs => catchesAll ps vs
  | record fs, .record vs => catchesFields fs vs
  | list ps, .list vs => catchesAll ps vs
  | cons h t, .list (v :: vs) => catches h v && catches t (.list vs)
  | bool b, .bool c => b == c
  | unit, .unit => true
  | nat m, .nat n => m == n
  | succ p, .nat (n + 1) => catches p (.nat n)
  | var _, _ => true
  | _, _ => false
termination_by structural p => p

/-- Each pattern against its own value. -/
def catchesAll : List (Located Pattern) → List Value → Bool
  | [], [] => true
  | p :: ps, v :: vs => catches p v && catchesAll ps vs
  | _, _ => false
termination_by structural ps => ps

/-- Every field that is listed is there and matches. -/
def catchesFields : List (String × Located Pattern) → List (String × Value) → Bool
  | [], _ => true
  | (l, p) :: fs, vs =>
    (match vs.lookup l with
      | some v => catches p v
      | none => false) && catchesFields fs vs
termination_by structural fs => fs

end

mutual

/-- Whether a pattern is made for values of the shape that a value has. -/
def Suits : Located Pattern → Value → Prop
  | ⟨p, _⟩, v => SuitsNode p v
termination_by structural p => p

def SuitsNode : Pattern → Value → Prop
  | castAs .., _ => True
  | ascribed p _, v => Suits p v
  | variant l none, .variant m payload => l = m → payload = none
  | variant l (some p), .variant m (some v) => l = m → Suits p v
  | variant l (some _), .variant m none => l ≠ m
  | inl p, .inl v => Suits p v
  | inl _, .inr _ => True
  | inr p, .inr v => Suits p v
  | inr _, .inl _ => True
  | tuple ps, .tuple vs => SuitsAll ps vs
  | record fs, .record vs => SuitsFields fs vs
  | list _, .list _ => True
  | cons h t, .list (v :: vs) => Suits h v ∧ Suits t (.list vs)
  | cons .., .list [] => True
  | bool _, .bool _ => True
  | unit, .unit => True
  | nat _, .nat _ => True
  | succ p, .nat (n + 1) => Suits p (.nat n)
  | succ _, .nat 0 => True
  | var _, _ => True
  | _, _ => False
termination_by structural p => p

def SuitsAll : List (Located Pattern) → List Value → Prop
  | [], [] => True
  | p :: ps, v :: vs => Suits p v ∧ SuitsAll ps vs
  | _, _ => False
termination_by structural ps => ps

def SuitsFields : List (String × Located Pattern) → List (String × Value) → Prop
  | [], _ => True
  | (l, p) :: fs, vs =>
    (match vs.lookup l with
      | some v => Suits p v
      | none => False) ∧ SuitsFields fs vs
termination_by structural fs => fs

end

section Strip

mutual

theorem catches_strip (p : Located Pattern) (v : Value) : catches p v = catchesNode (strip p) v := by
  obtain ⟨p, position⟩ := p
  exact catchesNode_strip p v
termination_by structural p

theorem catchesNode_strip (p : Pattern) (v : Value) :
    catchesNode p v = catchesNode (strip.stripNode p) v := by
  cases p with
  | ascribed p type => exact catches_strip p v
  | _ => rfl
termination_by structural p

end

end Strip

mutual

/-- An irrefutable pattern matches every value that it suits. -/
theorem catches_of_irrefutable {p : Located Pattern} (irrefutable : isIrrefutable p = true)
    {v : Value} (suits : Suits p v) : catches p v = true := by
  obtain ⟨p, position⟩ := p
  exact catchesNode_of_irrefutable irrefutable suits
termination_by structural p

theorem catchesNode_of_irrefutable {p : Pattern} (irrefutable : isIrrefutableNode p = true)
    {v : Value} (suits : SuitsNode p v) : catchesNode p v = true := by
  cases p with
  | ascribed p type => exact catches_of_irrefutable (p := p) irrefutable suits
  | var x => rfl
  | unit =>
    cases v with
    | unit => rfl
    | _ => contradiction
  | tuple ps =>
    cases v with
    | tuple vs => exact catchesAll_of_irrefutable irrefutable suits
    | _ => contradiction
  | record fs =>
    cases v with
    | record vs => exact catchesFields_of_irrefutable irrefutable suits
    | _ => contradiction
  | _ => contradiction
termination_by structural p

theorem catchesAll_of_irrefutable {ps : List (Located Pattern)} (irrefutable : allIrrefutable ps = true)
    {vs : List Value} (suits : SuitsAll ps vs) : catchesAll ps vs = true := by
  match ps, vs with
  | [], [] => rfl
  | p :: ps, v :: vs =>
    rw [allIrrefutable, Bool.and_eq_true] at irrefutable
    rw [catchesAll, Bool.and_eq_true]
    exact ⟨catches_of_irrefutable irrefutable.1 suits.1, catchesAll_of_irrefutable irrefutable.2 suits.2⟩
  | [], _ :: _ => contradiction
  | _ :: _, [] => contradiction
termination_by structural ps

theorem catchesFields_of_irrefutable {fs : List (String × Located Pattern)}
    (irrefutable : allFieldsIrrefutable fs = true) {vs : List (String × Value)}
    (suits : SuitsFields fs vs) : catchesFields fs vs = true := by
  match fs with
  | [] => rfl
  | (l, p) :: fs =>
    rw [allFieldsIrrefutable, Bool.and_eq_true] at irrefutable
    obtain ⟨here, rest⟩ := suits
    rw [catchesFields, catchesFields_of_irrefutable irrefutable.2 rest, Bool.and_true]
    cases found : vs.lookup l with
    | none => simp [found] at here
    | some v =>
      rw [found] at here
      exact catches_of_irrefutable irrefutable.1 here
termination_by structural fs

end

end StellaLang.Syntax.Pattern
