import StellaLang.Proofs.Coverage.Value

/-! The set of values that a data type stands for, computed from the type. Conformance is
inclusion of these sets: the fields asked for are looked up in the record there, the
alternatives there in the variant asked for, and a wrong turn in either would let a value
through that the second type does not have. -/
namespace StellaLang.Ty

mutual

/-- Whether a value is one of the type's. A record has at least the fields listed, a variant
one of the alternatives listed. -/
def admits : Ty → Value → Bool
  | bool, .bool _ => true
  | nat, .nat _ => true
  | unit, .unit => true
  | top, _ => true
  | tuple ts, .tuple vs => admitsAll ts vs
  | sum l _, .inl v => l.admits v
  | sum _ r, .inr v => r.admits v
  | record fs, .record vs => admitsFields fs vs
  | variant fs, .variant l p => admitsAlternative fs l p
  | list t, .list vs => vs.all t.admits
  | _, _ => false

def admitsAll : List Ty → List Value → Bool
  | [], [] => true
  | t :: ts, v :: vs => t.admits v && admitsAll ts vs
  | _, _ => false

def admitsFields : List (String × Ty) → List (String × Value) → Bool
  | [], _ => true
  | (l, t) :: fs, vs => (vs.lookup l).any t.admits && admitsFields fs vs

def admitsAlternative : List (String × Option Ty) → String → Option Value → Bool
  | [], _, _ => false
  | (m, none) :: fs, l, p => m == l && p.isNone || admitsAlternative fs l p
  | (m, some t) :: fs, l, p => m == l && p.any t.admits || admitsAlternative fs l p

end

@[simp] theorem admits_tuple (ts : List Ty) (vs : List Value) :
    (tuple ts).admits (.tuple vs) = admitsAll ts vs := rfl

@[simp] theorem admits_sum_left (l r : Ty) (v : Value) :
    (sum l r).admits (.inl v) = l.admits v := rfl

@[simp] theorem admits_sum_right (l r : Ty) (v : Value) :
    (sum l r).admits (.inr v) = r.admits v := rfl

@[simp] theorem admits_record (fs : List (String × Ty)) (vs : List (String × Value)) :
    (record fs).admits (.record vs) = admitsFields fs vs := rfl

@[simp] theorem admits_variant (fs : List (String × Option Ty)) (l : String) (p : Option Value) :
    (variant fs).admits (.variant l p) = admitsAlternative fs l p := rfl

@[simp] theorem admits_list (t : Ty) (vs : List Value) :
    (list t).admits (.list vs) = vs.all t.admits := rfl

@[simp] theorem admits_top (v : Value) : top.admits v = true := by
  cases v <;> rfl

theorem admitsAll_iff {ts : List Ty} {vs : List Value} : admitsAll ts vs = true ↔
    vs.length = ts.length ∧
      ∀ (i : Nat) v t, vs[i]? = some v → ts[i]? = some t → t.admits v = true := by
  induction ts generalizing vs with
  | nil => cases vs <;> simp [admitsAll]
  | cons t ts ih =>
    cases vs with
    | nil => simp [admitsAll]
    | cons v vs =>
      rw [admitsAll, Bool.and_eq_true, ih, List.length_cons, List.length_cons]
      constructor
      · rintro ⟨first, same, rest⟩
        refine ⟨congrArg (· + 1) same, ?_⟩
        intro i w u atW atU
        cases i with
        | zero =>
          cases atW
          cases atU
          exact first
        | succ i => exact rest i w u atW atU
      · rintro ⟨same, all⟩
        exact ⟨all 0 v t rfl rfl, Nat.add_right_cancel same, fun i => all (i + 1)⟩

theorem admitsFields_iff {fs : List (String × Ty)} {vs : List (String × Value)} :
    admitsFields fs vs = true ↔
      ∀ l t, (l, t) ∈ fs → ∃ v, vs.lookup l = some v ∧ t.admits v = true := by
  induction fs with
  | nil => simp [admitsFields]
  | cons f fs ih =>
    rw [admitsFields, Bool.and_eq_true, ih, Option.any_eq_true]
    constructor
    · rintro ⟨first, rest⟩ l t member
      rcases List.mem_cons.mp member with rfl | member
      · exact first
      · exact rest l t member
    · intro all
      exact ⟨all f.1 f.2 List.mem_cons_self, fun l t member => all l t (.tail _ member)⟩

/-- What an alternative carries is what its label asks for. -/
def admitsPayload : Option Ty → Option Value → Bool
  | none, p => p.isNone
  | some t, p => p.any t.admits

theorem admitsAlternative_iff {fs : List (String × Option Ty)} {l : String} {p : Option Value} :
    admitsAlternative fs l p = true ↔ ∃ q, (l, q) ∈ fs ∧ admitsPayload q p = true := by
  induction fs with
  | nil => simp [admitsAlternative]
  | cons f fs ih =>
    obtain ⟨m, q⟩ := f
    have head : admitsAlternative ((m, q) :: fs) l p =
        (m == l && admitsPayload q p || admitsAlternative fs l p) := by
      cases q <;> rfl
    rw [head, Bool.or_eq_true, ih, Bool.and_eq_true, beq_iff_eq]
    constructor
    · rintro (⟨rfl, fits⟩ | ⟨r, member, fits⟩)
      · exact ⟨q, List.mem_cons_self, fits⟩
      · exact ⟨r, .tail _ member, fits⟩
    · rintro ⟨r, member, fits⟩
      rcases List.mem_cons.mp member with same | member
      · cases same
        exact .inl ⟨rfl, fits⟩
      · exact .inr ⟨r, member, fits⟩

/-- A value that has the type when the first alternative of a label counts is one of the
type's values. -/
theorem admits_of_hasType {v : Value} {t : Ty} (typed : HasType v t) : t.admits v = true := by
  induction typed with
  | bool | nat | unit => rfl
  | top => exact admits_top _
  | tuple length _ elements =>
    rw [admits_tuple, admitsAll_iff]
    exact ⟨length, elements⟩
  | record present _ fields =>
    rw [admits_record, admitsFields_iff]
    intro l t member
    obtain ⟨v, found⟩ := present l t member
    exact ⟨v, found, fields l t v member found⟩
  | inl _ inner => rwa [admits_sum_left]
  | inr _ inner => rwa [admits_sum_right]
  | plain found =>
    rw [admits_variant, admitsAlternative_iff]
    exact ⟨none, mem_of_lookup found, rfl⟩
  | carrying found _ payload =>
    rw [admits_variant, admitsAlternative_iff]
    exact ⟨_, mem_of_lookup found, payload⟩
  | list _ elements =>
    rw [admits_list, List.all_eq_true]
    exact elements

/-- The values of the first type have the second one, and each by the first alternative of
its label: an alternative that conforms is compared with that one. -/
theorem hasType_of_admits {v : Value} {subtyping : Bool} {t u : Ty} (admitted : t.admits v = true)
    (conforming : Conforms subtyping t u) (known : u.isKnown = true) : HasType v u := by
  induction conforming generalizing v with
  | @wildcard t _ h =>
    rw [isWildcard_of_isKnown known, Bool.or_false] at h
    cases t <;> simp [isWildcard] at h <;> simp [admits] at admitted
  | toTop => exact .top v
  | fromBottom | bottom | var | arrow | forAll | recursive | ref =>
    cases v <;> simp [admits] at admitted
  | bool =>
    cases v with
    | bool b => exact .bool b
    | _ => contradiction
  | nat =>
    cases v with
    | nat n => exact .nat n
    | _ => contradiction
  | unit =>
    cases v with
    | unit => exact .unit
    | _ => contradiction
  | top => exact .top v
  | @tuple ts us length _ elements =>
    cases v with
    | tuple vs =>
      rw [admits_tuple, admitsAll_iff] at admitted
      obtain ⟨same, admitted⟩ := admitted
      refine .tuple (same.trans length) ?_
      intro i v u atV atU
      obtain ⟨bound, rfl⟩ := List.getElem?_eq_some_iff.mp atU
      have within : i < ts.length := length ▸ bound
      have pair : (ts[i], us[i]) ∈ ts.zip us := List.mem_iff_getElem?.mpr ⟨i, by simp [*]⟩
      have first := admitted i v _ atV (List.getElem?_eq_getElem within)
      exact elements _ _ pair first (allKnown_iff.mp known _ (List.getElem_mem bound))
    | _ => simp [admits] at admitted
  | sum _ _ left right =>
    rw [isKnown, Bool.and_eq_true] at known
    cases v with
    | inl v => exact .inl (left (by rwa [admits_sum_left] at admitted) known.1)
    | inr v => exact .inr (right (by rwa [admits_sum_right] at admitted) known.2)
    | _ => simp [admits] at admitted
  | @record fs gs width present _ fields =>
    cases v with
    | record vs =>
      rw [admits_record, admitsFields_iff] at admitted
      constructor
      · intro l u member
        obtain ⟨t, listed⟩ := present l u member
        obtain ⟨v, found, -⟩ := admitted l t (mem_of_lookup listed)
        exact ⟨v, found⟩
      · intro l u v member found
        obtain ⟨t, listed⟩ := present l u member
        obtain ⟨w, there, first⟩ := admitted l t (mem_of_lookup listed)
        cases found.symm.trans there
        exact fields l t u member listed first (isKnown_of_mem_fields known member)
    | _ => simp [admits] at admitted
  | @variant fs gs present _ payloads =>
    cases v with
    | variant l p =>
      rw [admits_variant, admitsAlternative_iff] at admitted
      obtain ⟨q, member, first⟩ := admitted
      obtain ⟨r, listed, same⟩ := present l q member
      cases q with
      | none =>
        cases p with
        | none =>
          cases r with
          | none => exact .plain listed
          | some => contradiction
        | some => contradiction
      | some t =>
        cases p with
        | none => contradiction
        | some v =>
          cases r with
          | none => contradiction
          | some u =>
            exact .carrying listed (payloads l t u member listed first
              (isKnown_of_lookup_alternative known listed))
    | _ => simp [admits] at admitted
  | list _ element =>
    cases v with
    | list vs =>
      rw [admits_list, List.all_eq_true] at admitted
      exact .list fun v member => element (admitted v member) known
    | _ => simp [admits] at admitted

/-- Conformance is inclusion: every value of a type is a value of each type without wildcards
that the first conforms to, in either mode. -/
theorem admits_of_conforms {subtyping : Bool} {t u : Ty} (known : u.isKnown = true)
    (conforming : conforms subtyping t u = true) : ∀ v, t.admits v = true → u.admits v = true := by
  intro v admitted
  exact admits_of_hasType (hasType_of_admits admitted (Conforms.of_conforms conforming) known)

/-- The second type asks for fewer fields, allows more levels and takes any raw data. -/
def fullReading : Ty :=
  record [("at", nat), ("level", variant [("low", some nat)]), ("raw", list bool)]

def briefReading : Ty :=
  record [("level", variant [("high", none), ("low", some nat)]), ("raw", top)]

def someReading : Value :=
  .record [("raw", .list [.bool true]), ("at", .nat 3), ("level", .variant "low" (some (.nat 1)))]

theorem fullReading_admitted :
    conforms true fullReading briefReading = true ∧ fullReading.admits someReading = true ∧
      briefReading.admits someReading = true := by
  have conforming : conforms true fullReading briefReading = true := by decide +kernel
  have admitted : fullReading.admits someReading = true := by decide
  exact ⟨conforming, admitted, admits_of_conforms (by decide) conforming _ admitted⟩

end StellaLang.Ty
