import StellaLang.Coverage.Pattern
import StellaLang.Proofs.Ty.Conformance

/-! Values of data types, and which of them a pattern matches. A value keeps its types when a
type conforms to another one without wildcards, in either mode. -/
namespace StellaLang

open Syntax (Pattern)

inductive Value where
  | bool (value : Bool)
  | nat (value : Nat)
  | unit
  | tuple (elements : List Value)
  | record (fields : List (String × Value))
  | inl (inner : Value)
  | inr (inner : Value)
  | variant (label : String) (payload : Option Value)
  | list (elements : List Value)

/-- The data of a type. A record may have more fields than its type lists; of fields or
alternatives with one label the first counts. -/
inductive HasType : Value → Ty → Prop where
  | bool (b : Bool) : HasType (.bool b) .bool
  | nat (n : Nat) : HasType (.nat n) .nat
  | unit : HasType .unit .unit
  | top (v : Value) : HasType v .top
  | tuple {vs : List Value} {ts : List Ty} (length : vs.length = ts.length)
      (elements : ∀ (i : Nat) v t, vs[i]? = some v → ts[i]? = some t → HasType v t) :
      HasType (.tuple vs) (.tuple ts)
  | record (present : ∀ l t, (l, t) ∈ fs → ∃ v, vs.lookup l = some v)
      (fields : ∀ l t v, (l, t) ∈ fs → vs.lookup l = some v → HasType v t) :
      HasType (.record vs) (.record fs)
  | inl (inner : HasType v l) : HasType (.inl v) (.sum l r)
  | inr (inner : HasType v r) : HasType (.inr v) (.sum l r)
  | plain (found : fs.lookup l = some none) : HasType (.variant l none) (.variant fs)
  | carrying (found : fs.lookup l = some (some t)) (payload : HasType v t) :
      HasType (.variant l (some v)) (.variant fs)
  | list (elements : ∀ v ∈ vs, HasType v t) : HasType (.list vs) (.list t)

namespace Ty

mutual

/-- Whether no part of the type is a wildcard. -/
def isKnown : Ty → Bool
  | arrow ps r => allKnown ps && r.isKnown
  | forAll _ b => b.isKnown
  | recursive _ b => b.isKnown
  | tuple ts => allKnown ts
  | sum l r => l.isKnown && r.isKnown
  | record fs => allFieldsKnown fs
  | variant fs => allAlternativesKnown fs
  | list t => t.isKnown
  | ref t => t.isKnown
  | never | unknown | error => false
  | bool | nat | unit | top | bottom | var _ => true

def allKnown : List Ty → Bool
  | [] => true
  | t :: ts => t.isKnown && allKnown ts

def allFieldsKnown : List (String × Ty) → Bool
  | [] => true
  | (_, t) :: fs => t.isKnown && allFieldsKnown fs

def allAlternativesKnown : List (String × Option Ty) → Bool
  | [] => true
  | (_, none) :: fs => allAlternativesKnown fs
  | (_, some t) :: fs => t.isKnown && allAlternativesKnown fs

end

theorem allKnown_iff {ts : List Ty} : allKnown ts = true ↔ ∀ t ∈ ts, t.isKnown = true := by
  induction ts with
  | nil => simp [allKnown]
  | cons t ts ih => simp [allKnown, ih]

theorem isKnown_of_mem_fields {fs : List (String × Ty)} (known : allFieldsKnown fs = true)
    {l : String} {t : Ty} (member : (l, t) ∈ fs) : t.isKnown = true := by
  induction fs with
  | nil => contradiction
  | cons f fs ih =>
    rw [allFieldsKnown, Bool.and_eq_true] at known
    rcases List.mem_cons.mp member with rfl | member
    · exact known.1
    · exact ih known.2 member

theorem isKnown_of_lookup_alternative {fs : List (String × Option Ty)}
    (known : allAlternativesKnown fs = true) {l : String} {t : Ty}
    (found : fs.lookup l = some (some t)) : t.isKnown = true := by
  induction fs with
  | nil => contradiction
  | cons f fs ih =>
    obtain ⟨m, payload⟩ := f
    rw [List.lookup_cons] at found
    cases payload with
    | none =>
      rw [allAlternativesKnown] at known
      split at found
      · cases found
      · exact ih known found
    | some u =>
      rw [allAlternativesKnown, Bool.and_eq_true] at known
      split at found
      · cases found
        exact known.1
      · exact ih known.2 found

theorem isWildcard_of_isKnown {t : Ty} (known : t.isKnown = true) : t.isWildcard = false := by
  cases t with
  | never | unknown | error => contradiction
  | _ => rfl

end Ty

namespace HasType

/-- Only data have types, so a wildcard has no values. -/
theorem not_wildcard {v : Value} {t : Ty} (typed : HasType v t) : t.isWildcard = false := by
  cases typed <;> rfl

/-- A value keeps its type when less is asked for. -/
theorem of_conforms {v : Value} {subtyping : Bool} {t u : Ty} (typed : HasType v t)
    (conforming : Ty.Conforms subtyping t u) (known : u.isKnown = true) : HasType v u := by
  induction conforming generalizing v with
  | wildcard h =>
    rw [typed.not_wildcard, Ty.isWildcard_of_isKnown known] at h
    contradiction
  | toTop => exact .top v
  | fromBottom => cases typed
  | bool | nat | unit | top => exact typed
  | bottom | var | arrow | forAll | recursive | ref => cases typed
  | @tuple ts us length _ elements =>
    cases typed with
    | @tuple vs _ same typed =>
      refine .tuple (same.trans length) fun i v u atV atU => ?_
      obtain ⟨bound, rfl⟩ := List.getElem?_eq_some_iff.mp atU
      have within : i < ts.length := length ▸ bound
      have pair : (ts[i], us[i]) ∈ ts.zip us := List.mem_iff_getElem?.mpr ⟨i, by simp [*]⟩
      exact elements _ _ pair (typed i v _ atV (List.getElem?_eq_getElem within))
        (Ty.allKnown_iff.mp known _ (List.getElem_mem bound))
  | sum _ _ left right =>
    rw [Ty.isKnown, Bool.and_eq_true] at known
    cases typed with
    | inl inner => exact .inl (left inner known.1)
    | inr inner => exact .inr (right inner known.2)
  | @record fs gs width present _ fields =>
    cases typed with
    | @record _ vs there typed =>
      refine .record (fun l u member => ?_) fun l u v member found => ?_
      · obtain ⟨t, listed⟩ := present l u member
        exact there l t (mem_of_lookup listed)
      · obtain ⟨t, listed⟩ := present l u member
        exact fields l t u member listed (typed l t v (mem_of_lookup listed) found)
          (Ty.isKnown_of_mem_fields known member)
  | @variant fs gs present _ payloads =>
    cases typed with
    | plain found =>
      obtain ⟨q, listed, empty⟩ := present _ _ (mem_of_lookup found)
      cases q with
      | none => exact .plain listed
      | some => contradiction
    | carrying found payload =>
      obtain ⟨q, listed, full⟩ := present _ _ (mem_of_lookup found)
      cases q with
      | none => contradiction
      | some u =>
        exact .carrying listed (payloads _ _ u (mem_of_lookup found) listed payload
          (Ty.isKnown_of_lookup_alternative known listed))
  | list _ element =>
    cases typed with
    | list elements => exact .list fun v member => element (elements v member) known

end HasType

end StellaLang
