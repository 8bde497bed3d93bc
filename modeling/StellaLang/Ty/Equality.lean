import StellaLang.Ty.Basic

/-! Equality of types is decidable: `Ty.same` compares two types part by part and
holds exactly if they are equal. -/
namespace StellaLang.Ty

mutual

def same : Ty → Ty → Bool
  | bool, bool => true
  | nat, nat => true
  | unit, unit => true
  | top, top => true
  | bottom, bottom => true
  | var x, var y => x == y
  | arrow ps r, arrow qs s => sameAll ps qs && same r s
  | forAll xs b, forAll ys c => xs == ys && same b c
  | tuple ts, tuple us => sameAll ts us
  | sum l r, sum l' r' => same l l' && same r r'
  | record fs, record gs => sameFields fs gs
  | variant fs, variant gs => sameAlternatives fs gs
  | list t, list u => same t u
  | ref t, ref u => same t u
  | recursive x b, recursive y c => x == y && same b c
  | never, never => true
  | unknown, unknown => true
  | error, error => true
  | _, _ => false
termination_by structural x => x

def sameAll : List Ty → List Ty → Bool
  | [], [] => true
  | t :: ts, u :: us => same t u && sameAll ts us
  | _, _ => false
termination_by structural x => x

def sameFields : List (String × Ty) → List (String × Ty) → Bool
  | [], [] => true
  | (l, t) :: fs, (m, u) :: gs => l == m && same t u && sameFields fs gs
  | _, _ => false
termination_by structural x => x

def sameAlternatives : List (String × Option Ty) → List (String × Option Ty) → Bool
  | [], [] => true
  | (l, none) :: fs, (m, none) :: gs => l == m && sameAlternatives fs gs
  | (l, some t) :: fs, (m, some u) :: gs => l == m && same t u && sameAlternatives fs gs
  | _, _ => false
termination_by structural x => x

end

mutual

theorem same_iff (t u : Ty) : same t u = true ↔ t = u := by
  cases t with
  | arrow ps r => cases u <;> simp [same, sameAll_iff ps, same_iff r]
  | forAll xs b => cases u <;> simp [same, same_iff b]
  | tuple ts => cases u <;> simp [same, sameAll_iff ts]
  | sum l r => cases u <;> simp [same, same_iff l, same_iff r]
  | record fs => cases u <;> simp [same, sameFields_iff fs]
  | variant fs => cases u <;> simp [same, sameAlternatives_iff fs]
  | list t => cases u <;> simp [same, same_iff t]
  | ref t => cases u <;> simp [same, same_iff t]
  | recursive x b => cases u <;> simp [same, same_iff b]
  | _ => cases u <;> simp [same]
termination_by structural t

theorem sameAll_iff (ts us : List Ty) : sameAll ts us = true ↔ ts = us := by
  match ts, us with
  | [], [] => simp [sameAll]
  | [], _ :: _ => simp [sameAll]
  | _ :: _, [] => simp [sameAll]
  | t :: ts, u :: us => simp [sameAll, same_iff t, sameAll_iff ts]
termination_by structural ts

theorem sameFields_iff (fs gs : List (String × Ty)) : sameFields fs gs = true ↔ fs = gs := by
  match fs, gs with
  | [], [] => simp [sameFields]
  | [], _ :: _ => simp [sameFields]
  | _ :: _, [] => simp [sameFields]
  | (l, t) :: fs, (m, u) :: gs => simp [sameFields, same_iff t, sameFields_iff fs]
termination_by structural fs

theorem sameAlternatives_iff (fs gs : List (String × Option Ty)) :
    sameAlternatives fs gs = true ↔ fs = gs := by
  match fs, gs with
  | [], [] => simp [sameAlternatives]
  | [], _ :: _ => simp [sameAlternatives]
  | _ :: _, [] => simp [sameAlternatives]
  | (l, none) :: fs, (m, none) :: gs => simp [sameAlternatives, sameAlternatives_iff fs]
  | (l, some t) :: fs, (m, some u) :: gs =>
    simp [sameAlternatives, same_iff t, sameAlternatives_iff fs]
  | (l, none) :: fs, (m, some u) :: gs => simp [sameAlternatives]
  | (l, some t) :: fs, (m, none) :: gs => simp [sameAlternatives]
termination_by structural fs

end

instance : DecidableEq Ty := fun t u => decidable_of_iff _ (same_iff t u)

end StellaLang.Ty
