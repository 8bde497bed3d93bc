import Mathlib.Data.List.Perm.Subperm
import Mathlib.Data.List.Nodup
import StellaLang.Ty.Fresh

/-! Fresh names are fresh, and are the base name with digits at its end. Two names neither of
which is the other with digits at its end stay apart whatever fresh names are made of
them. -/
namespace StellaLang.Fresh

/-- Whether a name is another one with digits at its end, perhaps none. -/
def Numbered (base name : String) : Prop :=
  ∃ digits : List Char, (∀ c ∈ digits, c.isDigit = true) ∧ name.toList = base.toList ++ digits

namespace Numbered

theorem refl (x : String) : Numbered x x :=
  ⟨[], by simp, by simp⟩

theorem trans {x y z : String} (first : Numbered x y) (second : Numbered y z) : Numbered x z := by
  obtain ⟨ds, digits, named⟩ := first
  obtain ⟨es, more, longer⟩ := second
  refine ⟨ds ++ es, ?_, by rw [longer, named, List.append_assoc]⟩
  intro c member
  rcases List.mem_append.mp member with member | member
  · exact digits c member
  · exact more c member

theorem candidate (base : String) (n : Nat) : Numbered base (candidate base n) := by
  refine ⟨Nat.toDigits 10 n, ?_, ?_⟩
  · intro c member
    exact Nat.isDigit_of_mem_toDigits (by omega) (by omega) member
  · rw [Fresh.candidate, String.toList_append, Nat.toString_eq_ofList_toDigits, String.toList_ofList]

/-- Whether a name is numbered can be read off it. -/
theorem iff_drop {base name : String} : Numbered base name ↔
    base.toList <+: name.toList ∧
      (name.toList.drop base.toList.length).all (·.isDigit) = true := by
  constructor
  · rintro ⟨digits, all, named⟩
    rw [named, List.drop_left]
    exact ⟨List.prefix_append _ _, List.all_eq_true.mpr all⟩
  · rintro ⟨⟨digits, named⟩, all⟩
    rw [← named, List.drop_left] at all
    exact ⟨digits, List.all_eq_true.mp all, named.symm⟩

instance (base name : String) : Decidable (Numbered base name) :=
  decidable_of_iff _ iff_drop.symm

end Numbered

section Search

theorem search_eq_candidate (base : String) (avoid : List String) (fuel n : Nat) :
    ∃ m, search base avoid fuel n = candidate base m := by
  induction fuel generalizing n with
  | zero => exact ⟨n, rfl⟩
  | succ fuel ih =>
    rw [search]
    split
    · exact ih (n + 1)
    · exact ⟨n, rfl⟩

theorem numbered_name (base : String) (avoid : List String) : Numbered base (name base avoid) := by
  obtain ⟨m, found⟩ := search_eq_candidate base avoid avoid.length 1
  rw [name, found]
  exact .candidate base m

theorem candidate_injective (base : String) : Function.Injective (candidate base) := by
  intro m n same
  have lists := congrArg String.toList same
  rw [candidate, candidate, String.toList_append, String.toList_append] at lists
  have digits := List.append_cancel_left lists
  rw [Nat.toString_eq_ofList_toDigits, Nat.toString_eq_ofList_toDigits, String.toList_ofList,
    String.toList_ofList] at digits
  calc
    m = Nat.ofDigitChars 10 (Nat.toDigits 10 m) 0 := Nat.ofDigitChars_ten_toDigits.symm
    _ = Nat.ofDigitChars 10 (Nat.toDigits 10 n) 0 := by rw [digits]
    _ = n := Nat.ofDigitChars_ten_toDigits

/-- If the search ends at a name to avoid, it has only met such names. -/
theorem mem_of_search_mem {base : String} {avoid : List String} {fuel n : Nat}
    (taken : search base avoid fuel n ∈ avoid) :
    ∀ m, n ≤ m → m ≤ n + fuel → candidate base m ∈ avoid := by
  induction fuel generalizing n with
  | zero =>
    intro m least most
    obtain rfl : m = n := by omega
    exact taken
  | succ fuel ih =>
    intro m least most
    rw [search] at taken
    split at taken
    · rename_i first
      rcases Nat.eq_or_lt_of_le least with rfl | later
      · exact first
      · exact ih taken m later (by omega)
    · contradiction

/-- There are more candidates than names to avoid. -/
theorem name_not_mem (base : String) (avoid : List String) : name base avoid ∉ avoid := by
  intro taken
  have all := mem_of_search_mem taken
  have distinct : ((List.range' 1 (avoid.length + 1)).map (candidate base)).Nodup :=
    List.Nodup.map (candidate_injective base) List.nodup_range'
  have inside : (List.range' 1 (avoid.length + 1)).map (candidate base) ⊆ avoid := by
    intro x member
    obtain ⟨m, range, rfl⟩ := List.mem_map.mp member
    rw [List.mem_range'_1] at range
    exact all m range.1 (by omega)
  have short := (List.subperm_of_subset distinct inside).length_le
  rw [List.length_map, List.length_range'] at short
  omega

end Search

/-- Neither name is the other one with digits at its end. -/
def Apart (x y : String) : Prop :=
  ¬Numbered x y ∧ ¬Numbered y x

instance (x y : String) : Decidable (Apart x y) :=
  inferInstanceAs (Decidable (_ ∧ _))

namespace Apart

variable {x y x' y' : String}

/-- Of two names with a common numbering the longer one is the shorter one numbered. -/
theorem numbered_or {z : String} (first : Numbered x z) (second : Numbered y z) :
    Numbered x y ∨ Numbered y x := by
  obtain ⟨ds, digits, named⟩ := first
  obtain ⟨es, more, again⟩ := second
  rcases List.append_eq_append_iff.mp (named.symm.trans again) with ⟨ws, longer, rest⟩ | ⟨ws, longer, rest⟩
  · exact .inl ⟨ws, fun c member => digits c (by simp [rest, member]), longer⟩
  · exact .inr ⟨ws, fun c member => more c (by simp [rest, member]), longer⟩

theorem numbered (apart : Apart x y) (first : Numbered x x') (second : Numbered y y') :
    Apart x' y' := by
  constructor
  · intro longer
    exact (numbered_or (first.trans longer) second).elim apart.1 apart.2
  · intro longer
    exact (numbered_or first (second.trans longer)).elim apart.1 apart.2

end Apart

end StellaLang.Fresh
