import StellaLang.Coverage
import StellaLang.Proofs.Ty.Renaming

/-! Cases that look alike. The search for gaps sees a pattern only through what it says about the
shape of a value, and a list of patterns only through what is in it. So it finds the same gaps in two
lists of patterns if each pattern of one looks like some pattern of the other, whatever their order
and their number. -/
namespace StellaLang.Coverage

open Syntax (Pattern)
open Syntax.Pattern

section Lists

variable {α β γ δ : Type} {R : α → β → Prop} {S : γ → δ → Prop} {xs : List α} {ys : List β}

/-- That each member of one of two lists is related to some member of the other. -/
structure Matched (R : α → β → Prop) (xs : List α) (ys : List β) : Prop where
  left : ∀ x ∈ xs, ∃ y ∈ ys, R x y
  right : ∀ y ∈ ys, ∃ x ∈ xs, R x y

namespace Matched

theorem filterMap (matched : Matched R xs ys) {f : α → Option γ} {g : β → Option δ}
    (each : ∀ x y, R x y → Option.Rel S (f x) (g y)) :
    Matched S (xs.filterMap f) (ys.filterMap g) := by
  constructor
  · intro c member
    obtain ⟨x, here, taken⟩ := List.mem_filterMap.mp member
    obtain ⟨y, there, related⟩ := matched.left x here
    have both := each x y related
    rw [taken] at both
    generalize taken' : g y = d at both
    cases both with
    | some related => exact ⟨_, List.mem_filterMap.mpr ⟨y, there, taken'⟩, related⟩
  · intro d member
    obtain ⟨y, there, taken⟩ := List.mem_filterMap.mp member
    obtain ⟨x, here, related⟩ := matched.right y there
    have both := each x y related
    rw [taken] at both
    generalize taken' : f x = c at both
    cases both with
    | some related => exact ⟨_, List.mem_filterMap.mpr ⟨x, here, taken'⟩, related⟩

theorem filter (matched : Matched R xs ys) {f : α → Bool} {g : β → Bool}
    (each : ∀ x y, R x y → f x = g y) : Matched R (xs.filter f) (ys.filter g) := by
  constructor
  · intro x member
    obtain ⟨here, chosen⟩ := List.mem_filter.mp member
    obtain ⟨y, there, related⟩ := matched.left x here
    exact ⟨y, List.mem_filter.mpr ⟨there, each x y related ▸ chosen⟩, related⟩
  · intro y member
    obtain ⟨there, chosen⟩ := List.mem_filter.mp member
    obtain ⟨x, here, related⟩ := matched.right y there
    exact ⟨x, List.mem_filter.mpr ⟨here, (each x y related).symm ▸ chosen⟩, related⟩

theorem map (matched : Matched R xs ys) {f : α → γ} {g : β → δ} (each : ∀ x y, R x y → S (f x) (g y)) :
    Matched S (xs.map f) (ys.map g) := by
  constructor
  · intro c member
    obtain ⟨x, here, rfl⟩ := List.mem_map.mp member
    obtain ⟨y, there, related⟩ := matched.left x here
    exact ⟨g y, List.mem_map_of_mem there, each x y related⟩
  · intro d member
    obtain ⟨y, there, rfl⟩ := List.mem_map.mp member
    obtain ⟨x, here, related⟩ := matched.right y there
    exact ⟨f x, List.mem_map_of_mem here, each x y related⟩

theorem any_eq (matched : Matched R xs ys) {f : α → Bool} {g : β → Bool}
    (each : ∀ x y, R x y → f x = g y) : xs.any f = ys.any g := by
  rw [Bool.eq_iff_iff, List.any_eq_true, List.any_eq_true]
  constructor
  · rintro ⟨x, here, chosen⟩
    obtain ⟨y, there, related⟩ := matched.left x here
    exact ⟨y, there, each x y related ▸ chosen⟩
  · rintro ⟨y, there, chosen⟩
    obtain ⟨x, here, related⟩ := matched.right y there
    exact ⟨x, here, (each x y related).symm ▸ chosen⟩

theorem isEmpty_eq (matched : Matched R xs ys) : xs.isEmpty = ys.isEmpty := by
  have some : xs.any (fun _ => true) = ys.any fun _ => true := matched.any_eq fun _ _ _ => rfl
  cases xs <;> cases ys <;> simp_all

/-- What is taken out of related members is in both lists or in neither. -/
theorem mem_filterMap_iff (matched : Matched R xs ys) {f : α → Option γ} {g : β → Option γ}
    (each : ∀ x y, R x y → f x = g y) (c : γ) : c ∈ xs.filterMap f ↔ c ∈ ys.filterMap g := by
  rw [List.mem_filterMap, List.mem_filterMap]
  constructor
  · rintro ⟨x, here, taken⟩
    obtain ⟨y, there, related⟩ := matched.left x here
    exact ⟨y, there, each x y related ▸ taken⟩
  · rintro ⟨y, there, taken⟩
    obtain ⟨x, here, related⟩ := matched.right y there
    exact ⟨x, here, (each x y related).trans taken⟩

end Matched

end Lists

section Numbers

/-- No candidate that the search leaves out could be among the first that are absent. -/
theorem firstAbsent_eq (present : List Nat) (limit : Nat) :
    firstAbsent present limit = ((List.range limit).filter (· ∉ present)).take natWitnesses := by
  rw [firstAbsent]
  generalize reached : present.length + natWitnesses = bound
  by_cases few : limit ≤ bound
  · rw [Nat.min_eq_left few]
  have some : bound ≤ limit := by omega
  obtain ⟨more, rfl⟩ := Nat.exists_eq_add_of_le some
  -- Those of the first candidates that are present are different members of `present`.
  have inside : (List.range bound).filter (· ∈ present) ⊆ present :=
    fun n member => by simpa using (List.mem_filter.mp member).2
  have short := List.Nodup.length_le_of_subset (List.nodup_range.filter _) inside
  have split := List.length_eq_length_filter_add (l := List.range bound) (· ∈ present)
  simp only [List.length_range, ← decide_not] at split
  rw [Nat.min_eq_right some, List.range_add, List.filter_append, List.take_append_of_le_length]
  omega

theorem min?_congr {ms ns : List Nat} (same : ∀ n, n ∈ ms ↔ n ∈ ns) : ms.min? = ns.min? := by
  refine Option.ext fun n => ?_
  simp only [List.min?_eq_some_iff, same]

theorem max?_congr {ms ns : List Nat} (same : ∀ n, n ∈ ms ↔ n ∈ ns) : ms.max? = ns.max? := by
  refine Option.ext fun n => ?_
  simp only [List.max?_eq_some_iff, same]

end Numbers

/-- Rows that have related cells in the same columns. -/
abbrev RelatedRows (R : Located Pattern → Located Pattern → Prop) : Row → Row → Prop :=
  List.Forall₂ (Option.Rel R)

/-- That two patterns look alike: they say the same about the shape of a value, and what they ask of
its parts is related. For most shapes most of this holds since neither says anything. -/
structure Resembles (R : Located Pattern → Located Pattern → Prop) (p q : Located Pattern) : Prop where
  irrefutable : isIrrefutable p = isIrrefutable q := by rfl
  bool? : bool? p = bool? q := by rfl
  shape : NatShape.of? p = NatShape.of? q := by rfl
  isNil : isNil p = isNil q := by rfl
  isAnyCons : isAnyCons p = isAnyCons q := by rfl
  inl? : Option.Rel R (inl? p) (inl? q) := by exact .none
  inr? : Option.Rel R (inr? p) (inr? q) := by exact .none
  payload? : ∀ l, Option.Rel (Option.Rel R) (payload? l p) (payload? l q) := by exact fun _ => .none
  tuple : ∀ width, Option.Rel (RelatedRows R) (Row.ofTuple? width p) (Row.ofTuple? width q) := by
    exact fun _ => .none
  record : ∀ labels, Option.Rel (RelatedRows R) (Row.ofRecord? labels p) (Row.ofRecord? labels q) := by
    exact fun _ => .none

/-- A relation whose patterns look alike, as do their parts below. -/
def Indistinct (R : Located Pattern → Located Pattern → Prop) : Prop :=
  ∀ p q, R p q → Resembles R p q

section Search

variable {R : Located Pattern → Located Pattern → Prop}

section Rows

theorem rel_cell {row row' : Row} (related : RelatedRows R row row') (column : Nat) :
    Option.Rel R (row.cell column) (row'.cell column) := by
  have cells := Ty.rel_getElem? related column
  simp only [Row.cell, List.getD_eq_getElem?_getD]
  generalize row[column]? = cell, row'[column]? = cell' at cells ⊢
  cases cells with
  | none => exact .none
  | some related => exact related

theorem isNone_cell_eq {row row' : Row} (related : RelatedRows R row row') (column : Nat) :
    (row.cell column).isNone = (row'.cell column).isNone := by
  have cells := rel_cell related column
  generalize row.cell column = cell, row'.cell column = cell' at cells ⊢
  cases cells <;> rfl

variable (h : Indistinct R) {row row' : Row}
include h

theorem isRefutableAt_eq (related : RelatedRows R row row') (column : Nat) :
    row.isRefutableAt column = row'.isRefutableAt column := by
  have cells := rel_cell related column
  unfold Row.isRefutableAt
  generalize row.cell column = cell, row'.cell column = cell' at cells ⊢
  cases cells with
  | none => rfl
  | some related => exact congrArg not (h _ _ related).irrefutable

theorem admits_eq (related : RelatedRows R row row') (column : Nat) (value : Bool) :
    row.admits column value = row'.admits column value := by
  have cells := rel_cell related column
  unfold Row.admits
  generalize row.cell column = cell, row'.cell column = cell' at cells ⊢
  cases cells with
  | none => rfl
  | some related =>
    simp only [Option.all_some, (h _ _ related).bool?, (h _ _ related).irrefutable]

variable {rows rows' : List Row} (matched : Matched (RelatedRows R) rows rows')
include matched

theorem refutableColumns_eq (width : Nat) : refutableColumns width rows = refutableColumns width rows' := by
  unfold refutableColumns
  refine List.filter_congr fun column _ => ?_
  exact matched.any_eq fun _ _ related => isRefutableAt_eq h related column

end Rows

section Flat

variable (h : Indistinct R) {ps qs : List (Located Pattern)} (matched : Matched R ps qs)
include h matched

theorem missingBool_eq : missingBool ps = missingBool qs := by
  have literals := matched.mem_filterMap_iff fun p q related => (h p q related).bool?
  simp only [missingBool, List.contains_eq_mem, literals]

theorem missingList_eq : missingList ps = missingList qs := by
  rw [missingList, missingList, matched.any_eq fun p q related => (h p q related).isNil,
    matched.any_eq fun p q related => (h p q related).isAnyCons]

theorem missingNat_eq : missingNat ps = missingNat qs := by
  have shapes := matched.mem_filterMap_iff fun p q related => (h p q related).shape
  have taken {f : NatShape → Option Nat} (n : Nat) : n ∈ (ps.filterMap NatShape.of?).filterMap f ↔
      n ∈ (qs.filterMap NatShape.of?).filterMap f := by
    simp only [List.mem_filterMap (f := f), shapes]
  simp only [missingNat, min?_congr taken, max?_congr taken, firstAbsent_eq, taken]

end Flat

mutual

/-- Cases that look alike leave out the same values. -/
theorem missing_eq (h : Indistinct R) (t : Ty) {ps qs : List (Located Pattern)} (matched : Matched R ps qs) :
    missing t ps = missing t qs := by
  rw [missing.eq_def t ps, missing.eq_def t qs,
    matched.any_eq fun p q related => (h p q related).irrefutable]
  refine if_congr Iff.rfl rfl ?_
  cases t with
  | bool => exact missingBool_eq h matched
  | nat => exact missingNat_eq h matched
  | list => exact missingList_eq h matched
  | sum l r =>
    have left := matched.filterMap fun p q related => (h p q related).inl?
    have right := matched.filterMap fun p q related => (h p q related).inr?
    dsimp only
    rw [left.isEmpty_eq, right.isEmpty_eq, missing_eq h l left, missing_eq h r right]
  | variant fs => exact missingAlternatives_eq h fs matched
  | tuple ts =>
    have rows := matched.filterMap fun p q related => (h p q related).tuple ts.length
    dsimp only
    rw [missingRows_eq h ts rows]
  | record fs =>
    have := Ty.sizes_map_snd fs
    have rows := matched.filterMap fun p q related => (h p q related).record (fs.map (·.1))
    dsimp only
    rw [missingRows_eq h (fs.map (·.2)) rows]
  | _ => rfl
termination_by t.size
decreasing_by all_goals (simp only [Ty.size]; omega)

theorem missingAlternatives_eq (h : Indistinct R) (fs : List (String × Option Ty))
    {ps qs : List (Located Pattern)} (matched : Matched R ps qs) :
    missingAlternatives fs ps = missingAlternatives fs qs := by
  match fs with
  | [] => rw [missingAlternatives, missingAlternatives]
  | (l, none) :: fs =>
    have payloads := matched.filterMap fun p q related => (h p q related).payload? l
    rw [missingAlternatives, missingAlternatives, payloads.isEmpty_eq, missingAlternatives_eq h fs matched]
  | (l, some t) :: fs =>
    have payloads := matched.filterMap fun p q related => (h p q related).payload? l
    have inner : Matched R ((ps.filterMap (payload? l)).filterMap id)
        ((qs.filterMap (payload? l)).filterMap id) := payloads.filterMap fun _ _ => id
    rw [missingAlternatives, missingAlternatives, payloads.isEmpty_eq, inner.isEmpty_eq,
      missing_eq h t inner, missingAlternatives_eq h fs matched]
termination_by Ty.alternativeSizes fs
decreasing_by all_goals (simp only [Ty.alternativeSizes]; omega)

theorem missingRows_eq (h : Indistinct R) (ts : List Ty) {rows rows' : List Row}
    (matched : Matched (RelatedRows R) rows rows') : missingRows ts rows = missingRows ts rows' := by
  rw [missingRows.eq_def ts rows, missingRows.eq_def ts rows', matched.isEmpty_eq,
    refutableColumns_eq h matched]
  refine if_congr Iff.rfl rfl ?_
  cases refutableColumns ts.length rows' with
  | nil => rfl
  | cons column more =>
    cases more with
    | nil =>
      dsimp only
      split
      · rfl
      · rename_i t found
        have := Ty.size_lt_of_getElem? found
        have cells := matched.filterMap fun _ _ related => rel_cell related column
        have unasked : rows.any (fun row => (row.cell column).isNone) =
            rows'.any fun row => (row.cell column).isNone :=
          matched.any_eq fun _ _ related => isNone_cell_eq related column
        rw [unasked, missing_eq h t cells]
    | cons _ _ =>
      dsimp only
      split
      · rfl
      · rename_i t found
        have := Ty.sizes_eraseIdx_lt found
        have rest (value : Bool) :
            missingRows (ts.eraseIdx column)
              ((rows.filter (·.admits column value)).map (·.eraseIdx column)) =
            missingRows (ts.eraseIdx column)
              ((rows'.filter (·.admits column value)).map (·.eraseIdx column)) :=
          missingRows_eq h (ts.eraseIdx column) <|
            (matched.filter fun _ _ related => admits_eq h related column value).map
              fun _ _ related => Ty.forall₂_eraseIdx related column
        simp only [rest]
termination_by Ty.sizes ts
decreasing_by all_goals omega

end

end Search

end StellaLang.Coverage
