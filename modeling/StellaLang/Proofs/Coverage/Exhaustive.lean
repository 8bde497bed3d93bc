import StellaLang.Proofs.Coverage.Accepted
import StellaLang.Proofs.Coverage.Rows

/-! Exhaustiveness. Patterns that the checker accepts for values of a data type leave none of
them out if no gap is found. The search for gaps goes down the type, so soundness is
proved along it: for one type, and for the columns of a product. -/
namespace StellaLang

namespace Ty

mutual

/-- Types built from truth values, numbers, the unit value, tuples, sums, records, variants and
lists, with no label twice. -/
def isData : Ty → Bool
  | bool | nat | unit => true
  | tuple ts => allData ts
  | sum l r => l.isData && r.isData
  | record fs => decide (fs.map (·.1)).Nodup && allFieldsData fs
  | variant fs => decide (fs.map (·.1)).Nodup && allAlternativesData fs
  | list t => t.isData
  | _ => false

def allData : List Ty → Bool
  | [] => true
  | t :: ts => t.isData && allData ts

def allFieldsData : List (String × Ty) → Bool
  | [] => true
  | (_, t) :: fs => t.isData && allFieldsData fs

def allAlternativesData : List (String × Option Ty) → Bool
  | [] => true
  | (_, none) :: fs => allAlternativesData fs
  | (_, some t) :: fs => t.isData && allAlternativesData fs

end

end Ty

namespace Coverage

open Syntax (Pattern)
open Syntax.Pattern

section Flat

variable {ps : List (Located Pattern)}

theorem catches_of_missingBool (covered : missingBool ps = []) (b : Bool) :
    ∃ p ∈ ps, catches p (.bool b) = true := by
  have listed : b ∈ ps.filterMap bool? := by
    rw [missingBool, List.append_eq_nil_iff] at covered
    cases b with
    | true => simpa using covered.1
    | false => simpa using covered.2
  obtain ⟨p, member, shape⟩ := List.mem_filterMap.mp listed
  refine ⟨p, member, ?_⟩
  rw [catches_strip, strip_of_bool shape]
  exact beq_self_eq_true b

theorem catches_of_missingList {t : Ty} (covered : missingList ps = [])
    (fits : ∀ p ∈ ps, Fits (.list t) p) {vs : List Value} (typed : HasType (.list vs) (.list t)) :
    ∃ p ∈ ps, catches p (.list vs) = true := by
  rw [missingList, List.append_eq_nil_iff] at covered
  cases vs with
  | nil =>
    have listed : ps.any isNil = true := by simpa using covered.1
    obtain ⟨p, member, shape⟩ := List.any_eq_true.mp listed
    refine ⟨p, member, ?_⟩
    rw [catches_strip, strip_of_nil shape]
    rfl
  | cons v vs =>
    have listed : ps.any isAnyCons = true := by simpa using covered.2
    obtain ⟨p, member, shape⟩ := List.any_eq_true.mp listed
    obtain ⟨h, tail, stripped, anyHead, anyTail⟩ := strip_of_anyCons shape
    have suits := suits_strip ((fits p member).suits _ typed)
    rw [stripped] at suits
    refine ⟨p, member, ?_⟩
    rw [catches_strip, stripped, catchesNode, catches_of_irrefutable anyHead suits.1,
      catches_of_irrefutable anyTail suits.2]
    rfl

/-- Every alternative has a pattern, and the payloads of those that carry one are covered. -/
theorem missingAlternatives_eq_nil_iff {fs : List (String × Option Ty)} :
    missingAlternatives fs ps = [] ↔ ∀ l payload, (l, payload) ∈ fs →
      ps.filterMap (payload? l) ≠ [] ∧ ∀ t, payload = some t →
        (ps.filterMap (payload? l)).filterMap id = [] ∨
          missing t ((ps.filterMap (payload? l)).filterMap id) = [] := by
  induction fs with
  | nil => simp [missingAlternatives]
  | cons f fs ih =>
    obtain ⟨m, carried⟩ := f
    have split (P : String → Option Ty → Prop) : (∀ l payload, (l, payload) ∈ (m, carried) :: fs → P l payload) ↔
        P m carried ∧ ∀ l payload, (l, payload) ∈ fs → P l payload := by
      simp only [List.mem_cons, Prod.mk.injEq]
      grind
    rw [split, ← ih]
    cases carried with
    | none =>
      rw [missingAlternatives, List.append_eq_nil_iff]
      simp
    | some u =>
      rw [missingAlternatives, List.append_eq_nil_iff]
      refine and_congr_left fun _ => ?_
      generalize ps.filterMap (payload? m) = payloads
      generalize payloads.filterMap id = inner
      cases payloads <;> cases inner <;> simp

/-- A constructor of a sum is covered if there are patterns for it and these cover its
values. -/
theorem missing_of_nested {t : Ty} {none : Gap} {wrap : Gap → Gap}
    (covered : (if ps.isEmpty then [none] else (missing t ps).map wrap) = []) : missing t ps = [] := by
  split at covered
  · contradiction
  · exact List.map_eq_nil_iff.mp covered

end Flat

section Columns

/-- A column in which no row may fail to match is left alone. -/
theorem irrefutable_of_not_mem {width column : Nat} {rows : List Row}
    (settled : column ∉ refutableColumns width rows) (within : column < width) {row : Row}
    (member : row ∈ rows) {p : Located Pattern} (cell : row.cell column = some p) :
    isIrrefutable p = true := by
  by_contra refutable
  refine settled (List.mem_filter.mpr ⟨List.mem_range.mpr within, ?_⟩)
  refine List.any_eq_true.mpr ⟨row, member, ?_⟩
  simpa [Row.isRefutableAt, cell] using refutable

theorem lt_of_mem_refutable {width column : Nat} {rows : List Row}
    (member : column ∈ refutableColumns width rows) : column < width :=
  List.mem_range.mp (List.mem_filter.mp member).1

/-- Rows that can be refuted are there. -/
theorem ne_nil_of_refutable {width column : Nat} {rows : List Row}
    (refutable : column ∈ refutableColumns width rows) : rows ≠ [] := by
  rintro rfl
  simp [refutableColumns] at refutable

section Search

variable {ts : List Ty} {rows : List Row} {column another : Nat} {more : List Nat} {t : Ty}

theorem missingRows_single (single : refutableColumns ts.length rows = [column])
    (found : ts[column]? = some t) : missingRows ts rows =
      if rows.any fun row => (row.cell column).isNone then []
      else (missing t (rows.filterMap (·.cell column))).map fun g => (anyRow ts.length).set column g := by
  have present : rows ≠ [] := ne_nil_of_refutable (single ▸ List.mem_singleton_self column)
  rw [missingRows.eq_def, if_neg (by simpa using present), single]
  dsimp only
  split
  · rename_i absent
    rw [found] at absent
    contradiction
  · rename_i u here
    obtain rfl : u = t := Option.some.inj (here.symm.trans found)
    rfl

theorem missingRows_several (several : refutableColumns ts.length rows = column :: another :: more)
    (found : ts[column]? = some t) : missingRows ts rows =
      if t.isBool then
        [true, false].flatMap fun value => (missingRows (ts.eraseIdx column)
          ((rows.filter (·.admits column value)).map (·.eraseIdx column))).map
            (·.insertIdx column (.bool value))
      else [anyRow ts.length] := by
  have present : rows ≠ [] := ne_nil_of_refutable (several ▸ List.mem_cons_self)
  rw [missingRows.eq_def, if_neg (by simpa using present), several]
  dsimp only
  split
  · rename_i absent
    rw [found] at absent
    contradiction
  · rename_i u here
    obtain rfl : u = t := Option.some.inj (here.symm.trans found)
    rfl

/-- With one refutable column, that column is to be covered. -/
theorem missingRows_single_iff (single : refutableColumns ts.length rows = [column])
    (found : ts[column]? = some t) : missingRows ts rows = [] ↔
      (∃ row ∈ rows, row.cell column = none) ∨ missing t (rows.filterMap (·.cell column)) = [] := by
  rw [missingRows_single single found]
  split
  · rename_i unasked
    exact iff_of_true rfl (.inl (by simpa using unasked))
  · rename_i asked
    have asked : ¬∃ row ∈ rows, row.cell column = none := by simpa using asked
    rw [List.map_eq_nil_iff, or_iff_right asked]

/-- With several, the first one must hold truth values and is split. -/
theorem missingRows_several_iff (several : refutableColumns ts.length rows = column :: another :: more)
    (found : ts[column]? = some t) : missingRows ts rows = [] ↔
      t = .bool ∧ ∀ value, missingRows (ts.eraseIdx column)
        ((rows.filter (·.admits column value)).map (·.eraseIdx column)) = [] := by
  rw [missingRows_several several found]
  cases t with
  | bool => simp [Ty.isBool, and_comm]
  | _ => simp [Ty.isBool]

/-- A refutable column has a type. -/
theorem exists_of_mem_refutable (refutable : column ∈ refutableColumns ts.length rows) :
    ∃ t, ts[column]? = some t := by
  have within := lt_of_mem_refutable refutable
  exact ⟨ts[column], List.getElem?_eq_getElem within⟩

end Search

/-- A row matches if it does in the columns in which some row may fail to. -/
theorem catches_of_refutable {ts : List Ty} {rows : List Row} {row : Row} (member : row ∈ rows)
    (fits : row.Fits ts) {vs : List Value} (typed : HasTypes vs ts)
    (decided : ∀ column ∈ refutableColumns ts.length rows, ∀ p v, row.cell column = some p →
      vs[column]? = some v → catches p v = true) : row.Catches vs := by
  refine fits.catches typed fun i p v cell atV refutable => ?_
  by_cases settled : i ∈ refutableColumns ts.length rows
  · exact decided i settled p v cell atV
  · obtain ⟨bound, -⟩ := List.getElem?_eq_some_iff.mp atV
    rw [irrefutable_of_not_mem settled (typed.length ▸ bound) member cell] at refutable
    contradiction

end Columns

/-- That patterns which fit a type match all its values if no gap is found. -/
def Sound (t : Ty) : Prop :=
  ∀ ps : List (Located Pattern), (∀ p ∈ ps, Fits t p) → missing t ps = [] →
    ∀ v, HasType v t → ∃ p ∈ ps, catches p v = true

/-- The same for the rows of a product. -/
def SoundRows (ts : List Ty) : Prop :=
  ∀ rows : List Row, (∀ row ∈ rows, row.Fits ts) → missingRows ts rows = [] →
    ∀ vs, HasTypes vs ts → ∃ row ∈ rows, row.Catches vs

/-- What holds a pattern, such as a pattern around it or a row, is found by the pattern. -/
theorem Sound.through {α : Type} {t : Ty} (sound : Sound t) {view : α → Option (Located Pattern)}
    {xs : List α} (fits : ∀ x ∈ xs, ∀ p, view x = some p → Fits t p)
    (covered : missing t (xs.filterMap view) = []) {v : Value} (typed : HasType v t) :
    ∃ x ∈ xs, ∃ p, view x = some p ∧ catches p v = true := by
  have inside : ∀ p ∈ xs.filterMap view, Fits t p := by
    intro p listed
    obtain ⟨x, member, shape⟩ := List.mem_filterMap.mp listed
    exact fits x member p shape
  obtain ⟨p, listed, caught⟩ := sound _ inside covered v typed
  obtain ⟨x, member, shape⟩ := List.mem_filterMap.mp listed
  exact ⟨x, member, p, shape, caught⟩

/-- The same for the patterns that are rows. -/
theorem SoundRows.through {ts : List Ty} (sound : SoundRows ts) {view : Located Pattern → Option Row}
    {ps : List (Located Pattern)} (fits : ∀ p ∈ ps, ∀ row, view p = some row → row.Fits ts)
    (covered : missingRows ts (ps.filterMap view) = []) {vs : List Value} (typed : HasTypes vs ts) :
    ∃ p ∈ ps, ∃ row, view p = some row ∧ row.Catches vs := by
  have inside : ∀ row ∈ ps.filterMap view, row.Fits ts := by
    intro row listed
    obtain ⟨p, member, shape⟩ := List.mem_filterMap.mp listed
    exact fits p member row shape
  obtain ⟨row, listed, caught⟩ := sound _ inside covered vs typed
  obtain ⟨p, member, shape⟩ := List.mem_filterMap.mp listed
  exact ⟨p, member, row, shape, caught⟩

section Shapes

/-- An irrefutable pattern leaves no value out, so it is enough to look at the shape of the
type if there is none. -/
theorem sound_of_refutable {t : Ty}
    (sound : ∀ ps : List (Located Pattern), (∀ p ∈ ps, Fits t p) →
      (t.isWildcard || ps.any isIrrefutable) = false → missing t ps = [] →
      ∀ v, HasType v t → ∃ p ∈ ps, catches p v = true) : Sound t := by
  intro ps fits covered v typed
  cases irrefutable : ps.any isIrrefutable with
  | true =>
    obtain ⟨p, member, always⟩ := List.any_eq_true.mp irrefutable
    exact ⟨p, member, (fits p member).catches always typed⟩
  | false => exact sound ps fits (by rw [typed.not_wildcard, irrefutable]; rfl) covered v typed

theorem sound_bool : Sound .bool := by
  refine sound_of_refutable fun ps fits refutable covered v typed => ?_
  rw [missing, refutable] at covered
  cases typed with
  | bool b => exact catches_of_missingBool covered b

theorem sound_unit : Sound .unit := by
  refine sound_of_refutable fun ps fits refutable covered v typed => ?_
  rw [missing, refutable] at covered
  contradiction

theorem sound_nat : Sound .nat := by
  refine sound_of_refutable fun ps fits refutable covered v typed => ?_
  rw [missing, refutable] at covered
  cases typed with
  | nat n =>
    exact missingNat_sound covered (fun p member => (fits p member).depth)
      fun p member => (fits p member).suits _ (.nat n)

theorem sound_list (t : Ty) : Sound (.list t) := by
  refine sound_of_refutable fun ps fits refutable covered v typed => ?_
  rw [missing, refutable] at covered
  cases typed with
  | list elements => exact catches_of_missingList covered fits (.list elements)

theorem sound_sum {l r : Ty} (left : Sound l) (right : Sound r) : Sound (.sum l r) := by
  refine sound_of_refutable fun ps fits refutable covered v typed => ?_
  rw [missing, refutable] at covered
  obtain ⟨inLeft, inRight⟩ := List.append_eq_nil_iff.mp covered
  cases typed with
  | inl inner =>
    obtain ⟨p, member, q, shape, caught⟩ := left.through
      (fun p member _ shape => (fits p member).inl shape) (missing_of_nested inLeft) inner
    refine ⟨p, member, ?_⟩
    rw [catches_strip, strip_of_inl shape]
    exact caught
  | inr inner =>
    obtain ⟨p, member, q, shape, caught⟩ := right.through
      (fun p member _ shape => (fits p member).inr shape) (missing_of_nested inRight) inner
    refine ⟨p, member, ?_⟩
    rw [catches_strip, strip_of_inr shape]
    exact caught

theorem sound_variant {fs : List (String × Option Ty)}
    (payloads : ∀ l t, (l, some t) ∈ fs → Sound t) : Sound (.variant fs) := by
  refine sound_of_refutable fun ps fits refutable covered v typed => ?_
  rw [missing, refutable] at covered
  cases typed with
  | @plain l _ found =>
    obtain ⟨listed, -⟩ := missingAlternatives_eq_nil_iff.mp covered _ _ (mem_of_lookup found)
    obtain ⟨payload, present⟩ := List.exists_mem_of_ne_nil _ listed
    obtain ⟨p, member, shape⟩ := List.mem_filterMap.mp present
    have suits := suits_strip ((fits p member).suits _ (.plain found))
    rw [strip_of_payload shape] at suits
    refine ⟨p, member, ?_⟩
    rw [catches_strip, strip_of_payload shape]
    cases payload with
    | none => exact beq_self_eq_true l
    | some q => exact absurd rfl suits
  | @carrying t v l _ found inner =>
    have entry := mem_of_lookup found
    obtain ⟨listed, nested⟩ := missingAlternatives_eq_nil_iff.mp covered _ _ entry
    rcases nested t rfl with none | nested
    · -- Patterns for the label that ask for no payload do not fit, as the type carries one.
      obtain ⟨payload, present⟩ := List.exists_mem_of_ne_nil _ listed
      obtain ⟨p, member, shape⟩ := List.mem_filterMap.mp present
      have suits := suits_strip ((fits p member).suits _ (.carrying found inner))
      rw [strip_of_payload shape] at suits
      cases payload with
      | none => exact absurd (suits rfl) (by simp)
      | some q =>
        have asked : q ∈ (ps.filterMap (payload? l)).filterMap id :=
          List.mem_filterMap.mpr ⟨some q, present, rfl⟩
        rw [none] at asked
        contradiction
    · rw [List.filterMap_filterMap] at nested
      obtain ⟨p, member, q, asked, caught⟩ := (payloads l t entry).through (fun p member q asked => by
        obtain ⟨payload, shape, rfl⟩ := Option.bind_eq_some_iff.mp asked
        exact (fits p member).payload shape found) nested inner
      obtain ⟨payload, shape, rfl⟩ := Option.bind_eq_some_iff.mp asked
      refine ⟨p, member, ?_⟩
      rw [catches_strip, strip_of_payload shape, catchesNode, beq_self_eq_true, Bool.true_and]
      exact caught

theorem sound_tuple {ts : List Ty} (rows : SoundRows ts) : Sound (.tuple ts) := by
  refine sound_of_refutable fun ps fits refutable covered v typed => ?_
  rw [missing, refutable] at covered
  cases typed with
  | tuple length elements =>
    obtain ⟨p, member, row, shape, caught⟩ := rows.through
      (fun p member _ shape => row_fits_of_tuple (fits p member) ⟨length, elements⟩ shape)
      (List.map_eq_nil_iff.mp covered) ⟨length, elements⟩
    exact ⟨p, member, catches_tuple_of_row ⟨length, elements⟩ shape caught⟩

theorem sound_record {fs : List (String × Ty)} (distinct : (fs.map (·.1)).Nodup)
    (rows : SoundRows (fs.map (·.2))) : Sound (.record fs) := by
  refine sound_of_refutable fun ps fits refutable covered v typed => ?_
  rw [missing, refutable] at covered
  cases v with
  | record ws =>
    obtain ⟨p, member, row, shape, caught⟩ := rows.through
      (fun p member _ shape => row_fits_of_record (fits p member) distinct typed shape)
      (List.map_eq_nil_iff.mp covered) (columns_typed typed)
    exact ⟨p, member, catches_record_of_row (fits p member) typed shape caught⟩
  | _ => contradiction

end Shapes

section Products

variable {ts : List Ty} {rows : List Row} {vs : List Value} {column : Nat}

/-- If no row may fail to match, one row is enough. -/
theorem catches_of_settled (present : rows ≠ []) (settled : refutableColumns ts.length rows = [])
    (fits : ∀ row ∈ rows, row.Fits ts) (typed : HasTypes vs ts) : ∃ row ∈ rows, row.Catches vs := by
  obtain ⟨row, member⟩ := List.exists_mem_of_ne_nil rows present
  refine ⟨row, member, catches_of_refutable member (fits row member) typed ?_⟩
  rw [settled]
  exact fun _ refutable => nomatch refutable

/-- If rows may fail to match in one column only, the cells of that column decide. -/
theorem catches_of_single {t : Ty} (sound : Sound t) (single : refutableColumns ts.length rows = [column])
    (found : ts[column]? = some t) (fits : ∀ row ∈ rows, row.Fits ts)
    (covered : (∃ row ∈ rows, row.cell column = none) ∨
      missing t (rows.filterMap (·.cell column)) = [])
    (typed : HasTypes vs ts) : ∃ row ∈ rows, row.Catches vs := by
  rcases covered with ⟨row, member, empty⟩ | covered
  · refine ⟨row, member, catches_of_refutable member (fits row member) typed ?_⟩
    rw [single]
    intro i here p v cell
    rw [List.mem_singleton.mp here, empty] at cell
    contradiction
  · obtain ⟨v, atV, typedV⟩ := typed.at_column found
    obtain ⟨row, member, p, cell, caught⟩ := sound.through
      (fun row member p cell => (fits row member).cells column p t cell found) covered typedV
    refine ⟨row, member, catches_of_refutable member (fits row member) typed ?_⟩
    rw [single]
    intro i here q w cell' atW
    cases List.mem_singleton.mp here
    cases cell.symm.trans cell'
    cases atV.symm.trans atW
    exact caught

/-- A row that admits a truth value matches it. -/
theorem catches_of_admits {row : Row} (fits : row.Fits ts) (found : ts[column]? = some .bool) {b : Bool}
    (admits : row.admits column b = true) {p : Located Pattern} (cell : row.cell column = some p) :
    catches p (.bool b) = true := by
  rw [Row.admits, cell, Option.all_some] at admits
  split at admits
  · rename_i c shape
    rw [catches_strip, strip_of_bool shape]
    exact admits
  · exact (fits.cells column p .bool cell found).catches admits (.bool b)

/-- Splitting a column of truth values leaves, for each of them, the rows that admit it. -/
theorem catches_of_split (rest : SoundRows (ts.eraseIdx column)) (found : ts[column]? = some .bool)
    (fits : ∀ row ∈ rows, row.Fits ts)
    (covered : ∀ value, missingRows (ts.eraseIdx column)
      ((rows.filter (·.admits column value)).map (·.eraseIdx column)) = [])
    (typed : HasTypes vs ts) : ∃ row ∈ rows, row.Catches vs := by
  obtain ⟨v, atV, typedV⟩ := typed.at_column found
  cases typedV with
  | bool b =>
    obtain ⟨short, listed, caught⟩ := rest _ (fun short listed => by
      obtain ⟨row, kept, rfl⟩ := List.mem_map.mp listed
      exact (fits row (List.mem_filter.mp kept).1).eraseIdx column) (covered b) _
      (typed.eraseIdx column)
    obtain ⟨row, kept, rfl⟩ := List.mem_map.mp listed
    obtain ⟨member, admits⟩ := List.mem_filter.mp kept
    refine ⟨row, member, Row.Catches.of_eraseIdx caught fun p w cell atW => ?_⟩
    cases atV.symm.trans atW
    exact catches_of_admits (fits row member) found admits cell

/-- The columns of a product are covered if each of their types is. -/
theorem soundRows {ts : List Ty} (each : ∀ t ∈ ts, Sound t) : SoundRows ts := by
  intro rows fits covered vs typed
  match columns : refutableColumns ts.length rows with
  | [] =>
    have present : rows ≠ [] := by
      rintro rfl
      rw [missingRows] at covered
      contradiction
    exact catches_of_settled present columns fits typed
  | [column] =>
    obtain ⟨t, found⟩ := exists_of_mem_refutable (columns ▸ List.mem_singleton_self column)
    have sound := each t (List.mem_of_getElem? found)
    exact catches_of_single sound columns found fits ((missingRows_single_iff columns found).mp covered) typed
  | column :: _ :: _ =>
    have refutable : column ∈ refutableColumns ts.length rows := columns ▸ List.mem_cons_self
    obtain ⟨t, found⟩ := exists_of_mem_refutable refutable
    have within := lt_of_mem_refutable refutable
    obtain ⟨rfl, covered⟩ := (missingRows_several_iff columns found).mp covered
    have below : ∀ t ∈ ts.eraseIdx column, Sound t := fun t member =>
      each t (List.mem_of_mem_eraseIdx member)
    exact catches_of_split (soundRows below) found fits covered typed
termination_by ts.length
decreasing_by
  rw [List.length_eraseIdx_of_lt within]
  exact Nat.sub_one_lt_of_lt within

end Products

mutual

/-- The search for gaps misses none in the values of a data type. -/
theorem sound_of_data {t : Ty} (data : t.isData = true) : Sound t := by
  match t with
  | .bool => exact sound_bool
  | .nat => exact sound_nat
  | .unit => exact sound_unit
  | .list t => exact sound_list t
  | .sum l r =>
    rw [Ty.isData, Bool.and_eq_true] at data
    exact sound_sum (sound_of_data data.1) (sound_of_data data.2)
  | .variant fs =>
    rw [Ty.isData, Bool.and_eq_true] at data
    exact sound_variant (sound_of_alternatives data.2)
  | .tuple ts => exact sound_tuple (soundRows (sound_of_all data))
  | .record fs =>
    rw [Ty.isData, Bool.and_eq_true, decide_eq_true_eq] at data
    exact sound_record data.1 (soundRows (sound_of_fields data.2))
termination_by structural t

theorem sound_of_all {ts : List Ty} (data : Ty.allData ts = true) : ∀ t ∈ ts, Sound t := by
  match ts with
  | [] => exact fun _ member => nomatch member
  | t :: ts =>
    rw [Ty.allData, Bool.and_eq_true] at data
    rintro u (_ | ⟨_, later⟩)
    · exact sound_of_data data.1
    · exact sound_of_all data.2 u later
termination_by structural ts

theorem sound_of_fields {fs : List (String × Ty)} (data : Ty.allFieldsData fs = true) :
    ∀ t ∈ fs.map (·.2), Sound t := by
  match fs with
  | [] => exact fun _ member => nomatch member
  | (_, t) :: fs =>
    rw [Ty.allFieldsData, Bool.and_eq_true] at data
    rintro u (_ | ⟨_, later⟩)
    · exact sound_of_data data.1
    · exact sound_of_fields data.2 u later
termination_by structural fs

theorem sound_of_alternatives {fs : List (String × Option Ty)}
    (data : Ty.allAlternativesData fs = true) : ∀ l t, (l, some t) ∈ fs → Sound t := by
  match fs with
  | [] => exact fun _ _ member => nomatch member
  | (_, none) :: fs =>
    rw [Ty.allAlternativesData] at data
    rintro l u (_ | ⟨_, later⟩)
    exact sound_of_alternatives data l u later
  | (_, some t) :: fs =>
    rw [Ty.allAlternativesData, Bool.and_eq_true] at data
    rintro l u (_ | ⟨_, later⟩)
    · exact sound_of_data data.1
    · exact sound_of_alternatives data.2 l u later
termination_by structural fs

end

end Coverage

namespace Typing

open Syntax (Node Pattern)
open Syntax.Pattern (catches postOrder)

/-- Patterns that are accepted for a data type match each of its values if no gap is found. -/
theorem accepted_exhaustive (ctx : Context) {t : Ty} {ps : List (Located Pattern)}
    (data : t.isData = true) (accepted : ∀ p ∈ ps, Accepted ctx t p)
    (fixed : ∀ p ∈ ps, Fixed ctx (postOrder p))
    (regular : ∀ p ∈ ps, Coverage.Regular (postOrder p)) (covered : Coverage.missing t ps = []) :
    ∀ v, HasType v t → ∃ p ∈ ps, catches p v = true := by
  have fits : ∀ p ∈ ps, Coverage.Fits t p := fun p member => {
    suits := fun _ typed => (accepted p member).suits (fixed p member) typed
    regular := regular p member }
  exact Coverage.sound_of_data data ps fits covered

/-- A switch and a count. -/
def gauge : Ty := .tuple [.bool, .nat]

def gaugePatterns : List (Located Pattern) :=
  [⟨.tuple [⟨.bool true, none⟩, ⟨.ascribed ⟨.var "n", none⟩ ⟨.nat, none⟩, none⟩], none⟩,
    ⟨.tuple [⟨.bool false, none⟩, ⟨.nat 0, none⟩], none⟩,
    ⟨.tuple [⟨.bool false, none⟩, ⟨.succ ⟨.var "n", none⟩, none⟩], none⟩]

theorem gauge_exhaustive :
    gauge.isData = true ∧ (∀ p ∈ gaugePatterns, Accepted {} gauge p) ∧
      (∀ p ∈ gaugePatterns, Fixed {} (postOrder p)) ∧
      (∀ p ∈ gaugePatterns, Coverage.Regular (postOrder p)) ∧
      Coverage.missing gauge gaugePatterns = [] ∧
      ∀ v, HasType v gauge → ∃ p ∈ gaugePatterns, catches p v = true := by
  have data : gauge.isData = true := rfl
  have accepted : ∀ p ∈ gaugePatterns, Accepted {} gauge p := by
    intro p member
    refine ⟨{}, .start {}, rfl, ?_⟩
    revert p
    decide +kernel
  have fixed : ∀ p ∈ gaugePatterns, Fixed {} (postOrder p) := by
    intro p member
    refine .of_check ?_
    revert p
    decide +kernel
  have regular : ∀ p ∈ gaugePatterns, Coverage.Regular (postOrder p) := by
    intro p member
    refine .of_check ?_
    revert p
    decide +kernel
  have covered : Coverage.missing gauge gaugePatterns = [] := by decide +kernel
  exact ⟨data, accepted, fixed, regular, covered,
    accepted_exhaustive {} data accepted fixed regular covered⟩

/-- An alias may hide a wildcard, below which a pattern is accepted for all values. -/
theorem veiled_not_exhaustive :
    ¬∀ (ctx : Context) (t : Ty) (ps : List (Located Pattern)), t.isData = true →
      (∀ p ∈ ps, Accepted ctx t p) →
      (∀ p ∈ ps, ∀ position, Node.type ⟨.auto, position⟩ ∉ postOrder p) →
      (∀ p ∈ ps, Coverage.Regular (postOrder p)) → Coverage.missing t ps = [] →
      ∀ v, HasType v t → ∃ p ∈ ps, catches p v = true := by
  intro exhaustive
  let veiled : Context := { aliases := [("X", .unknown)] }
  let veil : Located Pattern := ⟨.ascribed ⟨.unit, none⟩ ⟨.var "X", none⟩, none⟩
  have accepted : Accepted veiled .nat veil := ⟨{}, .start {}, rfl, by decide +kernel⟩
  have regular : Coverage.Regular (postOrder veil) := .of_check (by decide +kernel)
  have covered : Coverage.missing .nat [veil] = [] := by decide +kernel
  have written (position : Option Position) : Node.type ⟨.auto, position⟩ ∉ postOrder veil := by
    simp [veil, postOrder, Syntax.Pattern.inside, Syntax.TypeExpr.postOrder, Syntax.TypeExpr.inside]
  obtain ⟨p, member, caught⟩ := exhaustive veiled .nat [veil] rfl (by simpa using accepted)
    (by simpa using written) (by simpa using regular) covered (.nat 0) (.nat 0)
  rw [List.mem_singleton.mp member] at caught
  contradiction

end Typing

end StellaLang
