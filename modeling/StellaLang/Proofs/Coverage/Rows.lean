import StellaLang.Proofs.Coverage.Fitting

/-! The columns of a product. Tuple and record patterns that fit a type are rows whose cells fit
the types of the columns, and such a row matches the columns of a value only if the
pattern matches the value. -/
namespace StellaLang.Coverage

open Syntax (Pattern)
open Syntax.Pattern

/-- Values of each of some types. -/
structure HasTypes (vs : List Value) (ts : List Ty) : Prop where
  length : vs.length = ts.length
  elements : ∀ (i : Nat) v t, vs[i]? = some v → ts[i]? = some t → HasType v t

namespace HasTypes

variable {vs : List Value} {ts : List Ty}

theorem at_column (typed : HasTypes vs ts) {column : Nat} {t : Ty} (found : ts[column]? = some t) :
    ∃ v, vs[column]? = some v ∧ HasType v t := by
  obtain ⟨bound, -⟩ := List.getElem?_eq_some_iff.mp found
  have within : column < vs.length := typed.length ▸ bound
  have here := List.getElem?_eq_getElem within
  exact ⟨vs[column], here, typed.elements column _ t here found⟩

theorem set (typed : HasTypes vs ts) {column : Nat} {t : Ty} (found : ts[column]? = some t)
    {w : Value} (replaced : HasType w t) : HasTypes (vs.set column w) ts := by
  refine ⟨(List.length_set ..).trans typed.length, fun i v u atV atU => ?_⟩
  rw [List.getElem?_set] at atV
  split at atV
  · rename_i same
    subst same
    split at atV
    · cases atV
      cases found.symm.trans atU
      exact replaced
    · contradiction
  · exact typed.elements i v u atV atU

theorem eraseIdx (typed : HasTypes vs ts) (column : Nat) :
    HasTypes (vs.eraseIdx column) (ts.eraseIdx column) := by
  constructor
  · rw [List.length_eraseIdx, List.length_eraseIdx, typed.length]
  · intro i v t atV atT
    rw [List.getElem?_eraseIdx] at atV atT
    split at atV
    · exact typed.elements i v t atV (by simpa [*] using atT)
    · exact typed.elements (i + 1) v t atV (by simpa [*] using atT)

end HasTypes

namespace Row

/-- That each cell is made for the values of its column. -/
structure Fits (row : Row) (ts : List Ty) : Prop where
  length : row.length = ts.length
  cells : ∀ (i : Nat) p t, row.cell i = some p → ts[i]? = some t → Coverage.Fits t p

/-- Whether each cell matches the value in its column. -/
def Catches (row : Row) (vs : List Value) : Prop :=
  ∀ (i : Nat) p v, row.cell i = some p → vs[i]? = some v → catches p v = true

theorem cell_eq (row : Row) (column : Nat) : row.cell column = row[column]?.getD none :=
  List.getD_eq_getElem?_getD

theorem cell_eraseIdx (row : Row) (column i : Nat) :
    Row.cell (List.eraseIdx row column) i = row.cell (if i < column then i else i + 1) := by
  rw [cell_eq, cell_eq, List.getElem?_eraseIdx]
  split <;> rfl

theorem Fits.eraseIdx {row : Row} {ts : List Ty} (fits : row.Fits ts) (column : Nat) :
    Row.Fits (List.eraseIdx row column) (ts.eraseIdx column) := by
  constructor
  · rw [List.length_eraseIdx, List.length_eraseIdx, fits.length]
  · intro i p t cell found
    rw [cell_eraseIdx] at cell
    rw [List.getElem?_eraseIdx] at found
    split at found
    · exact fits.cells i p t (by simpa [*] using cell) found
    · exact fits.cells (i + 1) p t (by simpa [*] using cell) found

/-- A row matches if it does without a column, and in the column. -/
theorem Catches.of_eraseIdx {row : Row} {vs : List Value} {column : Nat}
    (caught : Row.Catches (List.eraseIdx row column) (vs.eraseIdx column))
    (here : ∀ p v, row.cell column = some p → vs[column]? = some v → catches p v = true) :
    row.Catches vs := by
  intro i p v cell atV
  rcases Nat.lt_trichotomy i column with before | rfl | after
  · refine caught i p v ?_ ?_
    · rw [cell_eraseIdx, if_pos before]
      exact cell
    · rw [List.getElem?_eraseIdx, if_pos before]
      exact atV
  · exact here p v cell atV
  · obtain ⟨j, rfl⟩ := Nat.exists_eq_add_of_lt after
    refine caught (column + j) p v ?_ ?_
    · rw [cell_eraseIdx, if_neg (by omega)]
      exact cell
    · rw [List.getElem?_eraseIdx, if_neg (by omega)]
      exact atV

/-- Irrefutable cells match, so a row matches if the others do. -/
theorem Fits.catches {row : Row} {ts : List Ty} (fits : row.Fits ts) {vs : List Value}
    (typed : HasTypes vs ts)
    (others : ∀ (i : Nat) p v, row.cell i = some p → vs[i]? = some v → isIrrefutable p = false →
      Pattern.catches p v = true) : row.Catches vs := by
  intro i p v cell atV
  cases irrefutable : isIrrefutable p with
  | false => exact others i p v cell atV irrefutable
  | true =>
    obtain ⟨bound, -⟩ := List.getElem?_eq_some_iff.mp atV
    have found := List.getElem?_eq_getElem (typed.length ▸ bound)
    exact (fits.cells i p _ cell found).catches irrefutable (typed.elements i v _ atV found)

end Row

section Tuples

variable {ts : List Ty} {p : Located Pattern} {row : Row} {vs : List Value}

theorem cell_map_some {ps : List (Located Pattern)} {i : Nat} {q : Located Pattern}
    (cell : Row.cell (ps.map some) i = some q) : ps[i]? = some q := by
  rw [Row.cell_eq, List.getElem?_map] at cell
  cases found : ps[i]? with
  | none => simp [found] at cell
  | some r => simpa [found] using cell

theorem row_fits_of_tuple (fits : Fits (.tuple ts) p) (typed : HasTypes vs ts)
    (shape : Row.ofTuple? ts.length p = some row) : row.Fits ts := by
  obtain ⟨ps, stripped, length, rfl⟩ := strip_of_tuple shape
  refine ⟨(List.length_map ..).trans length, fun i q t cell found => ?_⟩
  have atP := cell_map_some cell
  refine fits.part stripped (postOrderAll_of_mem (List.mem_of_getElem? atP)) fun w replaced => ?_
  have whole := typed.set found replaced
  refine ⟨.tuple (vs.set i w), .tuple whole.length whole.elements, fun suits => ?_⟩
  obtain ⟨bound, -⟩ := List.getElem?_eq_some_iff.mp found
  exact suitsAll_getElem? suits atP (List.getElem?_set_self (typed.length ▸ bound))

theorem catches_tuple_of_row (typed : HasTypes vs ts) (shape : Row.ofTuple? ts.length p = some row)
    (caught : row.Catches vs) : catches p (.tuple vs) = true := by
  obtain ⟨ps, stripped, length, rfl⟩ := strip_of_tuple shape
  rw [catches_strip, stripped]
  refine catchesAll_of_getElem? (length.trans typed.length.symm) fun i q v atP atV => ?_
  refine caught i q v ?_ atV
  rw [Row.cell_eq, List.getElem?_map, atP]
  rfl

end Tuples

section Records

variable {fs : List (String × Ty)} {p : Located Pattern} {row : Row} {ws : List (String × Value)}

/-- The fields that a record type asks for, in its order. -/
def columns (fs : List (String × Ty)) (ws : List (String × Value)) : List Value :=
  fs.map fun f => (ws.lookup f.1).getD .unit

theorem getElem?_columns {i : Nat} {l : String} {t : Ty} (found : fs[i]? = some (l, t)) {v : Value}
    (field : ws.lookup l = some v) : (columns fs ws)[i]? = some v := by
  rw [columns, List.getElem?_map, found]
  simp [field]

theorem columns_typed (typed : HasType (.record ws) (.record fs)) :
    HasTypes (columns fs ws) (fs.map (·.2)) := by
  cases typed with
  | record present fields =>
    refine ⟨by rw [columns, List.length_map, List.length_map], fun i v t atV atT => ?_⟩
    rw [List.getElem?_map] at atT
    obtain ⟨⟨l, u⟩, found, rfl⟩ := Option.map_eq_some_iff.mp atT
    have member := List.mem_of_getElem? found
    obtain ⟨w, field⟩ := present l u member
    rw [getElem?_columns found field] at atV
    cases atV
    exact fields l u v member field

/-- A field with another value of its type gives a record of the same type. -/
theorem record_cons_typed (distinct : (fs.map (·.1)).Nodup)
    (typed : HasType (.record ws) (.record fs)) {l : String} {t : Ty} (member : (l, t) ∈ fs)
    {w : Value} (replaced : HasType w t) : HasType (.record ((l, w) :: ws)) (.record fs) := by
  cases typed with
  | record present fields =>
    refine .record (fun m u listed => ?_) fun m u v listed found => ?_
    · rw [List.lookup_cons]
      split
      · exact ⟨w, rfl⟩
      · exact present m u listed
    · rw [List.lookup_cons] at found
      split at found
      · rename_i same
        cases found
        cases eq_of_beq same
        cases (lookup_of_nodup distinct listed).symm.trans (lookup_of_nodup distinct member)
        exact replaced
      · exact fields m u v listed found

theorem row_fits_of_record (fits : Fits (.record fs) p) (distinct : (fs.map (·.1)).Nodup)
    (typed : HasType (.record ws) (.record fs))
    (shape : Row.ofRecord? (fs.map (·.1)) p = some row) : row.Fits (fs.map (·.2)) := by
  obtain ⟨gs, stripped, rfl⟩ := strip_of_record shape
  refine ⟨by simp, fun i q t cell found => ?_⟩
  rw [List.getElem?_map] at found
  obtain ⟨⟨l, u⟩, column, rfl⟩ := Option.map_eq_some_iff.mp found
  have listed : gs.lookup l = some q := by
    rw [Row.cell_eq, List.getElem?_map, List.getElem?_map, column] at cell
    exact cell
  have member := mem_of_lookup listed
  refine fits.part stripped (postOrderFields_of_mem member) fun w replaced => ?_
  have whole := record_cons_typed distinct typed (List.mem_of_getElem? column) replaced
  refine ⟨.record ((l, w) :: ws), whole, fun suits => ?_⟩
  obtain ⟨v, here, suits⟩ := suitsFields_mem suits member
  rw [List.lookup_cons_self] at here
  cases here
  exact suits

/-- The record without the fields that its type does not ask for. -/
theorem trimmed_typed (typed : HasType (.record ws) (.record fs)) :
    HasType (.record (fs.map fun f => (f.1, (ws.lookup f.1).getD .unit))) (.record fs) := by
  cases typed with
  | record present fields =>
    refine .record (fun l t member => ?_) fun l t v member found => ?_
    · apply Option.isSome_iff_exists.mp
      rw [List.lookup_isSome_iff]
      exact ⟨_, List.mem_map.mpr ⟨(l, t), member, rfl⟩, beq_self_eq_true l⟩
    · obtain ⟨⟨m, u⟩, listed, same⟩ := List.mem_map.mp (mem_of_lookup found)
      obtain ⟨rfl, rfl⟩ := Prod.mk.inj same
      obtain ⟨w, field⟩ := present m t member
      exact fields m t _ member (by simp [field])

/-- A pattern only lists fields that its type asks for, so no field of it is left out of
the row. -/
theorem catches_record_of_row (fits : Fits (.record fs) p) (typed : HasType (.record ws) (.record fs))
    (shape : Row.ofRecord? (fs.map (·.1)) p = some row) (caught : row.Catches (columns fs ws)) :
    catches p (.record ws) = true := by
  obtain ⟨gs, stripped, rfl⟩ := strip_of_record shape
  rw [catches_strip, stripped]
  refine catchesFields_of_mem fun l q member => ?_
  have trimmed := suits_strip (fits.suits _ (trimmed_typed typed))
  rw [stripped] at trimmed
  obtain ⟨v, found, -⟩ := suitsFields_mem trimmed member
  obtain ⟨⟨m, t⟩, asked, same⟩ := List.mem_map.mp (mem_of_lookup found)
  obtain ⟨rfl, -⟩ := Prod.mk.inj same
  cases typed with
  | record present fields =>
    obtain ⟨w, field⟩ := present m t asked
    obtain ⟨i, column⟩ := List.mem_iff_getElem?.mp asked
    refine ⟨w, field, caught i q w ?_ (getElem?_columns column field)⟩
    rw [Row.cell_eq, List.getElem?_map, List.getElem?_map, column]
    exact lookup_of_nodup (fits.labels stripped) member

end Records

end StellaLang.Coverage
