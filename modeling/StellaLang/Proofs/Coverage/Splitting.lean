import StellaLang.Proofs.Coverage.Exhaustive
import StellaLang.Proofs.Coverage.Gaps

/-! Products of truth values. Each column that rows may be refuted in is split into its two values,
so the gaps that are found describe the very vectors which no row matches. -/
namespace StellaLang.Coverage

open Syntax (Pattern)
open Syntax.Pattern

/-- That a pattern is for a truth value, as an irrefutable one is for both. -/
def MatchesBool (p : Located Pattern) (b : Bool) : Prop :=
  isIrrefutable p = true ∨ bool? p = some b

section Patterns

variable {p : Located Pattern} {b : Bool}

theorem isIrrefutable_of_bool (shape : bool? p = some b) : isIrrefutable p = false := by
  rw [isIrrefutable_strip, strip_of_bool shape]
  rfl

theorem matchesBool_iff_catches (suits : Suits p (.bool b)) :
    MatchesBool p b ↔ catches p (.bool b) = true := by
  constructor
  · rintro (irrefutable | shape)
    · exact catches_of_irrefutable irrefutable suits
    · rw [catches_strip, strip_of_bool shape]
      exact beq_self_eq_true b
  · intro caught
    cases irrefutable : isIrrefutable p with
    | true => exact .inl irrefutable
    | false => exact .inr (bool?_of_catches irrefutable caught)

theorem mem_missing_bool {ps : List (Located Pattern)} {g : Gap} :
    g ∈ missing .bool ps ↔ ∃ b, g = .bool b ∧ ∀ p ∈ ps, ¬MatchesBool p b := by
  cases settled : Ty.bool.isWildcard || ps.any isIrrefutable with
  | true =>
    obtain ⟨p, member, always⟩ := List.any_eq_true.mp settled
    rw [missing.eq_def, if_pos settled]
    refine iff_of_false List.not_mem_nil ?_
    rintro ⟨b, -, missed⟩
    exact missed p member (.inl always)
  | false =>
    have refutable := List.any_eq_false.mp settled
    have literals (b : Bool) : (∀ p ∈ ps, ¬MatchesBool p b) ↔ (ps.filterMap bool?).contains b = false := by
      simp only [MatchesBool, not_or, List.contains_eq_mem, decide_eq_false_iff_not, List.mem_filterMap,
        not_exists, not_and]
      exact forall₂_congr fun p member => and_iff_right (refutable p member)
    simp only [literals]
    rw [missing, settled]
    change g ∈ missingBool ps ↔ _
    rw [missingBool, List.mem_append, Bool.exists_bool, or_comm]
    refine or_congr ?_ ?_
    · cases (ps.filterMap bool?).contains false <;> simp
    · cases (ps.filterMap bool?).contains true <;> simp

end Patterns

namespace Row

/-- Whether each cell is for the truth value in its column. An empty cell is for both. -/
def Matches (row : Row) (bs : List Bool) : Prop :=
  ∀ (i : Nat) p b, row.cell i = some p → bs[i]? = some b → MatchesBool p b

variable {row : Row} {bs : List Bool} {column : Nat} {b : Bool}

/-- For cells that are made for truth values, this is what it is to match the product. -/
theorem matches_iff_catches (fits : row.Fits (List.replicate bs.length .bool)) :
    row.Matches bs ↔ row.Catches (bs.map .bool) := by
  have cells {i : Nat} {p : Located Pattern} {b : Bool} (cell : row.cell i = some p)
      (here : bs[i]? = some b) : MatchesBool p b ↔ catches p (.bool b) = true := by
    obtain ⟨bound, -⟩ := List.getElem?_eq_some_iff.mp here
    have found : (List.replicate bs.length Ty.bool)[i]? = some .bool := by
      rw [List.getElem?_replicate, if_pos bound]
    exact matchesBool_iff_catches ((fits.cells i p .bool cell found).suits _ (.bool b))
  constructor
  · intro matched i p v cell there
    rw [List.getElem?_map] at there
    obtain ⟨b, here, rfl⟩ := Option.map_eq_some_iff.mp there
    exact (cells cell here).mp (matched i p b cell here)
  · intro caught i p b cell here
    refine (cells cell here).mpr (caught i p (.bool b) cell ?_)
    rw [List.getElem?_map, here]
    rfl

theorem admits_iff : row.admits column b = true ↔ ∀ p, row.cell column = some p → MatchesBool p b := by
  rw [Row.admits]
  cases row.cell column with
  | none => simp
  | some p =>
    simp only [Option.all_some, Option.some.injEq, forall_eq', MatchesBool]
    cases shape : bool? p with
    | none => simp
    | some c => simp [isIrrefutable_of_bool shape]

/-- A row matches if it does in a column, and without the column. -/
theorem matches_iff_eraseIdx (here : bs[column]? = some b) : row.Matches bs ↔
    row.admits column b = true ∧ Row.Matches (List.eraseIdx row column) (bs.eraseIdx column) := by
  rw [admits_iff]
  constructor
  · intro matched
    refine ⟨fun p cell => matched column p b cell here, fun i p c cell there => ?_⟩
    rw [cell_eraseIdx] at cell
    rw [List.getElem?_eraseIdx] at there
    refine matched _ p c cell ?_
    split at there <;> simp [*]
  · rintro ⟨inside, outside⟩ i p c cell there
    rcases Nat.lt_trichotomy i column with before | rfl | after
    · refine outside i p c ?_ ?_
      · rw [cell_eraseIdx, if_pos before]
        exact cell
      · rw [List.getElem?_eraseIdx, if_pos before]
        exact there
    · obtain rfl : b = c := Option.some.inj (here.symm.trans there)
      exact inside p cell
    · obtain ⟨j, rfl⟩ := Nat.exists_eq_add_of_lt after
      refine outside (column + j) p c ?_ ?_
      · rw [cell_eraseIdx, if_neg (by omega)]
        exact cell
      · rw [List.getElem?_eraseIdx, if_neg (by omega)]
        exact there

end Row

section Gaps

theorem length_of_describesAll {gs : List Gap} {vs : List Value} (described : Gap.describesAll gs vs = true) :
    gs.length = vs.length := by
  induction gs generalizing vs with
  | nil =>
    cases vs with
    | nil => rfl
    | cons => contradiction
  | cons g gs ih =>
    cases vs with
    | nil => contradiction
    | cons v vs =>
      rw [Gap.describesAll, Bool.and_eq_true] at described
      exact congrArg Nat.succ (ih described.2)

theorem describesAll_anyRow (vs : List Value) : Gap.describesAll (anyRow vs.length) vs = true := by
  induction vs with
  | nil => rfl
  | cons v vs ih => exact ih

theorem describesAll_set {vs : List Value} {column : Nat} {v : Value} (here : vs[column]? = some v)
    (g : Gap) : Gap.describesAll ((anyRow vs.length).set column g) vs = g.describes v := by
  induction vs generalizing column with
  | nil => contradiction
  | cons w vs ih =>
    cases column with
    | zero =>
      obtain rfl : w = v := Option.some.inj here
      change (g.describes w && Gap.describesAll (anyRow vs.length) vs) = _
      rw [describesAll_anyRow, Bool.and_true]
    | succ column => exact ih here

theorem describesAll_insertIdx {gs : List Gap} {vs : List Value} (length : gs.length + 1 = vs.length)
    {column : Nat} {v : Value} (here : vs[column]? = some v) (g : Gap) :
    Gap.describesAll (gs.insertIdx column g) vs =
      (g.describes v && Gap.describesAll gs (vs.eraseIdx column)) := by
  induction column generalizing gs vs with
  | zero =>
    cases vs with
    | nil => contradiction
    | cons w vs =>
      obtain rfl : w = v := Option.some.inj here
      rfl
  | succ column ih =>
    cases vs with
    | nil => contradiction
    | cons w vs =>
      cases gs with
      | nil =>
        obtain rfl : vs = [] := List.length_eq_zero_iff.mp (Nat.succ.inj length).symm
        contradiction
      | cons h gs =>
        rw [List.insertIdx_succ_cons, List.eraseIdx_cons_succ, Gap.describesAll, Gap.describesAll,
          ih (Nat.succ.inj length) here, Bool.and_left_comm]

end Gaps

section Search

variable {ts : List Ty} {rows : List Row}

theorem missingRows_nil : missingRows ts [] = [anyRow ts.length] := by
  rw [missingRows.eq_def]
  rfl

theorem missingRows_settled (present : rows ≠ []) (settled : refutableColumns ts.length rows = []) :
    missingRows ts rows = [] := by
  rw [missingRows.eq_def, if_neg (by simpa using present), settled]

end Search

/-- The type of vectors of truth values. -/
abbrev bools (width : Nat) : List Ty :=
  List.replicate width .bool

theorem bools_getElem? {width column : Nat} (within : column < width) :
    (bools width)[column]? = some .bool := by
  rw [List.getElem?_replicate, if_pos within]

theorem map_bool_getElem? {bs : List Bool} {column : Nat} {b : Bool} (here : bs[column]? = some b) :
    (bs.map Value.bool)[column]? = some (.bool b) := by
  rw [List.getElem?_map, here, Option.map_some]

theorem lt_of_mem_refutable_bools {width column : Nat} {rows : List Row}
    (refutable : column ∈ refutableColumns (bools width).length rows) : column < width := by
  have within := lt_of_mem_refutable refutable
  rwa [List.length_replicate] at within

/-- What the gap of an only column describes. -/
theorem describesAll_set_bool {bs : List Bool} {column : Nat} {b : Bool} (here : bs[column]? = some b)
    (g : Gap) : Gap.describesAll ((anyRow (bools bs.length).length).set column g) (bs.map .bool) =
      g.describes (.bool b) := by
  have wide : (bools bs.length).length = (bs.map Value.bool).length := by simp
  rw [wide, describesAll_set (map_bool_getElem? here)]

theorem describesAll_any_bools (bs : List Bool) :
    Gap.describesAll (anyRow (bools bs.length).length) (bs.map .bool) = true := by
  have wide : (bools bs.length).length = (bs.map Value.bool).length := by simp
  rw [wide, describesAll_anyRow]

/-- A gap with a truth value put in describes the vectors with that truth value put in. -/
theorem describesAll_put {gs : List Gap} {bs : List Bool} (described : Gap.describesAll gs (bs.map .bool) = true)
    {column : Nat} (within : column ≤ bs.length) (value : Bool) :
    Gap.describesAll (gs.insertIdx column (.bool value)) ((bs.insertIdx column value).map .bool) = true := by
  have length := length_of_describesAll described
  have longer := List.length_insertIdx_of_le_length within value
  have here : (bs.insertIdx column value)[column]? = some value := by
    rw [List.getElem?_insertIdx_self, if_pos within]
  rw [List.length_map] at length
  rw [describesAll_insertIdx (by rw [List.length_map, longer, length]) (map_bool_getElem? here),
    List.eraseIdx_map, List.eraseIdx_insertIdx_self, described, Bool.and_true]
  exact beq_self_eq_true value

theorem missingRows_split {width column another : Nat} {more : List Nat} {rows : List Row}
    (several : refutableColumns (bools width).length rows = column :: another :: more) :
    missingRows (bools width) rows = [true, false].flatMap fun value =>
      (missingRows (bools (width - 1))
        ((rows.filter (·.admits column value)).map (·.eraseIdx column))).map
          (·.insertIdx column (.bool value)) := by
  have within := lt_of_mem_refutable_bools (several ▸ List.mem_cons_self)
  rw [missingRows_several several (bools_getElem? within), Ty.isBool, if_pos rfl,
    List.eraseIdx_replicate, if_pos within]

/-- Every gap describes some vector. -/
theorem exists_described {width : Nat} {rows : List Row} {gs : List Gap}
    (gap : gs ∈ missingRows (bools width) rows) :
    ∃ bs : List Bool, bs.length = width ∧ Gap.describesAll gs (bs.map .bool) = true := by
  by_cases present : rows = []
  · rw [present, missingRows_nil] at gap
    obtain ⟨bs, rfl⟩ : ∃ bs : List Bool, bs.length = width := ⟨List.replicate width true, by simp⟩
    exact ⟨bs, rfl, List.mem_singleton.mp gap ▸ describesAll_any_bools bs⟩
  match columns : refutableColumns (bools width).length rows with
  | [] =>
    rw [missingRows_settled present columns] at gap
    contradiction
  | [column] =>
    have within := lt_of_mem_refutable_bools (columns ▸ List.mem_singleton_self column)
    rw [missingRows_single columns (bools_getElem? within)] at gap
    split at gap
    · contradiction
    · obtain ⟨g, inside, rfl⟩ := List.mem_map.mp gap
      obtain ⟨b, rfl, -⟩ := mem_missing_bool.mp inside
      obtain ⟨bs, rfl, here⟩ : ∃ bs : List Bool, bs.length = width ∧ bs[column]? = some b :=
        ⟨List.replicate width b, by simp, by rw [List.getElem?_replicate, if_pos within]⟩
      exact ⟨bs, rfl, (describesAll_set_bool here _).trans (beq_self_eq_true b)⟩
  | column :: _ :: _ =>
    have within := lt_of_mem_refutable_bools (columns ▸ List.mem_cons_self)
    rw [missingRows_split columns, List.mem_flatMap] at gap
    obtain ⟨value, -, gap⟩ := gap
    obtain ⟨hs, below, rfl⟩ := List.mem_map.mp gap
    obtain ⟨bs, shorter, described⟩ := exists_described below
    have room : column ≤ bs.length := by omega
    have longer : (bs.insertIdx column value).length = width := by
      rw [List.length_insertIdx_of_le_length room, shorter]
      omega
    exact ⟨bs.insertIdx column value, longer, describesAll_put described room value⟩
termination_by width

section Vectors

variable {rows : List Row} {bs : List Bool} {column : Nat}

/-- A row matches if it does in the columns in which some row may fail to. -/
theorem matches_of_refutable {row : Row} (member : row ∈ rows)
    (decided : ∀ column ∈ refutableColumns (bools bs.length).length rows, ∀ p b,
      row.cell column = some p → bs[column]? = some b → MatchesBool p b) : row.Matches bs := by
  intro i p b cell here
  by_cases settled : i ∈ refutableColumns (bools bs.length).length rows
  · exact decided i settled p b cell here
  · obtain ⟨bound, -⟩ := List.getElem?_eq_some_iff.mp here
    exact .inl (irrefutable_of_not_mem settled (by rwa [List.length_replicate]) member cell)

/-- That the gaps found in the rows describe a vector of truth values. -/
def Described (rows : List Row) (bs : List Bool) : Prop :=
  ∃ gs ∈ missingRows (bools bs.length) rows, Gap.describesAll gs (bs.map .bool) = true

theorem described_nil (bs : List Bool) : Described [] bs :=
  ⟨_, missingRows_nil ▸ List.mem_singleton_self _, describesAll_any_bools bs⟩

/-- If rows may fail to match in one column only, that column decides. -/
theorem matches_iff_of_single (single : refutableColumns (bools bs.length).length rows = [column])
    {b : Bool} (here : bs[column]? = some b) {row : Row} (member : row ∈ rows) :
    row.Matches bs ↔ ∀ p, row.cell column = some p → MatchesBool p b := by
  refine ⟨fun matched p cell => matched column p b cell here, fun matched => ?_⟩
  refine matches_of_refutable member fun i refutable p c cell there => ?_
  rw [single, List.mem_singleton] at refutable
  subst refutable
  obtain rfl : b = c := Option.some.inj (here.symm.trans there)
  exact matched p cell

/-- If rows may fail to match in one column only, the gaps are those of the cells of that column. -/
theorem described_single (single : refutableColumns (bools bs.length).length rows = [column]) :
    Described rows bs ↔ ∀ row ∈ rows, ¬row.Matches bs := by
  have within := lt_of_mem_refutable_bools (single ▸ List.mem_singleton_self column)
  have here := List.getElem?_eq_getElem within
  generalize bs[column] = b at here
  have decides {row : Row} (member : row ∈ rows) := matches_iff_of_single single here member
  rw [Described, missingRows_single single (bools_getElem? within)]
  split
  · rename_i unasked
    obtain ⟨row, member, empty⟩ := List.any_eq_true.mp unasked
    refine iff_of_false (by simp) fun missed => missed row member ((decides member).mpr ?_)
    rw [Option.isNone_iff_eq_none.mp empty]
    exact fun p cell => nomatch cell
  · rename_i asked
    constructor
    · rintro ⟨gs, gap, described⟩ row member matched
      obtain ⟨g, inside, rfl⟩ := List.mem_map.mp gap
      obtain ⟨c, rfl, missed⟩ := mem_missing_bool.mp inside
      rw [describesAll_set_bool here] at described
      obtain rfl : c = b := eq_of_beq described
      obtain ⟨p, cell⟩ : ∃ p, row.cell column = some p := by
        rw [← Option.isSome_iff_exists, Option.isSome_iff_ne_none]
        intro empty
        exact asked (List.any_eq_true.mpr ⟨row, member, by rw [empty]; rfl⟩)
      exact missed p (List.mem_filterMap.mpr ⟨row, member, cell⟩) ((decides member).mp matched p cell)
    · intro missed
      refine ⟨_, List.mem_map_of_mem (mem_missing_bool.mpr ⟨b, rfl, fun p listed matched => ?_⟩), ?_⟩
      · obtain ⟨row, member, cell⟩ := List.mem_filterMap.mp listed
        refine missed row member ((decides member).mpr fun q cell' => ?_)
        obtain rfl : p = q := Option.some.inj (cell.symm.trans cell')
        exact matched
      · exact (describesAll_set_bool here _).trans (beq_self_eq_true b)

/-- Splitting a column leaves the gaps of the rows that admit the vector's own truth value. -/
theorem described_split {another : Nat} {more : List Nat}
    (several : refutableColumns (bools bs.length).length rows = column :: another :: more) {b : Bool}
    (here : bs[column]? = some b) : Described rows bs ↔
      Described ((rows.filter (·.admits column b)).map (·.eraseIdx column)) (bs.eraseIdx column) := by
  obtain ⟨within, -⟩ := List.getElem?_eq_some_iff.mp here
  rw [Described, Described, missingRows_split several, ← List.length_eraseIdx_of_lt within,
    ← List.eraseIdx_map]
  -- A gap with another truth value put in does not describe the vector.
  have put {hs : List Gap} {value : Bool} {below : List Row}
      (gap : hs ∈ missingRows (bools (bs.eraseIdx column).length) below) :
      Gap.describesAll (hs.insertIdx column (.bool value)) (bs.map .bool) = true ↔
        value = b ∧ Gap.describesAll hs ((bs.map Value.bool).eraseIdx column) = true := by
    have length : hs.length + 1 = (bs.map Value.bool).length := by
      obtain ⟨shorter, length, described⟩ := exists_described gap
      have same := length_of_describesAll described
      rw [List.length_eraseIdx_of_lt within] at length
      rw [List.length_map] at same ⊢
      omega
    rw [describesAll_insertIdx length (map_bool_getElem? here), Bool.and_eq_true]
    exact and_congr_left' beq_iff_eq
  constructor
  · rintro ⟨gs, gap, described⟩
    obtain ⟨value, -, gap⟩ := List.mem_flatMap.mp gap
    obtain ⟨hs, below, rfl⟩ := List.mem_map.mp gap
    obtain ⟨rfl, described⟩ := (put below).mp described
    exact ⟨hs, below, described⟩
  · rintro ⟨hs, gap, described⟩
    refine ⟨_, List.mem_flatMap.mpr ⟨b, by cases b <;> simp, List.mem_map_of_mem gap⟩, ?_⟩
    exact (put gap).mpr ⟨rfl, described⟩

/-- The gaps describe the vectors that no row matches. -/
theorem described_iff (rows : List Row) (bs : List Bool) :
    Described rows bs ↔ ∀ row ∈ rows, ¬row.Matches bs := by
  by_cases present : rows = []
  · subst present
    exact iff_of_true (described_nil bs) fun _ member => nomatch member
  match columns : refutableColumns (bools bs.length).length rows with
  | [] =>
    obtain ⟨row, member⟩ := List.exists_mem_of_ne_nil rows present
    have matched : row.Matches bs := matches_of_refutable member fun i refutable => by
      rw [columns] at refutable
      contradiction
    refine iff_of_false ?_ fun missed => missed row member matched
    rw [Described, missingRows_settled present columns]
    exact fun ⟨_, gap, _⟩ => nomatch gap
  | [column] => exact described_single columns
  | column :: _ :: _ =>
    have within := lt_of_mem_refutable_bools (columns ▸ List.mem_cons_self)
    have here := List.getElem?_eq_getElem within
    rw [described_split columns here, described_iff]
    simp only [List.forall_mem_map, List.mem_filter, and_imp]
    refine forall₂_congr fun row member => ?_
    rw [Row.matches_iff_eraseIdx here, not_and]
termination_by bs.length
decreasing_by
  rw [List.length_eraseIdx_of_lt within]
  exact Nat.sub_one_lt_of_lt within

end Vectors

/-- In a product of truth values the gaps found describe the vectors that no row matches, so there
are none exactly if every vector is matched. -/
theorem bool_columns_exact (width : Nat) (rows : List Row) :
    (∀ bs : List Bool, bs.length = width → ((∀ row ∈ rows, ¬row.Matches bs) ↔
      ∃ gs ∈ missingRows (List.replicate width .bool) rows, Gap.describesAll gs (bs.map .bool) = true)) ∧
    (missingRows (List.replicate width .bool) rows = [] ↔
      ∀ bs : List Bool, bs.length = width → ∃ row ∈ rows, row.Matches bs) := by
  refine ⟨fun bs length => ?_, fun covered bs length => ?_, fun matched => ?_⟩
  · subst length
    exact (described_iff rows bs).symm
  · subst length
    by_contra missed
    push Not at missed
    obtain ⟨gs, gap, -⟩ := (described_iff rows bs).mpr missed
    rw [covered] at gap
    contradiction
  · refine List.eq_nil_iff_forall_not_mem.mpr fun gs gap => ?_
    obtain ⟨bs, rfl, described⟩ := exists_described gap
    obtain ⟨row, member, caught⟩ := matched bs rfl
    exact (described_iff rows bs).mp ⟨gs, gap, described⟩ row member caught

/-- Two switches, and a case for each of them but not for both being off. -/
def switchRows : List Row :=
  [[some ⟨.bool true, none⟩, none],
    [some ⟨.ascribed ⟨.bool false, none⟩ ⟨.bool, none⟩, none⟩, some ⟨.bool true, none⟩]]

theorem switches_off_missed :
    [false, false].length = 2 ∧ ∃ gs ∈ missingRows (List.replicate 2 .bool) switchRows,
      Gap.describesAll gs [.bool false, .bool false] = true := by
  have length : [false, false].length = 2 := rfl
  refine ⟨length, ((bool_columns_exact 2 switchRows).1 [false, false] length).mp ?_⟩
  rintro row (_ | ⟨_, _ | ⟨_, _ | _⟩⟩) matched
  · rcases matched 0 _ false rfl rfl with irrefutable | shape <;> contradiction
  · rcases matched 1 _ false rfl rfl with irrefutable | shape <;> contradiction

end StellaLang.Coverage
