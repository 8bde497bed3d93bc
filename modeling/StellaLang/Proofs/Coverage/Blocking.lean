import StellaLang.Proofs.Coverage.Exhaustive
import StellaLang.Proofs.Ty.Spoiling

/-! Matches of values that are known less well. Where a part of the type is an error, every pattern
is taken to cover it; but a product is split by its first refutable column only if the type of that
column says that it holds truth values, so an error in that place blocks the search. Main statement:
cases that cover a type cover the type with errors in it exactly if the search is not blocked. -/
namespace StellaLang.Coverage

open Syntax (Pattern)
open Syntax.Pattern
open Ty (Spoilt Labelled)

mutual

/-- The search through a type meets a product that it cannot split: several columns may be refuted,
and the type of the first of them is an error. -/
inductive Blocked : Ty → List (Located Pattern) → Prop where
  | left (open_ : ps.any isIrrefutable = false) (inner : Blocked l (ps.filterMap inl?)) :
      Blocked (.sum l r) ps
  | right (open_ : ps.any isIrrefutable = false) (inner : Blocked r (ps.filterMap inr?)) :
      Blocked (.sum l r) ps
  | alternative (open_ : ps.any isIrrefutable = false) (member : (l, some t) ∈ fs)
      (carried : (ps.filterMap (payload? l)).filterMap id ≠ [])
      (inner : Blocked t ((ps.filterMap (payload? l)).filterMap id)) : Blocked (.variant fs) ps
  | tuple (open_ : ps.any isIrrefutable = false)
      (rows : BlockedRows ts (ps.filterMap (Row.ofTuple? ts.length))) : Blocked (.tuple ts) ps
  | record (open_ : ps.any isIrrefutable = false)
      (rows : BlockedRows (fs.map (·.2)) (ps.filterMap (Row.ofRecord? (fs.map (·.1))))) :
      Blocked (.record fs) ps

inductive BlockedRows : List Ty → List Row → Prop where
  | column (only : refutableColumns ts.length rows = [column]) (found : ts[column]? = some t)
      (whole : ∀ row ∈ rows, row.cell column ≠ none)
      (inner : Blocked t (rows.filterMap (·.cell column))) : BlockedRows ts rows
  | split (value : Bool) (several : refutableColumns ts.length rows = column :: another :: more)
      (found : ts[column]? = some .bool)
      (rest : BlockedRows (ts.eraseIdx column)
        ((rows.filter (·.admits column value)).map (·.eraseIdx column))) : BlockedRows ts rows
  | error (several : refutableColumns ts.length rows = column :: another :: more)
      (found : ts[column]? = some .error) : BlockedRows ts rows

end

section Blocks

/-- Without an irrefutable pattern, the shape of a type that is known says where to search. -/
theorem searched {t : Ty} {ps : List (Located Pattern)} (known : t.isWildcard = false)
    (open_ : ps.any isIrrefutable = false) : (t.isWildcard || ps.any isIrrefutable) = false := by
  rw [known, open_, Bool.or_self]

mutual

/-- A blocked search finds a gap. -/
theorem missing_ne_nil {t : Ty} {ps : List (Located Pattern)} (h : Blocked t ps) : missing t ps ≠ [] := by
  intro covered
  cases h with
  | left open_ inner =>
    rw [missing, searched rfl open_] at covered
    exact missing_ne_nil inner (missing_of_nested (List.append_eq_nil_iff.mp covered).1)
  | right open_ inner =>
    rw [missing, searched rfl open_] at covered
    exact missing_ne_nil inner (missing_of_nested (List.append_eq_nil_iff.mp covered).2)
  | alternative open_ member carried inner =>
    have smaller := Ty.size_lt_of_mem_alternatives member
    rw [missing, searched rfl open_] at covered
    obtain ⟨-, nested⟩ := missingAlternatives_eq_nil_iff.mp covered _ _ member
    exact (nested _ rfl).elim carried (missing_ne_nil inner)
  | tuple open_ rows =>
    rw [missing, searched rfl open_] at covered
    exact missingRows_ne_nil rows (List.map_eq_nil_iff.mp covered)
  | record open_ rows =>
    have sameSize := Ty.sizes_map_snd
    rw [missing, searched rfl open_] at covered
    exact missingRows_ne_nil rows (List.map_eq_nil_iff.mp covered)
termination_by t.size
decreasing_by
  all_goals subst_vars
  all_goals simp only [Ty.size, Ty.sizes_map_snd]
  all_goals omega

theorem missingRows_ne_nil {ts : List Ty} {rows : List Row} (h : BlockedRows ts rows) :
    missingRows ts rows ≠ [] := by
  intro covered
  cases h with
  | column only found whole inner =>
    have smaller := Ty.size_lt_of_getElem? found
    rcases (missingRows_single_iff only found).mp covered with ⟨row, member, empty⟩ | covered
    · exact whole row member empty
    · exact missing_ne_nil inner covered
  | split value several found rest =>
    have smaller := Ty.sizes_eraseIdx_lt found
    exact missingRows_ne_nil rest (((missingRows_several_iff several found).mp covered).2 value)
  | error several found =>
    cases ((missingRows_several_iff several found).mp covered).1
termination_by Ty.sizes ts

end

end Blocks

section Spoiling

/-- That patterns which cover a type cover it with errors in it too, or else block the search. -/
def Steady (t : Ty) : Prop :=
  ∀ u, Spoilt t u → ∀ ps, missing t ps = [] → missing u ps = [] ∨ Blocked u ps

theorem missingAlternatives_spoilt {fs gs : List (String × Option Ty)}
    (payloads : List.Forall₂ (Labelled (Option.Rel Spoilt)) fs gs)
    (each : ∀ l t, (l, some t) ∈ fs → Steady t) {ps : List (Located Pattern)}
    (covered : missingAlternatives fs ps = []) :
    missingAlternatives gs ps = [] ∨ ∃ l u, (l, some u) ∈ gs ∧
      (ps.filterMap (payload? l)).filterMap id ≠ [] ∧
      Blocked u ((ps.filterMap (payload? l)).filterMap id) := by
  rw [missingAlternatives_eq_nil_iff] at covered ⊢
  by_cases blocked : ∃ l u, (l, some u) ∈ gs ∧ (ps.filterMap (payload? l)).filterMap id ≠ [] ∧
    Blocked u ((ps.filterMap (payload? l)).filterMap id)
  · exact .inr blocked
  left
  intro l payload' member
  obtain ⟨⟨m, payload⟩, inside, same, carried⟩ := exists_of_mem_right payloads member
  obtain rfl : m = l := same
  obtain ⟨listed, nested⟩ := covered m payload inside
  refine ⟨listed, ?_⟩
  rintro u rfl
  cases carried with
  | @some t _ carried =>
    rcases nested t rfl with none | covered
    · exact .inl none
    · by_cases none : (ps.filterMap (payload? m)).filterMap id = []
      · exact .inl none
      · have steady := each m t inside u carried _ covered
        exact .inr (steady.resolve_right fun inner => blocked ⟨m, u, member, none, inner⟩)

theorem missingRows_spoilt {ts us : List Ty} (elements : List.Forall₂ Spoilt ts us)
    (each : ∀ t ∈ ts, Steady t) {rows : List Row} (covered : missingRows ts rows = []) :
    missingRows us rows = [] ∨ BlockedRows us rows := by
  have present : rows ≠ [] := by
    rintro rfl
    rw [missingRows] at covered
    contradiction
  cases columns : refutableColumns ts.length rows with
  | nil =>
    rw [elements.length_eq] at columns
    rw [missingRows.eq_def us, columns]
    exact .inl (by simpa using present)
  | cons column more =>
    have refutable : column ∈ refutableColumns ts.length rows := columns ▸ List.mem_cons_self
    obtain ⟨t, found⟩ := exists_of_mem_refutable refutable
    obtain ⟨u, found', related⟩ := exists_getElem?_right elements found
    cases more with
    | nil =>
      rw [missingRows_single_iff columns found] at covered
      rw [elements.length_eq] at columns
      rw [missingRows_single_iff columns found']
      by_cases unasked : ∃ row ∈ rows, row.cell column = none
      · exact .inl (.inl unasked)
      · have whole : ∀ row ∈ rows, row.cell column ≠ none := fun row member empty =>
          unasked ⟨row, member, empty⟩
        rw [or_iff_right unasked] at covered
        rcases each t (List.mem_of_getElem? found) u related _ covered with covered | blocked
        · exact .inl (.inr covered)
        · exact .inr (.column columns found' whole blocked)
    | cons another more =>
      have within := lt_of_mem_refutable refutable
      obtain ⟨rfl, covered⟩ := (missingRows_several_iff columns found).mp covered
      rw [elements.length_eq] at columns
      rcases related.of_constant (c := .bool) with rfl | rfl
      · have rest (value : Bool) := missingRows_spoilt (Ty.forall₂_eraseIdx elements column)
          (fun v member => each v (List.mem_of_mem_eraseIdx member)) (covered value)
        rw [missingRows_several_iff columns found']
        rcases rest true with covered | blocked
        · rcases rest false with covered' | blocked
          · exact .inl ⟨rfl, Bool.forall_bool.mpr ⟨covered', covered⟩⟩
          · exact .inr (.split false columns found' blocked)
        · exact .inr (.split true columns found' blocked)
      · exact .inr (.error columns found')
termination_by ts.length
decreasing_by
  rw [List.length_eraseIdx_of_lt within]
  exact Nat.sub_one_lt_of_lt within

/-- Cases that cover the values of one constructor. -/
theorem nested_spoilt {t u : Ty} (steady : Steady t) (related : Spoilt t u) {ps : List (Located Pattern)}
    {none : Gap} {wrap : Gap → Gap}
    (covered : (if ps.isEmpty then [none] else (missing t ps).map wrap) = []) :
    (if ps.isEmpty then [none] else (missing u ps).map wrap) = [] ∨ Blocked u ps := by
  split at covered
  · contradiction
  · rename_i listed
    rw [if_neg listed, List.map_eq_nil_iff]
    exact steady u related ps (List.map_eq_nil_iff.mp covered)

theorem steady (t : Ty) : Steady t := by
  intro u h ps covered
  cases open_ : ps.any isIrrefutable with
  | true => exact .inl (by rw [missing.eq_def, open_, Bool.or_true]; rfl)
  | false =>
  cases h.shape with
  | error => exact .inl (by rw [missing.eq_def]; rfl)
  | constant c => exact .inl covered
  | list element =>
    rw [missing, searched rfl open_] at covered ⊢
    exact .inl covered
  | sum left right =>
    rw [missing, searched rfl open_] at covered ⊢
    obtain ⟨inLeft, inRight⟩ := List.append_eq_nil_iff.mp covered
    rcases nested_spoilt (steady _) left inLeft with first | blocked
    · rcases nested_spoilt (steady _) right inRight with second | blocked
      · exact .inl (List.append_eq_nil_iff.mpr ⟨first, second⟩)
      · exact .inr (.right open_ blocked)
    · exact .inr (.left open_ blocked)
  | @variant fs gs payloads =>
    have each : ∀ l t, (l, some t) ∈ fs → Steady t := by
      intro l t member
      have smaller := Ty.size_lt_of_mem_alternatives member
      exact steady t
    rw [missing, searched rfl open_] at covered ⊢
    rcases missingAlternatives_spoilt payloads each covered with covered | ⟨l, u, member, carried, inner⟩
    · exact .inl covered
    · exact .inr (.alternative open_ member carried inner)
  | @tuple ts us elements =>
    have each : ∀ t ∈ ts, Steady t := by
      intro t member
      have smaller := Ty.size_lt_of_mem member
      exact steady t
    rw [missing, searched rfl open_] at covered ⊢
    have rows := missingRows_spoilt elements each (List.map_eq_nil_iff.mp covered)
    rw [elements.length_eq] at rows
    exact rows.imp List.map_eq_nil_iff.mpr (.tuple open_)
  | @record fs gs fields =>
    have each : ∀ t ∈ fs.map (·.2), Steady t := by
      intro t member
      have smaller : t.size < Ty.fieldSizes fs := Ty.sizes_map_snd fs ▸ Ty.size_lt_of_mem member
      exact steady t
    rw [missing, searched rfl open_] at covered ⊢
    have rows := missingRows_spoilt (Ty.map_snd fields) each (List.map_eq_nil_iff.mp covered)
    rw [Ty.map_fst fields] at rows
    exact rows.imp List.map_eq_nil_iff.mpr (.record open_)
  | _ =>
    rw [missing.eq_def, searched rfl open_] at covered
    contradiction
termination_by t.size
decreasing_by
  all_goals subst_vars
  all_goals simp only [Ty.size]
  all_goals omega

/-- Cases that cover a type cover it with errors in it exactly if the search is not blocked. -/
theorem missing_spoilt_iff {t u : Ty} (h : Spoilt t u) {ps : List (Located Pattern)}
    (covered : missing t ps = []) : missing u ps = [] ↔ ¬Blocked u ps := by
  constructor
  · exact fun covered blocked => missing_ne_nil blocked covered
  · exact (steady t u h ps covered).resolve_right

end Spoiling

end StellaLang.Coverage
