import Mathlib.Data.List.InsertIdx
import StellaLang.Coverage
import StellaLang.Proofs.Syntax.Retyping

/-! What a match leaves out depends on the shapes of its patterns alone: neither on ascriptions, nor
on the types that patterns name, nor on places. -/
namespace StellaLang

namespace Syntax.Pattern

mutual

/-- A pattern without ascriptions, and without types and places where it has others. -/
def plain : Located Pattern → Located Pattern
  | ⟨p, _⟩ => ⟨plainNode p, none⟩

def plainNode : Pattern → Pattern
  | castAs p _ => castAs (plain p) ⟨.auto, none⟩
  | ascribed p _ => (plain p).node
  | variant l none => variant l none
  | variant l (some p) => variant l (some (plain p))
  | inl p => inl (plain p)
  | inr p => inr (plain p)
  | tuple ps => tuple (plainAll ps)
  | record fs => record (plainFields fs)
  | list ps => list (plainAll ps)
  | cons h t => cons (plain h) (plain t)
  | succ p => succ (plain p)
  | bool b => bool b
  | unit => unit
  | nat n => nat n
  | var x => var x

def plainAll : List (Located Pattern) → List (Located Pattern)
  | [] => []
  | p :: ps => plain p :: plainAll ps

def plainFields : List (String × Located Pattern) → List (String × Located Pattern)
  | [] => []
  | (l, p) :: fs => (l, plain p) :: plainFields fs

end

theorem plainAll_eq (ps : List (Located Pattern)) : plainAll ps = ps.map plain := by
  induction ps with
  | nil => rfl
  | cons p ps ih => rw [plainAll, ih, List.map_cons]

theorem lookup_plainFields (fs : List (String × Located Pattern)) (l : String) :
    (plainFields fs).lookup l = (fs.lookup l).map plain := by
  induction fs with
  | nil => rfl
  | cons f fs ih =>
    obtain ⟨m, p⟩ := f
    rw [plainFields, List.lookup_cons, List.lookup_cons, ih]
    split <;> rfl

section Retyping

variable (h : Retyping) (f : Option Position → Option Position) (bound : List String)

mutual

theorem plain_retype (p : Located Pattern) : plain (retype h f bound p) = plain p := by
  obtain ⟨p, position⟩ := p
  exact congrArg (Located.mk · none) (plainNode_retype p)
termination_by structural p

theorem plainNode_retype (p : Pattern) : plainNode (retypeNode h f bound p) = plainNode p := by
  cases p with
  | bool | unit | nat | var => rfl
  | castAs p t => exact congrArg (castAs · ⟨.auto, none⟩) (plain_retype p)
  | ascribed p t => exact congrArg Located.node (plain_retype p)
  | variant l payload =>
    cases payload with
    | none => rfl
    | some p => exact congrArg (fun p => variant l (some p)) (plain_retype p)
  | inl p => exact congrArg inl (plain_retype p)
  | inr p => exact congrArg inr (plain_retype p)
  | succ p => exact congrArg succ (plain_retype p)
  | tuple ps => exact congrArg tuple (plainAll_retype ps)
  | list ps => exact congrArg list (plainAll_retype ps)
  | record fs => exact congrArg record (plainFields_retype fs)
  | cons p q => exact congrArg₂ cons (plain_retype p) (plain_retype q)
termination_by structural p

theorem plainAll_retype (ps : List (Located Pattern)) :
    plainAll (retypeAll h f bound ps) = plainAll ps := by
  match ps with
  | [] => rfl
  | p :: ps => exact congrArg₂ List.cons (plain_retype p) (plainAll_retype ps)
termination_by structural ps

theorem plainFields_retype (fs : List (String × Located Pattern)) :
    plainFields (retypeFields h f bound fs) = plainFields fs := by
  match fs with
  | [] => rfl
  | (l, p) :: fs =>
    exact congrArg₂ (fun p fs => (l, p) :: fs) (plain_retype p) (plainFields_retype fs)
termination_by structural fs

end

end Retyping

mutual

theorem strip_plain (p : Located Pattern) : strip (plain p) = plainNode (strip p) := by
  obtain ⟨p, position⟩ := p
  exact strip_plainNode p
termination_by structural p

theorem strip_plainNode (p : Pattern) :
    strip.stripNode (plainNode p) = plainNode (strip.stripNode p) := by
  cases p with
  | ascribed p t =>
    have inner := strip_plain p
    obtain ⟨p, position⟩ := p
    exact inner
  | variant l payload => cases payload <;> rfl
  | _ => rfl
termination_by structural p

end

mutual

@[simp] theorem isIrrefutable_plain (p : Located Pattern) :
    isIrrefutable (plain p) = isIrrefutable p := by
  obtain ⟨p, position⟩ := p
  exact isIrrefutableNode_plain p
termination_by structural p

theorem isIrrefutableNode_plain (p : Pattern) :
    isIrrefutableNode (plainNode p) = isIrrefutableNode p := by
  cases p with
  | ascribed p t =>
    have inner := isIrrefutable_plain p
    obtain ⟨p, position⟩ := p
    exact inner
  | tuple ps => exact allIrrefutable_plain ps
  | record fs => exact allFieldsIrrefutable_plain fs
  | variant l payload => cases payload <;> rfl
  | _ => rfl
termination_by structural p

theorem allIrrefutable_plain (ps : List (Located Pattern)) :
    allIrrefutable (plainAll ps) = allIrrefutable ps := by
  match ps with
  | [] => rfl
  | p :: ps => exact congrArg₂ and (isIrrefutable_plain p) (allIrrefutable_plain ps)
termination_by structural ps

theorem allFieldsIrrefutable_plain (fs : List (String × Located Pattern)) :
    allFieldsIrrefutable (plainFields fs) = allFieldsIrrefutable fs := by
  match fs with
  | [] => rfl
  | (_, p) :: fs => exact congrArg₂ and (isIrrefutable_plain p) (allFieldsIrrefutable_plain fs)
termination_by structural fs

end

mutual

/-- No ascription is left around what was stripped. -/
theorem strip_ne_ascribed (p q : Located Pattern) (t : Located TypeExpr) : strip p ≠ ascribed q t := by
  obtain ⟨p, position⟩ := p
  exact stripNode_ne_ascribed p q t
termination_by structural p

theorem stripNode_ne_ascribed (p : Pattern) (q : Located Pattern) (t : Located TypeExpr) :
    strip.stripNode p ≠ ascribed q t := by
  cases p with
  | ascribed p _ => exact strip_ne_ascribed p q t
  | _ => exact Pattern.noConfusion
termination_by structural p

end

section Views

variable (p : Located Pattern)

@[simp] theorem bool?_plain : bool? (plain p) = bool? p := by
  unfold bool?
  rw [strip_plain]
  cases stripped : strip p with
  | ascribed q t => exact absurd stripped (strip_ne_ascribed p q t)
  | variant l payload => cases payload <;> rfl
  | _ => rfl

theorem inl?_plain : inl? (plain p) = (inl? p).map plain := by
  unfold inl?
  rw [strip_plain]
  cases stripped : strip p with
  | ascribed q t => exact absurd stripped (strip_ne_ascribed p q t)
  | variant l payload => cases payload <;> rfl
  | _ => rfl

theorem inr?_plain : inr? (plain p) = (inr? p).map plain := by
  unfold inr?
  rw [strip_plain]
  cases stripped : strip p with
  | ascribed q t => exact absurd stripped (strip_ne_ascribed p q t)
  | variant l payload => cases payload <;> rfl
  | _ => rfl

theorem payload?_plain (l : String) : payload? l (plain p) = (payload? l p).map (Option.map plain) := by
  unfold payload?
  rw [strip_plain]
  cases stripped : strip p with
  | ascribed q t => exact absurd stripped (strip_ne_ascribed p q t)
  | variant m payload =>
    cases payload <;> simp only [plainNode] <;> split <;> rfl
  | _ => rfl

@[simp] theorem isNil_plain : isNil (plain p) = isNil p := by
  unfold isNil
  rw [strip_plain]
  cases stripped : strip p with
  | ascribed q t => exact absurd stripped (strip_ne_ascribed p q t)
  | variant l payload => cases payload <;> rfl
  | list ps => cases ps <;> rfl
  | _ => rfl

@[simp] theorem isAnyCons_plain : isAnyCons (plain p) = isAnyCons p := by
  unfold isAnyCons
  rw [strip_plain]
  cases stripped : strip p with
  | ascribed q t => exact absurd stripped (strip_ne_ascribed p q t)
  | variant l payload => cases payload <;> rfl
  | cons h t => exact congrArg₂ and (isIrrefutable_plain h) (isIrrefutable_plain t)
  | _ => rfl

end Views

end Syntax.Pattern

namespace Coverage

open Syntax (Pattern)
open Syntax.Pattern

mutual

@[simp] theorem of?_plain (p : Located Pattern) : NatShape.of? (plain p) = NatShape.of? p := by
  obtain ⟨p, position⟩ := p
  exact ofNode?_plain p
termination_by structural p

theorem ofNode?_plain (p : Pattern) :
    NatShape.of?.ofNode? (plainNode p) = NatShape.of?.ofNode? p := by
  cases p with
  | ascribed p t =>
    have inner := of?_plain p
    obtain ⟨p, position⟩ := p
    exact inner
  | succ p => exact congrArg (Option.map NatShape.succ) (of?_plain p)
  | tuple ps =>
    have same := isIrrefutableNode_plain (.tuple ps)
    simp only [plainNode, NatShape.of?.ofNode?] at same ⊢
    rw [same]
  | record fs =>
    have same := isIrrefutableNode_plain (.record fs)
    simp only [plainNode, NatShape.of?.ofNode?] at same ⊢
    rw [same]
  | variant l payload => cases payload <;> rfl
  | _ => rfl
termination_by structural p

end

/-- What a view of patterns takes out of plain patterns is what it takes out of them, made plain. -/
theorem filterMap_plain {view : Located Pattern → Option α} {change : α → α}
    (each : ∀ p, view (plain p) = (view p).map change) (ps : List (Located Pattern)) :
    (ps.map plain).filterMap view = (ps.filterMap view).map change := by
  rw [List.filterMap_map, List.map_filterMap]
  exact congrArg (List.filterMap · ps) (funext each)

namespace Row

def plain (row : Row) : Row :=
  row.map (Option.map Pattern.plain)

theorem ofTuple?_plain (width : Nat) (p : Located Pattern) :
    ofTuple? width (Pattern.plain p) = (ofTuple? width p).map plain := by
  unfold ofTuple?
  rw [strip_plain]
  cases stripped : strip p with
  | ascribed q t => exact absurd stripped (strip_ne_ascribed p q t)
  | tuple ps =>
    simp only [plainNode, plainAll_eq, List.length_map]
    split <;> simp [plain]
  | variant l payload => cases payload <;> rfl
  | _ => rfl

theorem ofRecord?_plain (labels : List String) (p : Located Pattern) :
    ofRecord? labels (Pattern.plain p) = (ofRecord? labels p).map plain := by
  unfold ofRecord?
  rw [strip_plain]
  cases stripped : strip p with
  | ascribed q t => exact absurd stripped (strip_ne_ascribed p q t)
  | record fs => simp [plainNode, plain, lookup_plainFields]
  | variant l payload => cases payload <;> rfl
  | _ => rfl

@[simp] theorem cell_plain (row : Row) (column : Nat) :
    row.plain.cell column = (row.cell column).map Pattern.plain := by
  simp only [cell, plain, List.getD_eq_getElem?_getD, List.getElem?_map]
  cases row[column]? <;> rfl

@[simp] theorem isRefutableAt_plain (row : Row) (column : Nat) :
    row.plain.isRefutableAt column = row.isRefutableAt column := by
  simp only [isRefutableAt, cell_plain]
  cases row.cell column <;> simp

@[simp] theorem admits_plain (row : Row) (column : Nat) (value : Bool) :
    row.plain.admits column value = row.admits column value := by
  simp only [admits, cell_plain]
  cases row.cell column <;> simp

theorem eraseIdx_plain (row : Row) (column : Nat) :
    row.plain.eraseIdx column = plain (row.eraseIdx column) :=
  List.eraseIdx_map ..

end Row

theorem refutableColumns_plain (width : Nat) (rows : List Row) :
    refutableColumns width (rows.map Row.plain) = refutableColumns width rows := by
  simp [refutableColumns, Function.comp_def]

theorem missingBool_plain (ps : List (Located Pattern)) : missingBool (ps.map plain) = missingBool ps := by
  simp [missingBool]

theorem missingList_plain (ps : List (Located Pattern)) : missingList (ps.map plain) = missingList ps := by
  simp [missingList, Function.comp_def]

theorem missingNat_plain (ps : List (Located Pattern)) : missingNat (ps.map plain) = missingNat ps := by
  have shapes : (ps.map plain).filterMap NatShape.of? = ps.filterMap NatShape.of? := by
    rw [List.filterMap_map]
    exact congrArg (List.filterMap · ps) (funext of?_plain)
  rw [missingNat, missingNat, shapes]

/-- The cells of a column. -/
theorem filterMap_cell_plain (rows : List Row) (column : Nat) :
    (rows.map Row.plain).filterMap (·.cell column) = (rows.filterMap (·.cell column)).map plain := by
  rw [List.filterMap_map, List.map_filterMap]
  exact congrArg (List.filterMap · rows) (funext fun row => Row.cell_plain row column)

/-- The rows that admit a truth value in a column, without that column. -/
theorem split_plain (rows : List Row) (column : Nat) (value : Bool) :
    ((rows.map Row.plain).filter (·.admits column value)).map (·.eraseIdx column) =
      ((rows.filter (·.admits column value)).map (·.eraseIdx column)).map Row.plain := by
  simp [List.filter_map, Function.comp_def, Row.eraseIdx_plain]

mutual

/-- Patterns leave out what they leave out when made plain. -/
theorem missing_plain (t : Ty) (ps : List (Located Pattern)) : missing t (ps.map plain) = missing t ps := by
  have refutable : (ps.map plain).any isIrrefutable = ps.any isIrrefutable := by
    simp [Function.comp_def]
  rw [missing.eq_def t (ps.map plain), missing.eq_def t ps, refutable]
  refine if_congr Iff.rfl rfl ?_
  cases t with
  | bool => exact missingBool_plain ps
  | nat => exact missingNat_plain ps
  | list => exact missingList_plain ps
  | sum l r =>
    dsimp only
    rw [filterMap_plain inl?_plain, filterMap_plain inr?_plain, List.isEmpty_map, List.isEmpty_map,
      missing_plain l, missing_plain r]
  | variant fs => exact missingAlternatives_plain fs ps
  | tuple ts =>
    dsimp only
    rw [filterMap_plain (Row.ofTuple?_plain _), missingRows_plain ts]
  | record fs =>
    have := Ty.sizes_map_snd fs
    dsimp only
    rw [filterMap_plain (Row.ofRecord?_plain _), missingRows_plain (fs.map (·.2))]
  | _ => rfl
termination_by t.size
decreasing_by all_goals (simp only [Ty.size]; omega)

theorem missingAlternatives_plain (fs : List (String × Option Ty)) (ps : List (Located Pattern)) :
    missingAlternatives fs (ps.map plain) = missingAlternatives fs ps := by
  match fs with
  | [] => rw [missingAlternatives, missingAlternatives]
  | (l, none) :: fs =>
    rw [missingAlternatives, missingAlternatives, filterMap_plain (payload?_plain · l),
      List.isEmpty_map, missingAlternatives_plain fs]
  | (l, some t) :: fs =>
    have inner : ((ps.filterMap (payload? l)).map (Option.map plain)).filterMap id =
        ((ps.filterMap (payload? l)).filterMap id).map plain := by
      rw [List.filterMap_map, List.map_filterMap]
      rfl
    rw [missingAlternatives, missingAlternatives, filterMap_plain (payload?_plain · l),
      List.isEmpty_map, inner, List.isEmpty_map, missing_plain t, missingAlternatives_plain fs]
termination_by Ty.alternativeSizes fs
decreasing_by all_goals (simp only [Ty.alternativeSizes]; omega)

theorem missingRows_plain (ts : List Ty) (rows : List Row) :
    missingRows ts (rows.map Row.plain) = missingRows ts rows := by
  rw [missingRows.eq_def ts (rows.map Row.plain), missingRows.eq_def ts rows, List.isEmpty_map,
    refutableColumns_plain]
  refine if_congr Iff.rfl rfl ?_
  cases refutableColumns ts.length rows with
  | nil => rfl
  | cons column more =>
    cases more with
    | nil =>
      dsimp only
      split
      · rfl
      · rename_i t found
        have := Ty.size_lt_of_getElem? found
        simp only [List.any_map, Function.comp_def, Row.cell_plain, Option.isNone_map,
          filterMap_cell_plain, missing_plain t]
    | cons _ _ =>
      dsimp only
      split
      · rfl
      · rename_i t found
        have := Ty.sizes_eraseIdx_lt found
        simp only [split_plain, missingRows_plain (ts.eraseIdx column)]
termination_by Ty.sizes ts
decreasing_by all_goals omega

end

/-- So annotations and places have no part in what they leave out. -/
theorem missing_retype (h : Syntax.Retyping) (f : Option Position → Option Position)
    (bound : List String) (t : Ty) (ps : List (Located Pattern)) :
    missing t (ps.map (Pattern.retype h f bound)) = missing t ps := by
  rw [← missing_plain t ps, ← missing_plain t (ps.map (Pattern.retype h f bound)), List.map_map]
  exact congrArg (missing t) (List.map_congr_left fun p _ => plain_retype h f bound p)

end Coverage

end StellaLang
