import StellaLang.Coverage
import StellaLang.Proofs.Syntax.Renaming
import StellaLang.Proofs.Ty.Renaming

/-! What a match leaves out does not depend on the names of types, neither in the type that is
taken apart nor in the annotations of patterns. -/
namespace StellaLang

namespace Syntax.Pattern

variable (x y : String)

mutual

theorem strip_rename (p : Located Pattern) : strip (rename x y p) = renameNode x y (strip p) := by
  obtain ⟨p, position⟩ := p
  exact strip_renameNode p
termination_by structural p

theorem strip_renameNode (p : Pattern) :
    strip.stripNode (renameNode x y p) = renameNode x y (strip.stripNode p) := by
  cases p with
  | ascribed p t => exact strip_rename p
  | variant l payload => cases payload <;> rfl
  | _ => rfl
termination_by structural p

end

mutual

@[simp] theorem isIrrefutable_rename (p : Located Pattern) :
    isIrrefutable (rename x y p) = isIrrefutable p := by
  obtain ⟨p, position⟩ := p
  exact isIrrefutableNode_rename p
termination_by structural p

theorem isIrrefutableNode_rename (p : Pattern) :
    isIrrefutableNode (renameNode x y p) = isIrrefutableNode p := by
  cases p with
  | ascribed p t => exact isIrrefutable_rename p
  | tuple ps => exact allIrrefutable_rename ps
  | record fs => exact allFieldsIrrefutable_rename fs
  | variant l payload => cases payload <;> rfl
  | _ => rfl
termination_by structural p

theorem allIrrefutable_rename (ps : List (Located Pattern)) :
    allIrrefutable (renameAll x y ps) = allIrrefutable ps := by
  match ps with
  | [] => rfl
  | p :: ps => exact congrArg₂ and (isIrrefutable_rename p) (allIrrefutable_rename ps)
termination_by structural ps

theorem allFieldsIrrefutable_rename (fs : List (String × Located Pattern)) :
    allFieldsIrrefutable (renameFields x y fs) = allFieldsIrrefutable fs := by
  match fs with
  | [] => rfl
  | (_, p) :: fs => exact congrArg₂ and (isIrrefutable_rename p) (allFieldsIrrefutable_rename fs)
termination_by structural fs

end

@[simp] theorem bool?_rename (p : Located Pattern) : bool? (rename x y p) = bool? p := by
  unfold bool?
  rw [strip_rename]
  cases strip p with
  | variant l payload => cases payload <;> rfl
  | _ => rfl

theorem inl?_rename (p : Located Pattern) : inl? (rename x y p) = (inl? p).map (rename x y) := by
  unfold inl?
  rw [strip_rename]
  cases strip p with
  | variant l payload => cases payload <;> rfl
  | _ => rfl

theorem inr?_rename (p : Located Pattern) : inr? (rename x y p) = (inr? p).map (rename x y) := by
  unfold inr?
  rw [strip_rename]
  cases strip p with
  | variant l payload => cases payload <;> rfl
  | _ => rfl

theorem payload?_rename (l : String) (p : Located Pattern) :
    payload? l (rename x y p) = (payload? l p).map (Option.map (rename x y)) := by
  unfold payload?
  rw [strip_rename]
  cases strip p with
  | variant m payload =>
    cases payload with
    | none =>
      simp only [renameNode]
      split <;> rfl
    | some p =>
      simp only [renameNode]
      split <;> rfl
  | _ => rfl

@[simp] theorem isNil_rename (p : Located Pattern) : isNil (rename x y p) = isNil p := by
  unfold isNil
  rw [strip_rename]
  cases strip p with
  | variant l payload => cases payload <;> rfl
  | list ps => cases ps <;> rfl
  | _ => rfl

@[simp] theorem isAnyCons_rename (p : Located Pattern) : isAnyCons (rename x y p) = isAnyCons p := by
  unfold isAnyCons
  rw [strip_rename]
  cases strip p with
  | variant l payload => cases payload <;> rfl
  | cons h t => exact congrArg₂ and (isIrrefutable_rename x y h) (isIrrefutable_rename x y t)
  | _ => rfl

end Syntax.Pattern

namespace Coverage

open Syntax (Pattern)
open Syntax.Pattern

variable {x y : String}

section Numbers

variable (x y)

mutual

@[simp] theorem of?_rename (p : Located Pattern) : NatShape.of? (rename x y p) = NatShape.of? p := by
  obtain ⟨p, position⟩ := p
  exact ofNode?_rename p
termination_by structural p

theorem ofNode?_rename (p : Pattern) :
    NatShape.of?.ofNode? (renameNode x y p) = NatShape.of?.ofNode? p := by
  cases p with
  | ascribed p t => exact of?_rename p
  | succ p => exact congrArg (Option.map NatShape.succ) (of?_rename p)
  | tuple ps =>
    have same := isIrrefutableNode_rename x y (.tuple ps)
    simp only [renameNode, NatShape.of?.ofNode?] at same ⊢
    rw [same]
  | record fs =>
    have same := isIrrefutableNode_rename x y (.record fs)
    simp only [renameNode, NatShape.of?.ofNode?] at same ⊢
    rw [same]
  | variant l payload => cases payload <;> rfl
  | _ => rfl
termination_by structural p

end

end Numbers

/-- What a view of patterns takes out of renamed patterns is what it takes out of them, renamed. -/
theorem filterMap_rename {view : Located Pattern → Option α} {view' : Located Pattern → Option β}
    {change : α → β}
    (each : ∀ p, view' (rename x y p) = (view p).map change) (ps : List (Located Pattern)) :
    (ps.map (rename x y)).filterMap view' = (ps.filterMap view).map change := by
  rw [List.filterMap_map, List.map_filterMap]
  exact congrArg (List.filterMap · ps) (funext each)

namespace Row

variable (x y)

def rename (row : Row) : Row :=
  row.map (Option.map (Pattern.rename x y))

theorem ofTuple?_rename (width : Nat) (p : Located Pattern) :
    ofTuple? width (Pattern.rename x y p) = (ofTuple? width p).map (rename x y) := by
  unfold ofTuple?
  rw [strip_rename]
  cases strip p with
  | tuple ps =>
    simp only [renameNode, Syntax.renamePatterns_eq, List.length_map]
    split <;> simp [rename]
  | variant l payload => cases payload <;> rfl
  | _ => rfl

theorem ofRecord?_rename (labels : List String) (p : Located Pattern) :
    ofRecord? labels (Pattern.rename x y p) = (ofRecord? labels p).map (rename x y) := by
  unfold ofRecord?
  rw [strip_rename]
  cases strip p with
  | record fs =>
    have found (l : String) : (renameFields x y fs).lookup l = (fs.lookup l).map (Pattern.rename x y) := by
      rw [Syntax.renamePatternFields_eq]
      exact lookup_map_snd ..
    simp [renameNode, rename, found]
  | variant l payload => cases payload <;> rfl
  | _ => rfl

@[simp] theorem cell_rename (row : Row) (column : Nat) :
    (row.rename x y).cell column = (row.cell column).map (Pattern.rename x y) := by
  simp only [cell, rename, List.getD_eq_getElem?_getD, List.getElem?_map]
  cases row[column]? <;> rfl

@[simp] theorem isRefutableAt_rename (row : Row) (column : Nat) :
    (row.rename x y).isRefutableAt column = row.isRefutableAt column := by
  simp only [isRefutableAt, cell_rename]
  cases row.cell column <;> simp

@[simp] theorem admits_rename (row : Row) (column : Nat) (value : Bool) :
    (row.rename x y).admits column value = row.admits column value := by
  simp only [admits, cell_rename]
  cases row.cell column <;> simp

theorem eraseIdx_rename (row : Row) (column : Nat) :
    (row.rename x y).eraseIdx column = rename x y (row.eraseIdx column) :=
  List.eraseIdx_map ..

end Row

theorem refutableColumns_rename (width : Nat) (rows : List Row) :
    refutableColumns width (rows.map (Row.rename x y)) = refutableColumns width rows := by
  simp [refutableColumns, Function.comp_def]

theorem missingBool_rename (ps : List (Located Pattern)) :
    missingBool (ps.map (rename x y)) = missingBool ps := by
  simp [missingBool]

theorem missingList_rename (ps : List (Located Pattern)) :
    missingList (ps.map (rename x y)) = missingList ps := by
  simp [missingList, Function.comp_def]

theorem missingNat_rename (ps : List (Located Pattern)) :
    missingNat (ps.map (rename x y)) = missingNat ps := by
  simp [missingNat, List.filterMap_map]

open Ty (Renamed Labelled)

/-- That the gaps in the values of a type stay the same under a renaming. -/
def Indifferent (x y : String) (t : Ty) : Prop :=
  ∀ u, Renamed x y t u → ∀ ps, missing u (ps.map (rename x y)) = missing t ps

theorem missingAlternatives_rename {fs gs : List (String × Option Ty)}
    (payloads : List.Forall₂ (Labelled (Option.Rel (Renamed x y))) fs gs)
    (each : ∀ l t, (l, some t) ∈ fs → Indifferent x y t) (ps : List (Located Pattern)) :
    missingAlternatives gs (ps.map (rename x y)) = missingAlternatives fs ps := by
  induction payloads with
  | nil => rw [missingAlternatives, missingAlternatives]
  | @cons f g fs gs first rest ih =>
    obtain ⟨l, payload⟩ := f
    obtain ⟨m, payload'⟩ := g
    obtain ⟨same, carried⟩ := first
    obtain rfl : l = m := same
    have others := ih fun m t member => each m t (List.mem_cons_of_mem _ member)
    cases carried with
    | none =>
      rw [missingAlternatives, missingAlternatives, filterMap_rename (payload?_rename x y l),
        List.isEmpty_map, others]
    | @some t u carried =>
      have inner : ((ps.filterMap (payload? l)).map (Option.map (rename x y))).filterMap id =
          ((ps.filterMap (payload? l)).filterMap id).map (rename x y) := by
        rw [List.filterMap_map, List.map_filterMap]
        rfl
      rw [missingAlternatives, missingAlternatives, filterMap_rename (payload?_rename x y l),
        List.isEmpty_map,
        inner, List.isEmpty_map, each l t List.mem_cons_self u carried, others]

/-- The cells of a column. -/
theorem filterMap_cell_rename (rows : List Row) (column : Nat) :
    (rows.map (Row.rename x y)).filterMap (·.cell column) =
      (rows.filterMap (·.cell column)).map (rename x y) := by
  rw [List.filterMap_map, List.map_filterMap]
  exact congrArg (List.filterMap · rows) (funext fun row => Row.cell_rename x y row column)

/-- The rows that admit a truth value in a column, without that column. -/
theorem split_rename (rows : List Row) (column : Nat) (value : Bool) :
    ((rows.map (Row.rename x y)).filter (·.admits column value)).map (·.eraseIdx column) =
      ((rows.filter (·.admits column value)).map (·.eraseIdx column)).map (Row.rename x y) := by
  simp [List.filter_map, Function.comp_def, Row.eraseIdx_rename]

/-- What is made of the types in one column. -/
theorem found_column {γ : Type} {ts us : List Ty} (elements : List.Forall₂ (Renamed x y) ts us)
    (column : Nat)
    {f g : Ty → List γ} (each : ∀ t u, ts[column]? = some t → Renamed x y t u → g u = f t) :
    (match _ : us[column]? with | none => [] | some u => g u) =
      match _ : ts[column]? with | none => [] | some t => f t := by
  have columns := Ty.rel_getElem? elements column
  split
  · rename_i absent
    rw [absent] at columns
    split
    · rfl
    · rename_i present
      rw [present] at columns
      contradiction
  · rename_i u present
    rw [present] at columns
    split
    · rename_i absent
      rw [absent] at columns
      contradiction
    · rename_i t present'
      rw [present', Option.rel_some_some] at columns
      exact each t u present' columns

theorem missingRows_rename {ts us : List Ty} (elements : List.Forall₂ (Renamed x y) ts us)
    (each : ∀ t ∈ ts, Indifferent x y t) (rows : List Row) :
    missingRows us (rows.map (Row.rename x y)) = missingRows ts rows := by
  rw [missingRows.eq_def us, missingRows.eq_def ts, List.isEmpty_map, refutableColumns_rename,
    elements.length_eq]
  refine if_congr Iff.rfl rfl ?_
  cases refutableColumns us.length rows with
  | nil => rfl
  | cons column more =>
    cases more with
    | nil =>
      refine found_column elements column fun t u found related => ?_
      rw [filterMap_cell_rename, each t (List.mem_of_getElem? found) u related]
      simp
    | cons _ _ =>
      refine found_column elements column fun t u found related => ?_
      have within : column < ts.length := (List.getElem?_eq_some_iff.mp found).1
      -- Splitting a column leaves fewer columns, whose types are renamed as before.
      have rest (value : Bool) := missingRows_rename (Ty.forall₂_eraseIdx elements column)
        (fun v member => each v (List.mem_of_mem_eraseIdx member))
        ((rows.filter (·.admits column value)).map (·.eraseIdx column))
      simp only [related.isBool, split_rename, rest]
termination_by ts.length
decreasing_by
  rw [List.length_eraseIdx_of_lt within]
  exact Nat.sub_one_lt_of_lt within

/-- Renaming changes no gap: neither do patterns have other gaps with other names in their annotations,
nor do the values of a type with other names in it. -/
theorem missing_rename {t u : Ty} (h : Renamed x y t u) (ps : List (Located Pattern)) :
    missing u (ps.map (rename x y)) = missing t ps := by
  have refutable : (ps.map (rename x y)).any isIrrefutable = ps.any isIrrefutable := by
    simp [Function.comp_def]
  rw [missing.eq_def u, missing.eq_def t, h.isWildcard, refutable]
  refine if_congr Iff.rfl rfl ?_
  cases h.shape with
  | constant c =>
    cases c with
    | bool => exact missingBool_rename ps
    | nat => exact missingNat_rename ps
    | _ => rfl
  | list => exact missingList_rename ps
  | sum left right =>
    dsimp only
    rw [filterMap_rename (inl?_rename x y), filterMap_rename (inr?_rename x y), List.isEmpty_map,
      List.isEmpty_map,
      missing_rename left, missing_rename right]
  | variant payloads =>
    refine missingAlternatives_rename payloads (fun l t member u carried ps => ?_) ps
    have smaller := Ty.size_lt_of_mem_alternatives member
    exact missing_rename carried ps
  | @tuple ts us elements =>
    have each : ∀ t ∈ ts, Indifferent x y t := by
      intro t member u related ps
      have smaller := Ty.size_lt_of_mem member
      exact missing_rename related ps
    dsimp only
    rw [← elements.length_eq, filterMap_rename (Row.ofTuple?_rename x y _),
      missingRows_rename elements each]
  | @record fs gs fields =>
    have each : ∀ t ∈ fs.map (·.2), Indifferent x y t := by
      intro t member u related ps
      have smaller : t.size < Ty.fieldSizes fs := Ty.sizes_map_snd fs ▸ Ty.size_lt_of_mem member
      exact missing_rename related ps
    dsimp only
    rw [← Ty.map_fst fields, filterMap_rename (Row.ofRecord?_rename x y _),
      missingRows_rename (Ty.map_snd fields) each]
  | _ => rfl
termination_by t.size
decreasing_by
  all_goals subst_vars
  all_goals simp only [Ty.size]
  all_goals omega

end Coverage

end StellaLang
