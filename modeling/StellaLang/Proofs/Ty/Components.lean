import StellaLang.Proofs.Ty.Conformance

/-! The components of a type. What is computed of a type without looking at its variables is
computed of its components. -/
namespace StellaLang.Ty

/-- The types that a type is made of directly, without those in the scope of its binders. -/
def components : Ty → List Ty
  | arrow ps r => r :: ps
  | tuple ts => ts
  | sum l r => [l, r]
  | record fs => fs.map (·.2)
  | variant fs => fs.filterMap (·.2)
  | list t => [t]
  | ref t => [t]
  | _ => []

/-- Whether a type neither is a variable nor binds one, but perhaps in its components. -/
def scopeless : Ty → Bool
  | var _ => false
  | forAll _ _ => false
  | recursive _ _ => false
  | _ => true

theorem mem_types {t : Ty} {fs : List (String × Ty)} : t ∈ fs.map (·.2) ↔ ∃ l, (l, t) ∈ fs := by
  simp

theorem mem_payloads {t : Ty} {fs : List (String × Option Ty)} :
    t ∈ fs.filterMap (·.2) ↔ ∃ l, (l, some t) ∈ fs := by
  simp

section Membership

variable {t c : Ty}

theorem scopeless_of_mem_components (member : c ∈ t.components) : t.scopeless = true := by
  cases t with
  | var | forAll | recursive => contradiction
  | _ => rfl

theorem size_lt_of_mem_components (member : c ∈ t.components) : c.size < t.size := by
  cases t with
  | arrow ps r =>
    rw [size]
    rcases List.mem_cons.mp member with rfl | member
    · omega
    · have smaller := size_lt_of_mem member
      omega
  | tuple ts =>
    have smaller : c.size < sizes ts := size_lt_of_mem member
    rw [size]
    omega
  | sum l r =>
    rw [size]
    rcases List.mem_pair.mp member with rfl | rfl <;> omega
  | record fs =>
    obtain ⟨l, field⟩ := mem_types.mp member
    have smaller := size_lt_of_mem_fields field
    rw [size]
    omega
  | variant fs =>
    obtain ⟨l, payload⟩ := mem_payloads.mp member
    have smaller := size_lt_of_mem_alternatives payload
    rw [size]
    omega
  | list e | ref e =>
    obtain rfl := List.mem_singleton.mp member
    rw [size]
    omega
  | _ => contradiction

end Membership

section FreeNames

theorem mem_freeNamesAll {z : String} {ts : List Ty} :
    z ∈ freeNamesAll ts ↔ ∃ t ∈ ts, z ∈ t.freeNames := by
  induction ts with
  | nil => simp [freeNamesAll]
  | cons t ts ih => simp [freeNamesAll, ih]

theorem freeNamesFields_eq (fs : List (String × Ty)) :
    freeNamesFields fs = freeNamesAll (fs.map (·.2)) := by
  induction fs with
  | nil => rfl
  | cons f fs ih => exact congrArg (f.2.freeNames ++ ·) ih

theorem freeNamesAlternatives_eq (fs : List (String × Option Ty)) :
    freeNamesAlternatives fs = freeNamesAll (fs.filterMap (·.2)) := by
  induction fs with
  | nil => rfl
  | cons f fs ih =>
    obtain ⟨l, payload⟩ := f
    cases payload with
    | none => exact ih
    | some t => exact congrArg (t.freeNames ++ ·) ih

theorem mem_freeNames_iff {t : Ty} (none : t.scopeless = true) {z : String} :
    z ∈ t.freeNames ↔ ∃ c ∈ t.components, z ∈ c.freeNames := by
  cases t with
  | var | forAll | recursive => contradiction
  | arrow ps r => simp [freeNames, components, mem_freeNamesAll, or_comm]
  | tuple ts => simp [freeNames, components, mem_freeNamesAll]
  | sum l r => simp [freeNames, components]
  | record fs => rw [freeNames, freeNamesFields_eq, mem_freeNamesAll, components]
  | variant fs => rw [freeNames, freeNamesAlternatives_eq, mem_freeNamesAll, components]
  | list e | ref e => simp [freeNames, components]
  | _ => simp [freeNames, components]

theorem freeNames_subset_of_mem_components {t c : Ty} (member : c ∈ t.components) :
    c.freeNames ⊆ t.freeNames := by
  intro z free
  exact (mem_freeNames_iff (scopeless_of_mem_components member)).mpr ⟨c, member, free⟩

end FreeNames

section Substitution

variable {t : Ty} {x : String} {s : Ty}

theorem types_substituteFields (fs : List (String × Ty)) (x : String) (s : Ty) :
    (fs.map fun (l, t) => (l, t.substitute x s)).map (·.2) = (fs.map (·.2)).map (·.substitute x s) := by
  rw [List.map_map, List.map_map]
  rfl

theorem payloads_substituteAlternatives (fs : List (String × Option Ty)) (x : String) (s : Ty) :
    (fs.map fun (l, t) => (l, Option.map (substitute · x s) t)).filterMap (·.2) =
      (fs.filterMap (·.2)).map (substitute · x s) := by
  rw [List.filterMap_map, List.map_filterMap]
  rfl

theorem scopeless_substitute (none : t.scopeless = true) : (t.substitute x s).scopeless = true := by
  cases t with
  | var | forAll | recursive => contradiction
  | _ => simp [substitute, substituteSized, scopeless]

theorem components_substitute (none : t.scopeless = true) :
    (t.substitute x s).components = t.components.map (·.substitute x s) := by
  cases t with
  | var | forAll | recursive => contradiction
  | record fs =>
    rw [substitute_record]
    exact types_substituteFields fs x s
  | variant fs =>
    rw [substitute_variant]
    exact payloads_substituteAlternatives fs x s
  | bool | nat | unit | top | bottom | never | unknown | error =>
    simp [substitute, substituteSized, components]
  | _ => simp [components]

end Substitution

end StellaLang.Ty
