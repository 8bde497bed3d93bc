import StellaLang.Proofs.Ty.Components
import StellaLang.Proofs.Ty.Fresh
import StellaLang.Ty.Merge

/-! The parts of a type, and where the parts of a substituted or merged type come from: each
part of it has the outline of a part of what it was made of. -/
namespace StellaLang.Ty

mutual

/-- The type itself and all the types it is built from, at any depth. -/
def parts : Ty → List Ty
  | arrow ps r => arrow ps r :: (partsAll ps ++ r.parts)
  | forAll xs b => forAll xs b :: b.parts
  | tuple ts => tuple ts :: partsAll ts
  | sum l r => sum l r :: (l.parts ++ r.parts)
  | record fs => record fs :: partsFields fs
  | variant fs => variant fs :: partsAlternatives fs
  | list t => list t :: t.parts
  | ref t => ref t :: t.parts
  | recursive x b => recursive x b :: b.parts
  | bool => [bool]
  | nat => [nat]
  | unit => [unit]
  | top => [top]
  | bottom => [bottom]
  | var x => [var x]
  | never => [never]
  | unknown => [unknown]
  | error => [error]

def partsAll : List Ty → List Ty
  | [] => []
  | t :: ts => t.parts ++ partsAll ts

def partsFields : List (String × Ty) → List Ty
  | [] => []
  | (_, t) :: fs => t.parts ++ partsFields fs

def partsAlternatives : List (String × Option Ty) → List Ty
  | [] => []
  | (_, none) :: fs => partsAlternatives fs
  | (_, some t) :: fs => t.parts ++ partsAlternatives fs

end

theorem mem_partsAll {u : Ty} {ts : List Ty} : u ∈ partsAll ts ↔ ∃ t ∈ ts, u ∈ t.parts := by
  induction ts with
  | nil => simp [partsAll]
  | cons t ts ih => simp [partsAll, ih]

theorem mem_partsFields {u : Ty} {fs : List (String × Ty)} :
    u ∈ partsFields fs ↔ ∃ l t, (l, t) ∈ fs ∧ u ∈ t.parts := by
  induction fs with
  | nil => simp [partsFields]
  | cons f fs ih =>
    obtain ⟨m, t⟩ := f
    simp only [partsFields, List.mem_append, ih, List.mem_cons, Prod.mk.injEq]
    constructor
    · rintro (first | ⟨l, t, member, part⟩)
      · exact ⟨m, t, .inl ⟨rfl, rfl⟩, first⟩
      · exact ⟨l, t, .inr member, part⟩
    · rintro ⟨l, t, ⟨rfl, rfl⟩ | member, part⟩
      · exact .inl part
      · exact .inr ⟨l, t, member, part⟩

theorem mem_partsAlternatives {u : Ty} {fs : List (String × Option Ty)} :
    u ∈ partsAlternatives fs ↔ ∃ l t, (l, some t) ∈ fs ∧ u ∈ t.parts := by
  induction fs with
  | nil => simp [partsAlternatives]
  | cons f fs ih =>
    obtain ⟨m, payload⟩ := f
    cases payload with
    | none =>
      simp only [partsAlternatives, ih, List.mem_cons, Prod.mk.injEq]
      simp
    | some t =>
      simp only [partsAlternatives, List.mem_append, ih, List.mem_cons, Prod.mk.injEq,
        Option.some.injEq]
      constructor
      · rintro (first | ⟨l, t, member, part⟩)
        · exact ⟨m, t, .inl ⟨rfl, rfl⟩, first⟩
        · exact ⟨l, t, .inr member, part⟩
      · rintro ⟨l, t, ⟨rfl, rfl⟩ | member, part⟩
        · exact .inl part
        · exact .inr ⟨l, t, member, part⟩

theorem mem_parts_self (t : Ty) : t ∈ t.parts := by
  cases t <;> simp [parts]

/-- What two types have in common that differ in their parts only: either both or none is an
error, and the names that one binds are those that the other one binds, perhaps numbered. -/
structure Outline (t u : Ty) : Prop where
  error : u = error → t = error
  forAll : ∀ ys c, u = forAll ys c → ∃ xs b, t = forAll xs b ∧ List.Forall₂ Fresh.Numbered xs ys
  recursive : ∀ y c, u = recursive y c → ∃ x b, t = recursive x b ∧ Fresh.Numbered x y

namespace Outline

theorem refl (t : Ty) : Outline t t where
  error := id
  forAll := fun ys c same => ⟨ys, c, same, List.forall₂_same.mpr fun y _ => .refl y⟩
  recursive := fun y c same => ⟨y, c, same, .refl y⟩

theorem trans {t u v : Ty} (first : Outline t u) (second : Outline u v) : Outline t v where
  error := fun failed => first.error (second.error failed)
  forAll := by
    intro zs d same
    obtain ⟨ys, c, rfl, later⟩ := second.forAll zs d same
    obtain ⟨xs, b, rfl, before⟩ := first.forAll ys c rfl
    refine ⟨xs, b, rfl, ?_⟩
    clear same first second
    induction before generalizing zs with
    | nil => cases later; exact .nil
    | cons one _ ih =>
      cases later with
      | cons two rest => exact .cons (one.trans two) (ih _ rest)
  recursive := by
    intro z d same
    obtain ⟨y, c, rfl, later⟩ := second.recursive z d same
    obtain ⟨x, b, rfl, before⟩ := first.recursive y c rfl
    exact ⟨x, b, rfl, before.trans later⟩

/-- Most types have no outline to speak of. -/
theorem of_other {u : Ty} (t : Ty) (noError : u ≠ Ty.error) (noForAll : ∀ ys c, u ≠ Ty.forAll ys c)
    (noRecursive : ∀ y c, u ≠ Ty.recursive y c) : Outline t u where
  error := fun failed => absurd failed noError
  forAll := fun ys c same => absurd same (noForAll ys c)
  recursive := fun y c same => absurd same (noRecursive y c)

end Outline

/-- Whether a part has the outline of a part of another type. -/
def Outlined (t u : Ty) : Prop :=
  ∃ v ∈ t.parts, Outline v u

namespace Outlined

theorem of_part {t u : Ty} (part : u ∈ t.parts) : Outlined t u :=
  ⟨u, part, .refl u⟩

theorem of_subset {t c u : Ty} (inside : c.parts ⊆ t.parts) (outlined : Outlined c u) :
    Outlined t u := by
  obtain ⟨v, part, outline⟩ := outlined
  exact ⟨v, inside part, outline⟩

theorem of_all {t u : Ty} {ts : List Ty} (inside : partsAll ts ⊆ t.parts)
    (outlined : ∃ v ∈ partsAll ts, Outline v u) : Outlined t u := by
  obtain ⟨v, part, outline⟩ := outlined
  exact ⟨v, inside part, outline⟩

/-- A type has its own outline, whatever its parts are. -/
theorem of_other {t u : Ty} (noError : u ≠ Ty.error) (noForAll : ∀ ys c, u ≠ Ty.forAll ys c)
    (noRecursive : ∀ y c, u ≠ Ty.recursive y c) : Outlined t u :=
  ⟨t, mem_parts_self t, .of_other t noError noForAll noRecursive⟩

theorem of_recursive {x y : String} {b c : Ty} (numbered : Fresh.Numbered x y) :
    Outlined (recursive x b) (recursive y c) := by
  refine ⟨recursive x b, mem_parts_self _, by simp, by simp, ?_⟩
  intro z d same
  obtain ⟨rfl, -⟩ := recursive.inj same
  exact ⟨x, b, rfl, numbered⟩

end Outlined

section Children

theorem parts_subset_arrow {p r : Ty} {ps : List Ty} (member : p ∈ ps) : p.parts ⊆ (arrow ps r).parts :=
  fun _ part => List.mem_cons_of_mem _ (List.mem_append_left _ (mem_partsAll.mpr ⟨p, member, part⟩))

theorem parts_subset_tuple {t : Ty} {ts : List Ty} (member : t ∈ ts) : t.parts ⊆ (tuple ts).parts :=
  fun _ part => List.mem_cons_of_mem _ (mem_partsAll.mpr ⟨t, member, part⟩)

theorem parts_subset_record {l : String} {t : Ty} {fs : List (String × Ty)} (member : (l, t) ∈ fs) :
    t.parts ⊆ (record fs).parts :=
  fun _ part => List.mem_cons_of_mem _ (mem_partsFields.mpr ⟨l, t, member, part⟩)

theorem parts_subset_variant {l : String} {t : Ty} {fs : List (String × Option Ty)}
    (member : (l, some t) ∈ fs) : t.parts ⊆ (variant fs).parts :=
  fun _ part => List.mem_cons_of_mem _ (mem_partsAlternatives.mpr ⟨l, t, member, part⟩)

theorem mem_parts_iff {t : Ty} (none : t.scopeless = true) {u : Ty} :
    u ∈ t.parts ↔ u = t ∨ ∃ c ∈ t.components, u ∈ c.parts := by
  cases t with
  | var | forAll | recursive => contradiction
  | arrow ps r => simp [parts, components, mem_partsAll, or_comm]
  | tuple ts => simp [parts, components, mem_partsAll]
  | sum l r => simp [parts, components]
  | record fs =>
    rw [parts, List.mem_cons, mem_partsFields]
    simp only [components, mem_types]
    grind
  | variant fs =>
    rw [parts, List.mem_cons, mem_partsAlternatives]
    simp only [components, mem_payloads]
    grind
  | list e | ref e => simp [parts, components]
  | _ => simp [parts, components]

theorem parts_subset_of_mem_components {t c : Ty} (member : c ∈ t.components) : c.parts ⊆ t.parts := by
  intro u part
  exact (mem_parts_iff (scopeless_of_mem_components member)).mpr (.inr ⟨c, member, part⟩)

end Children

section Substitution

variable {x : String} {s : Ty}

theorem Outline.substitute {t : Ty} (none : t.scopeless = true) : Outline t (t.substitute x s) := by
  cases t with
  | var | forAll | recursive => contradiction
  | bool | nat | unit | top | bottom | never | unknown | error =>
    simp only [Ty.substitute, substituteSized]
    exact .refl _
  | _ => exact .of_other _ (by simp) (by simp) (by simp)

/-- What `parts_substitute` says of types below a size. -/
def PartsBelow (n : Nat) : Prop :=
  ∀ t x s, t.size < n → ∀ u ∈ (substitute t x s).parts, u ∈ s.parts ∨ Outlined t u

theorem Outlined.rename {n : Nat} (below : PartsBelow n) {b : Ty} (small : b.size < n) {y z : String}
    {u : Ty} (outlined : Outlined (b.substitute y (var z)) u) : Outlined b u := by
  obtain ⟨v, member, outline⟩ := outlined
  rcases below b y (var z) small v member with renamed | ⟨w, part, first⟩
  · obtain rfl : v = var z := by simpa [parts] using renamed
    exact ⟨b, mem_parts_self b, (Outline.of_other b (by simp) (by simp) (by simp)).trans outline⟩
  · exact ⟨w, part, first.trans outline⟩

/-- Renaming binders only numbers them, and keeps the outlines of the parts of the body. -/
theorem renameBinders_parts {n : Nat} (below : PartsBelow n) (siblings ys : List String) {b : Ty}
    (small : b.size < n) :
    List.Forall₂ Fresh.Numbered ys (renameBinders siblings ys b x s).1.1 ∧
      ∀ u, Outlined (renameBinders siblings ys b x s).1.2 u → Outlined b u := by
  induction ys generalizing b with
  | nil =>
    rw [renameBinders]
    exact ⟨.nil, fun u outlined => outlined⟩
  | cons y ys ih =>
    rw [renameBinders]
    split
    · have sameSize := size_substitute_var b y (Fresh.name y (taken siblings b x s))
      obtain ⟨numbered, outlines⟩ := ih (b := b.substitute y (var _)) (sameSize ▸ small)
      refine ⟨.cons (Fresh.numbered_name y _) numbered, fun u outlined => ?_⟩
      exact (outlines u outlined).rename below small
    · obtain ⟨numbered, outlines⟩ := ih small
      exact ⟨.cons (.refl y) numbered, outlines⟩

/-- By induction on the size, since a body is renamed before the substitution goes on in it. -/
theorem partsBelow (n : Nat) : PartsBelow n := by
  induction n with
  | zero => intro t x s small; omega
  | succ n below =>
    intro t x s small u part
    have child {c : Ty} (inside : c.parts ⊆ t.parts) (smaller : c.size < t.size) {u : Ty}
        (part : u ∈ (c.substitute x s).parts) : u ∈ s.parts ∨ Outlined t u :=
      (below c x s (by omega) u part).imp_right (.of_subset inside)
    cases none : t.scopeless with
    | true =>
      rw [mem_parts_iff (scopeless_substitute none), components_substitute none] at part
      rcases part with rfl | ⟨_, member, part⟩
      · exact .inr ⟨t, mem_parts_self t, .substitute none⟩
      · obtain ⟨c, first, rfl⟩ := List.mem_map.mp member
        exact child (parts_subset_of_mem_components first) (size_lt_of_mem_components first) part
    | false =>
      cases t with
      | var y =>
        rw [substitute_var] at part
        split at part
        · exact .inl part
        · exact .inr (.of_part part)
      | forAll xs b =>
        rw [substitute_forAll] at part
        split at part
        · exact .inr (.of_part part)
        · obtain ⟨numbered, outlines⟩ := renameBinders_parts (x := x) (s := s) below xs xs (b := b)
            (by simp only [size] at small; omega)
          have sameSize := (renameBinders xs xs b x s).2.2
          rw [parts, List.mem_cons] at part
          rcases part with rfl | part
          · refine .inr ⟨forAll xs b, mem_parts_self _, by simp, fun ys c same => ?_, by simp⟩
            obtain ⟨rfl, -⟩ := forAll.inj same
            exact ⟨xs, b, rfl, numbered⟩
          · refine (below _ x s (by simp only [size] at small; omega) u part).imp_right fun outlined => ?_
            exact .of_subset (by simp [parts]) (outlines u outlined)
      | recursive y b =>
        have smaller : b.size < n := by
          simp only [size] at small
          omega
        have inside : b.parts ⊆ (recursive y b).parts := by simp [parts]
        rw [substitute_recursive] at part
        split at part
        · exact .inr (.of_part part)
        split at part
        · rw [parts, List.mem_cons] at part
          rcases part with rfl | part
          · exact .inr (.of_recursive (Fresh.numbered_name y _))
          · refine (below _ x s (by rwa [size_substitute_var]) u part).imp_right fun outlined => ?_
            exact .of_subset inside (outlined.rename below smaller)
        · rw [parts, List.mem_cons] at part
          rcases part with rfl | part
          · exact .inr (.of_recursive (.refl y))
          · exact child inside (by rw [size]; omega) part
      | _ => contradiction

/-- The parts of a type with another one put in are parts of that one, or look like its own. -/
theorem parts_substitute (t : Ty) (x : String) (s : Ty) {u : Ty} (part : u ∈ (t.substitute x s).parts) :
    u ∈ s.parts ∨ Outlined t u :=
  partsBelow (t.size + 1) t x s (Nat.lt_succ_self _) u part

theorem Outlined.of_substitute {t u : Ty} (outlined : Outlined (t.substitute x s) u) :
    Outlined s u ∨ Outlined t u := by
  obtain ⟨v, part, outline⟩ := outlined
  rcases parts_substitute t x s part with inside | ⟨w, first, before⟩
  · exact .inl ⟨v, inside, outline⟩
  · exact .inr ⟨w, first, before.trans outline⟩

/-- A variable put in has no parts to speak of. -/
theorem Outlined.of_renamed {t u : Ty} {y : String} (outlined : Outlined (t.substitute x (var y)) u) :
    Outlined t u :=
  outlined.rename (partsBelow (t.size + 1)) (Nat.lt_succ_self _)

theorem parts_unfold {t u : Ty} (part : u ∈ t.unfold.parts) : Outlined t u := by
  cases t with
  | recursive x b =>
    rcases parts_substitute b x (recursive x b) part with inside | outlined
    · exact .of_part inside
    · exact outlined.of_subset (by simp [parts])
  | _ => exact .of_part part

/-- Renaming the binders of a universal type apart only numbers them. -/
theorem renameApart_parts (args : List Ty) (siblings xs : List String) (b : Ty) :
    List.Forall₂ Fresh.Numbered xs (renameApart args siblings xs b).1 ∧
      ∀ u, Outlined (renameApart args siblings xs b).2 u → Outlined b u := by
  induction xs generalizing b with
  | nil => exact ⟨.nil, fun u outlined => outlined⟩
  | cons x xs ih =>
    rw [renameApart]
    split
    · obtain ⟨numbered, outlines⟩ := ih (b.substitute x (var _))
      exact ⟨.cons (Fresh.numbered_name x _) numbered, fun u outlined => (outlines u outlined).of_renamed⟩
    · obtain ⟨numbered, outlines⟩ := ih b
      exact ⟨.cons (.refl x) numbered, outlines⟩

theorem Outlined.of_foldl_substitute {pairs : List (String × Ty)} {t u : Ty}
    (outlined : Outlined (pairs.foldl (fun t (x, arg) => t.substitute x arg) t) u) :
    (∃ x arg, (x, arg) ∈ pairs ∧ Outlined arg u) ∨ Outlined t u := by
  induction pairs generalizing t with
  | nil => exact .inr outlined
  | cons pair pairs ih =>
    obtain ⟨x, arg⟩ := pair
    rcases ih outlined with ⟨y, later, member, inside⟩ | first
    · exact .inl ⟨y, later, List.mem_cons_of_mem _ member, inside⟩
    · rcases first.of_substitute with inside | outlined
      · exact .inl ⟨x, arg, List.mem_cons_self, inside⟩
      · exact .inr outlined

theorem parts_instantiate {xs : List String} {b : Ty} {args : List Ty} {u : Ty}
    (part : u ∈ (instantiate xs b args).parts) : (∃ arg ∈ args, Outlined arg u) ∨ Outlined b u := by
  rcases (Outlined.of_part part).of_foldl_substitute with ⟨x, arg, member, outlined⟩ | outlined
  · exact .inl ⟨arg, (List.of_mem_zip member).2, outlined⟩
  · exact .inr ((renameApart_parts args xs xs b).2 u outlined)

end Substitution

section Merging

theorem mem_of_mem_mergeAlternatives {fs gs : List (String × Option Ty)} {g : String × Option Ty}
    (member : g ∈ mergeAlternatives fs gs) : g ∈ fs ∨ g ∈ gs := by
  unfold mergeAlternatives at member
  induction gs generalizing fs with
  | nil => exact .inl member
  | cons f gs ih =>
    rw [List.foldl_cons] at member
    rcases ih member with before | later
    · split at before
      · exact .inl before
      · rcases List.mem_append.mp before with before | new
        · exact .inl before
        · exact .inr (by simp_all)
    · exact .inr (List.mem_cons_of_mem f later)

mutual

/-- The parts of a merged type look like parts of one of the two. -/
theorem parts_merge (t u : Ty) {v : Ty} (part : v ∈ (merge t u).parts) : Outlined t v ∨ Outlined u v := by
  by_cases failed : (t.isError || u.isError) = true
  · have merged : merge t u = error := by rw [merge.eq_def, if_pos failed]
    obtain rfl : v = error := by simpa [merged, parts] using part
    cases t <;> cases u <;> simp_all [isError, Outlined, parts, Outline.refl]
  by_cases first : t.isWildcard = true
  · rw [merge.eq_def, if_neg failed, if_pos first] at part
    exact .inr (.of_part part)
  by_cases second : u.isWildcard = true
  · rw [merge.eq_def, if_neg failed, if_neg first, if_pos second] at part
    exact .inl (.of_part part)
  rw [merge.eq_def, if_neg failed, if_neg first, if_neg second] at part
  split at part
  · rename_i l r l' r'
    rw [parts, List.mem_cons, List.mem_append] at part
    rcases part with rfl | part | part
    · exact .inl (.of_other (by simp) (by simp) (by simp))
    · exact (parts_merge l l' part).imp (.of_subset (by simp [parts])) (.of_subset (by simp [parts]))
    · exact (parts_merge r r' part).imp (.of_subset (by simp [parts])) (.of_subset (by simp [parts]))
  · rename_i t u
    rw [parts, List.mem_cons] at part
    rcases part with rfl | part
    · exact .inl (.of_other (by simp) (by simp) (by simp))
    · exact (parts_merge t u part).imp (.of_subset (by simp [parts])) (.of_subset (by simp [parts]))
  · rename_i t u
    rw [parts, List.mem_cons] at part
    rcases part with rfl | part
    · exact .inl (.of_other (by simp) (by simp) (by simp))
    · exact (parts_merge t u part).imp (.of_subset (by simp [parts])) (.of_subset (by simp [parts]))
  · rename_i ts us
    split at part
    · rw [parts, List.mem_cons] at part
      rcases part with rfl | part
      · exact .inl (.of_other (by simp) (by simp) (by simp))
      · exact (partsAll_mergeAll ts us part).imp (.of_all (by simp [parts])) (.of_all (by simp [parts]))
    · exact .inl (.of_part part)
  · rename_i ps r qs s
    split at part
    · rw [parts, List.mem_cons, List.mem_append] at part
      rcases part with rfl | part | part
      · exact .inl (.of_other (by simp) (by simp) (by simp))
      · exact (partsAll_mergeAll ps qs part).imp (.of_all (by simp [parts])) (.of_all (by simp [parts]))
      · exact (parts_merge r s part).imp (.of_subset (by simp [parts])) (.of_subset (by simp [parts]))
    · exact .inl (.of_part part)
  · rename_i fs gs
    rw [parts, List.mem_cons, mem_partsAlternatives] at part
    rcases part with rfl | ⟨l, t, member, part⟩
    · exact .inl (.of_other (by simp) (by simp) (by simp))
    · have inside {fs : List (String × Option Ty)} (listed : (l, some t) ∈ fs) :
          Outlined (variant fs) v :=
        .of_subset (parts_subset_variant listed) (.of_part part)
      exact (mem_of_mem_mergeAlternatives member).imp inside inside
  · exact .inl (.of_part part)
termination_by t.size
decreasing_by all_goals (simp_all only [size]; omega)

theorem partsAll_mergeAll (ts us : List Ty) {v : Ty} (part : v ∈ partsAll (mergeAll ts us)) :
    (∃ w ∈ partsAll ts, Outline w v) ∨ ∃ w ∈ partsAll us, Outline w v := by
  match ts, us with
  | [], _ => simp [mergeAll, partsAll] at part
  | _ :: _, [] => simp [mergeAll, partsAll] at part
  | t :: ts, u :: us =>
    rw [mergeAll, partsAll, List.mem_append] at part
    rw [partsAll, partsAll]
    rcases part with part | part
    · refine (parts_merge t u part).imp ?_ ?_ <;>
        exact fun ⟨w, inside, outline⟩ => ⟨w, List.mem_append_left _ inside, outline⟩
    · refine (partsAll_mergeAll ts us part).imp ?_ ?_ <;>
        exact fun ⟨w, inside, outline⟩ => ⟨w, List.mem_append_right _ inside, outline⟩
termination_by sizes ts
decreasing_by all_goals (simp_all only [sizes]; omega)

end

end Merging

end StellaLang.Ty
