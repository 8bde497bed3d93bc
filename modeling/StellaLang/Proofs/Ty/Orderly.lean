import StellaLang.Proofs.Ty.Capture

/-! Types in which no binders get tangled, whatever is put in that has certain free names. It takes
two binders of one universal type to tangle, one of them unused and standing before the other, and
two of the free names that are their names with digits at the end. -/
namespace StellaLang.Ty

section Looseness

/-- No two binders could get one name in the place of names from a list, unless the later one is
not used, or the earlier one is, so that its new name is seen. -/
def Loose (names xs : List String) (b : Ty) : Prop :=
  ∀ i j : Fin xs.length, i < j → ¬Used xs b i → Used xs b j →
    Fresh.Apart xs[i] xs[j] ∨
      ∀ v ∈ names, ∀ w ∈ names, Fresh.Numbered xs[i] v → Fresh.Numbered xs[j] w → v = w

instance (names xs : List String) (b : Ty) : Decidable (Loose names xs b) :=
  inferInstanceAs (Decidable (∀ i j : Fin xs.length, i < j → ¬Used xs b i → Used xs b j → _))

variable {names siblings shared xs ws : List String} {b c : Ty} {x : String} {s : Ty}

theorem Loose.get (loose : Loose names xs b) {i j : Nat} {y z : String} (less : i < j)
    (first : xs[i]? = some y) (second : xs[j]? = some z) (unused : ¬Used xs b i) (used : Used xs b j) :
    Fresh.Apart y z ∨ ∀ v ∈ names, ∀ w ∈ names, Fresh.Numbered y v → Fresh.Numbered z w → v = w := by
  obtain ⟨inside, rfl⟩ := List.getElem?_eq_some_iff.mp first
  obtain ⟨inside', rfl⟩ := List.getElem?_eq_some_iff.mp second
  exact loose ⟨i, inside⟩ ⟨j, inside'⟩ less unused used

theorem Loose.not_clash (loose : Loose names xs b) (freshens : Freshens siblings shared xs b ws c)
    (inside : xs ⊆ siblings) (within : ∀ y ∈ xs, y ∈ shared → y ∈ names) : ¬Clash xs b ws := by
  intro clash
  obtain ⟨i, j, y, z, less, first, second, used, unused, taken, taken', other, entangled⟩ :=
    freshens.entangled inside clash
  rcases loose.get less first second unused used with apart | same
  · exact entangled apart
  · have left := within y (List.mem_of_getElem? first) taken
    have right := within z (List.mem_of_getElem? second) taken'
    exact other (same y left z right (.refl y) (.refl z))

/-- Numbered binders are as loose as before, if the body uses the same ones. -/
theorem Loose.numbered (loose : Loose names xs b) (numbered : List.Forall₂ Fresh.Numbered xs ws)
    (sameUse : ∀ i, Used ws c i ↔ Used xs b i) : Loose names ws c := by
  intro i j less unused used
  have bound (k : Fin ws.length) : k.val < xs.length := by
    rw [numbered.length_eq]
    exact k.isLt
  have longer (k : Fin ws.length) : Fresh.Numbered (xs.get ⟨k, bound k⟩) ws[k] :=
    numbered.get (bound k) k.isLt
  have before (k : Fin ws.length) : xs[k.val]? = some (xs.get ⟨k, bound k⟩) :=
    List.getElem?_eq_getElem (bound k)
  rw [sameUse] at unused used
  refine (loose.get less (before i) (before j) unused used).imp
    (fun apart => apart.numbered (longer i) (longer j)) fun same v member w member' left right => ?_
  exact same v member w member' ((longer i).trans left) ((longer j).trans right)

end Looseness

/-- The binders of each universal type in the type are loose. -/
def Orderly (names : List String) (t : Ty) : Prop :=
  ∀ u ∈ t.parts, u.IfUniversal (Loose names)

instance (names : List String) (t : Ty) : Decidable (t.Orderly names) :=
  inferInstanceAs (Decidable (∀ u ∈ t.parts, u.IfUniversal (Loose names)))

theorem Orderly.of_parts {names : List String} {t u : Ty} (orderly : t.Orderly names)
    (inside : u.parts ⊆ t.parts) : u.Orderly names :=
  fun v part => orderly v (inside part)

theorem Orderly.loose {names xs : List String} {b : Ty} (orderly : (forAll xs b).Orderly names) :
    Loose names xs b :=
  orderly (forAll xs b) (mem_parts_self _)

/-- Names that stay apart are loose, whatever is put in. -/
theorem Tidy.orderly {t : Ty} (tidy : t.Tidy) (names : List String) : t.Orderly names := by
  intro u part
  cases u with
  | forAll xs b =>
    intro i j less _ _
    have separate : Separate xs := tidy (forAll xs b) part
    exact .inl (List.pairwise_iff_getElem.mp separate.1 i j i.isLt j.isLt less)
  | _ => trivial

/-- Like `Orderly`, but only of what stands where all the watched names are free. -/
inductive Calm (watched names : List String) : Ty → Prop where
  | absent (member : x ∈ watched) (unused : x ∉ t.freeNames) : Calm watched names t
  | var (y : String) : Calm watched names (var y)
  | components (none : t.scopeless = true) (each : ∀ c ∈ t.components, Calm watched names c) :
      Calm watched names t
  | forAll (loose : Loose names xs b) (body : Calm watched names b) : Calm watched names (forAll xs b)
  | recursive (y : String) (body : Calm watched names b) : Calm watched names (recursive y b)

section Calmness

variable {watched names : List String} {t b c : Ty} {x : String} {s : Ty}

theorem Orderly.calm (t : Ty) (orderly : t.Orderly names) (watched : List String) : t.Calm watched names := by
  cases none : t.scopeless with
  | true =>
    refine .components none fun c member => ?_
    have smaller := size_lt_of_mem_components member
    exact Orderly.calm c (orderly.of_parts (parts_subset_of_mem_components member)) watched
  | false =>
    cases t with
    | var y => exact .var y
    | forAll xs b => exact .forAll orderly.loose (Orderly.calm b (orderly.of_parts (by simp [parts])) watched)
    | recursive y b => exact .recursive y (Orderly.calm b (orderly.of_parts (by simp [parts])) watched)
    | _ => contradiction
termination_by t.size
decreasing_by all_goals simp_all only [size] <;> omega

theorem Calm.mono {watched' : List String} (calm : t.Calm watched names) (more : watched ⊆ watched') :
    t.Calm watched' names := by
  induction calm with
  | absent member unused => exact .absent (more member) unused
  | var y => exact .var y
  | components none _ each => exact .components none each
  | forAll loose _ body => exact .forAll loose body
  | recursive y _ body => exact .recursive y body

theorem Freshens.calm {siblings shared xs ws : List String} (freshens : Freshens siblings shared xs b ws c)
    (below : ∀ b' : Ty, b'.size = b.size → b'.Calm watched names → ∀ y z, y ∉ watched → z ∉ watched →
      (b'.substitute y (Ty.var z)).Calm watched names)
    (apart : ∀ v ∈ watched, v ∉ xs ∧ v ∉ ws) (calm : b.Calm watched names) : c.Calm watched names := by
  induction freshens with
  | nil => exact calm
  | keep _ _ ih =>
    refine ih below (fun v member => ?_) calm
    exact (apart v member).imp (mt (List.mem_cons_of_mem _)) (mt (List.mem_cons_of_mem _))
  | @rename y z _ _ _ b _ _ _ ih =>
    have other : y ∉ watched := fun member => (apart y member).1 List.mem_cons_self
    have other' : z ∉ watched := fun member => (apart z member).2 List.mem_cons_self
    refine ih (fun b' same => below b' (same.trans (size_substitute_var b y z))) (fun v member => ?_)
      (below b rfl calm y z other other')
    exact (apart v member).imp (mt (List.mem_cons_of_mem _)) (mt (List.mem_cons_of_mem _))

/-- Putting in a type without the watched names keeps a type calm. -/
theorem Calm.substitute (t : Ty) {x : String} {s : Ty} (calm : t.Calm watched names)
    (put : s.Calm watched names) (apart : ∀ v ∈ watched, v ∉ x :: s.freeNames)
    (untangled : ¬Tangles x s t) : (t.substitute x s).Calm watched names := by
  have renamed (b : Ty) (smaller : b.size < t.size) (calm : b.Calm watched names) (y z : String)
      (other : y ∉ watched) (other' : z ∉ watched) :
      (b.substitute y (Ty.var z)).Calm watched names := by
    refine Calm.substitute b calm (.var z) (fun v member same => ?_) ?_
    · rcases List.mem_pair.mp same with rfl | rfl <;> contradiction
    · exact (form_substitute_iff_not_tangles ..).mp (renamedAsForm b y z)
  -- A body is calm with the new names of its binders, unless a watched name is bound again.
  have body (siblings xs : List String) (b : Ty) (smaller : b.size < t.size) (visible : x ∉ xs)
      (calm : b.Calm watched names) (untangled : ¬Tangles x s (renameBinders siblings xs b x s).1.2)
      (unwatched : ∀ v ∈ watched, v ∉ (renameBinders siblings xs b x s).1.1) :
      ((renameBinders siblings xs b x s).1.2.substitute x s).Calm watched names := by
    obtain ⟨-, sameSize⟩ := (renameBinders siblings xs b x s).2
    obtain ⟨names', within, freshens⟩ := exists_freshens siblings b s visible
    refine Calm.substitute _ ?_ put apart untangled
    refine freshens.calm (fun b' same => renamed b' (by omega)) (fun v member => ?_) calm
    have unshared : v ∉ names' := fun shared => apart v member (within shared)
    exact ⟨fun bound => unwatched v member (freshens.mem_of_unshared bound unshared), unwatched v member⟩
  cases calm with
  | absent member unused =>
    rename_i v
    refine .absent member fun free => ?_
    rcases (freeNames_substitute ..).mp free with ⟨-, own⟩ | ⟨-, shared⟩
    · exact unused own
    · exact apart v member (List.mem_cons_of_mem x shared)
  | var y =>
    rw [substitute_var]
    split
    · exact put
    · exact .var y
  | components none each =>
    refine .components (scopeless_substitute none) fun c member => ?_
    rw [components_substitute none] at member
    obtain ⟨d, inside, rfl⟩ := List.mem_map.mp member
    have smaller := size_lt_of_mem_components inside
    exact Calm.substitute d (each d inside) put apart fun tangles => untangled (.component inside tangles)
  | @forAll xs b loose calm =>
    rw [substitute_forAll]
    split
    · exact .forAll loose calm
    · rename_i visible
      have smaller : b.size < (Ty.forAll xs b).size := by simp only [size]; omega
      obtain ⟨noClash, untangled⟩ :=
        not_or.mp fun either => untangled (tangles_forAll_iff.mpr ⟨visible, either⟩)
      by_cases hidden : ∃ v ∈ watched, v ∈ (renameBinders xs xs b x s).1.1
      · obtain ⟨v, member, bound⟩ := hidden
        exact .absent member (by simp [freeNames, bound])
      · have unwatched : ∀ v ∈ watched, v ∉ (renameBinders xs xs b x s).1.1 :=
          fun v member bound => hidden ⟨v, member, bound⟩
        have numbered := (renameBinders_parts (partsBelow (b.size + 1)) xs xs (x := x) (s := s)
          (Nat.lt_succ_self _)).1
        exact .forAll (loose.numbered numbered fun i => used_substitute_iff visible noClash)
          (body xs xs b smaller visible calm untangled unwatched)
  | @recursive b y calm =>
    by_cases same : y = x
    · rw [substitute_recursive, if_pos same]
      exact .recursive y calm
    · obtain ⟨z, binder, substituted⟩ := substitute_recursive_eq (b := b) (s := s) same
      have visible : x ∉ [y] := fun hidden => same (List.mem_singleton.mp hidden).symm
      rw [substituted]
      by_cases hidden : z ∈ watched
      · exact .absent hidden (by simp [freeNames])
      · refine .recursive z (body [] [y] b (by simp only [size]; omega) visible calm
          (fun tangles => untangled (.recursive same tangles)) fun v member bound => ?_)
        rw [binder, List.mem_singleton] at bound
        exact hidden (bound ▸ member)
termination_by t.size
decreasing_by all_goals simp_all only

theorem Calm.rename (calm : t.Calm watched names) {y z : String} (other : y ∉ watched) (other' : z ∉ watched) :
    (t.substitute y (Ty.var z)).Calm watched names := by
  refine Calm.substitute t calm (.var z) (fun v member same => ?_) ?_
  · rcases List.mem_pair.mp same with rfl | rfl <;> contradiction
  · exact (form_substitute_iff_not_tangles ..).mp (renamedAsForm t y z)

/-- In a calm type nothing gets tangled. -/
theorem Tangles.not_calm (tangles : Tangles x s t) (within : s.freeNames ⊆ names) :
    ¬t.Calm [x] names := by
  -- The bodies stay calm while their binders get new names.
  have inBody {siblings xs : List String} {b : Ty} (visible : x ∉ xs) (calm : b.Calm [x] names) :
      (renameBinders siblings xs b x s).1.2.Calm [x] names := by
    obtain ⟨names', -, freshens⟩ := exists_freshens siblings b s visible
    refine freshens.calm (fun b' _ calm y z other other' => ?_) (fun v member => ?_) calm
    · exact calm.rename other other'
    · rw [List.mem_singleton.mp member]
      exact ⟨visible, not_mem_renameBinders visible⟩
  have notAbsent {t : Ty} {v : String} (tangles : Tangles x s t) (member : v ∈ [x]) : v ∈ t.freeNames :=
    List.mem_singleton.mp member ▸ tangles.free
  induction tangles with
  | component member inside ih =>
    intro calm
    cases calm with
    | absent watched unused => exact unused (notAbsent (.component member inside) watched)
    | components _ each => exact ih (each _ member)
    | _ => exact List.not_mem_nil member
  | @clash xs b visible clash =>
    intro calm
    cases calm with
    | absent watched unused => exact unused (notAbsent (.clash visible clash) watched)
    | components none => contradiction
    | forAll loose =>
      have freshens := renameBinders_freshens xs s (free_of_clash clash) visible
      refine loose.not_clash freshens (List.Subset.refl xs) (fun y bound shared => within ?_) clash
      refine List.mem_of_ne_of_mem ?_ shared
      rintro rfl
      exact visible bound
  | forAll visible inside ih =>
    intro calm
    cases calm with
    | absent watched unused => exact unused (notAbsent (.forAll visible inside) watched)
    | components none => contradiction
    | forAll _ body => exact ih (inBody visible body)
  | recursive other inside ih =>
    intro calm
    cases calm with
    | absent watched unused => exact unused (notAbsent (.recursive other inside) watched)
    | components none => contradiction
    | recursive _ body =>
      exact ih (inBody (fun hidden => other (List.mem_singleton.mp hidden).symm) body)

/-- Substitution in a type is substitution in its form where the binders are loose. -/
theorem Calm.form_substitute (calm : t.Calm [x] names) (within : s.freeNames ⊆ names) :
    (t.substitute x s).form = t.form.subst x s.form :=
  (form_substitute_iff_not_tangles t x s).mpr fun tangles => tangles.not_calm within calm

theorem Orderly.form_substitute (orderly : t.Orderly s.freeNames) (x : String) :
    (t.substitute x s).form = t.form.subst x s.form :=
  (orderly.calm t [x]).form_substitute (List.Subset.refl _)

theorem form_substitute (tidy : t.Tidy) (x : String) (s : Ty) :
    (t.substitute x s).form = t.form.subst x s.form :=
  (tidy.orderly s.freeNames).form_substitute x

end Calmness

end StellaLang.Ty
