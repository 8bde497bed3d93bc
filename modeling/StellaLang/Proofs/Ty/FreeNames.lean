import StellaLang.Proofs.Ty.Nameless

/-! The free names of types that the checker computes: by substitution, by unfolding a recursive
type, by instantiating a universal one and by merging two types. None of these sets a name free
that was not free before. -/
namespace StellaLang.Ty

section Substitution

/-- What is free after a substitution: the names that were free, but for the variable, and those of
the type put in if the variable was free. -/
def FreesAsPut (x : String) (s t : Ty) : Prop :=
  ∀ z, z ∈ (t.substitute x s).freeNames ↔
    z ≠ x ∧ z ∈ t.freeNames ∨ x ∈ t.freeNames ∧ z ∈ s.freeNames

variable {x : String} {s : Ty}

/-- A type that neither is a variable nor binds one has the free names of its components. -/
theorem FreesAsPut.of_components {t : Ty} (none : t.scopeless = true)
    (each : ∀ c ∈ t.components, FreesAsPut x s c) : FreesAsPut x s t := by
  intro z
  rw [mem_freeNames_iff (scopeless_substitute none), components_substitute none, mem_freeNames_iff none,
    mem_freeNames_iff none]
  constructor
  · rintro ⟨_, member, free⟩
    obtain ⟨c, first, rfl⟩ := List.mem_map.mp member
    rcases (each c first z).mp free with ⟨other, own⟩ | ⟨replaced, put⟩
    · exact .inl ⟨other, c, first, own⟩
    · exact .inr ⟨⟨c, first, replaced⟩, put⟩
  · rintro (⟨other, c, first, own⟩ | ⟨⟨c, first, replaced⟩, put⟩)
    · exact ⟨_, List.mem_map_of_mem first, (each c first z).mpr (.inl ⟨other, own⟩)⟩
    · exact ⟨_, List.mem_map_of_mem first, (each c first z).mpr (.inr ⟨replaced, put⟩)⟩

/-- What `freesAsPut` says of types below a size. -/
def FreesBelow (n : Nat) : Prop :=
  ∀ t x s, t.size < n → FreesAsPut x s t

/-- What is known of the binders and the body that come of renaming the binders `ys` of `b`. -/
structure Renames (ys : List String) (b : Ty) (x : String) (s : Ty) (zs : List String) (c : Ty) :
    Prop where
  /-- The variable stays where it was. -/
  stays : x ∈ c.freeNames ↔ x ∈ b.freeNames
  /-- The binders are no names of what is put in, if it is put in anywhere. -/
  apart : x ∈ b.freeNames → ∀ z ∈ zs, z ∉ s.freeNames
  /-- They bind what was bound before. -/
  free : ∀ z, z ∉ zs ∧ z ∈ c.freeNames ↔ z ∉ ys ∧ z ∈ b.freeNames

theorem renameBinders_renames {n : Nat} (below : FreesBelow n) (siblings : List String)
    {ys : List String} {b : Ty} (small : b.size < n) (other : x ∉ ys) :
    Renames ys b x s (renameBinders siblings ys b x s).1.1 (renameBinders siblings ys b x s).1.2 := by
  induction ys generalizing b with
  | nil =>
    rw [renameBinders_nil]
    exact ⟨Iff.rfl, fun _ _ member => (List.not_mem_nil member).elim, fun _ => Iff.rfl⟩
  | cons y ys ih =>
    obtain ⟨different, others⟩ := not_or.mp (List.mem_cons.not.mp other)
    rw [renameBinders]
    by_cases captured : captures y b x s = true
    · -- The binder gets a new name, which stands for the old one wherever that was free.
      obtain ⟨new, notPut⟩ := fresh_not_mem siblings y b x s
      obtain ⟨notVariable, notPut⟩ := not_or.mp (List.mem_cons.not.mp notPut)
      rw [if_pos captured]
      generalize Fresh.name y (taken siblings b x s) = fresh at new notVariable notPut ⊢
      have sameSize := size_substitute_var b y fresh
      have renamed := below b y (var fresh) small
      change Renames (y :: ys) b x s
        (fresh :: (renameBinders siblings ys (b.substitute y (var fresh)) x s).1.1)
        (renameBinders siblings ys (b.substitute y (var fresh)) x s).1.2
      have rest := ih (b := b.substitute y (var fresh)) (sameSize ▸ small) others
      have kept : x ∈ (b.substitute y (var fresh)).freeNames ↔ x ∈ b.freeNames := by
        rw [renamed x]
        simp [freeNames, different, Ne.symm notVariable]
      refine ⟨rest.stays.trans kept, fun inside z member => ?_, fun z => ?_⟩
      · rcases List.mem_cons.mp member with rfl | member
        · exact notPut
        · exact rest.apart (kept.mpr inside) z member
      · have body := rest.free z
        have first := renamed z
        simp only [freeNames, List.mem_singleton] at first
        simp only [List.mem_cons, not_or]
        rw [and_assoc, body, first]
        constructor
        · rintro ⟨notFresh, unbound, ⟨notBinder, free⟩ | ⟨-, same⟩⟩
          · exact ⟨⟨notBinder, unbound⟩, free⟩
          · exact absurd same notFresh
        · rintro ⟨⟨notBinder, unbound⟩, free⟩
          exact ⟨fun same => new (same ▸ free), unbound, .inl ⟨notBinder, free⟩⟩
    · rw [if_neg captured]
      have rest := ih small others
      refine ⟨rest.stays, fun inside z member => ?_, fun z => ?_⟩
      · rcases List.mem_cons.mp member with rfl | member
        · simpa [captures, mentions, inside] using captured
        · exact rest.apart inside z member
      · have body := rest.free z
        simp only [List.mem_cons, not_or]
        rw [and_assoc, body, and_assoc]

/-- What is free below binders that were renamed, once the type is put in. -/
theorem Renames.freesAsPut {ys zs : List String} {b c : Ty} (renames : Renames ys b x s zs c)
    (other : x ∉ ys) (put : FreesAsPut x s c) (z : String) :
    z ∈ (c.substitute x s).freeNames ∧ z ∉ zs ↔
      z ≠ x ∧ (z ∈ b.freeNames ∧ z ∉ ys) ∨ (x ∈ b.freeNames ∧ x ∉ ys) ∧ z ∈ s.freeNames := by
  have body := renames.free z
  rw [put z]
  constructor
  · rintro ⟨⟨different, own⟩ | ⟨replaced, inside⟩, unbound⟩
    · exact .inl ⟨different, (body.mp ⟨unbound, own⟩).symm⟩
    · exact .inr ⟨⟨renames.stays.mp replaced, other⟩, inside⟩
  · rintro (⟨different, own⟩ | ⟨⟨replaced, -⟩, inside⟩)
    · obtain ⟨unbound, still⟩ := body.mpr own.symm
      exact ⟨.inl ⟨different, still⟩, unbound⟩
    · exact ⟨.inr ⟨renames.stays.mpr replaced, inside⟩,
        fun bound => renames.apart replaced z bound inside⟩

/-- By induction on the size, since a body is renamed before the substitution goes on in it. -/
theorem freesBelow (n : Nat) : FreesBelow n := by
  induction n with
  | zero => intro t x s small; omega
  | succ n below =>
    intro t x s small
    cases none : t.scopeless with
    | true =>
      refine .of_components none fun c member => ?_
      have smaller := size_lt_of_mem_components member
      exact below c x s (by omega)
    | false =>
      cases t with
      | var y =>
        intro z
        rw [substitute_var]
        by_cases same : y = x
        · subst same
          simp [freeNames]
        · have other : x ≠ y := Ne.symm same
          simp only [if_neg same, freeNames, List.mem_singleton, other, false_and, or_false]
          exact ⟨fun found => ⟨found ▸ same, found⟩, And.right⟩
      | forAll xs b =>
        rw [FreesAsPut, substitute_forAll]
        by_cases bound : x ∈ xs
        · intro z
          simp only [if_pos bound, freeNames, List.mem_filter, decide_eq_true_eq]
          constructor
          · exact fun free => .inl ⟨fun same => free.2 (same ▸ bound), free⟩
          · rintro (⟨-, free⟩ | ⟨⟨-, unbound⟩, -⟩)
            · exact free
            · exact absurd bound unbound
        · have smaller : b.size < n := by simp only [size] at small; omega
          have sameSize := (renameBinders xs xs b x s).2.2
          have renames := renameBinders_renames (s := s) below xs smaller bound
          intro z
          simp only [if_neg bound, freeNames, List.mem_filter, decide_eq_true_eq]
          exact renames.freesAsPut bound (below _ x s (by omega)) z
      | recursive y b =>
        by_cases same : y = x
        · subst same
          intro z
          rw [substitute_recursive, if_pos rfl]
          simp [freeNames]
        · have smaller : b.size < n := by simp only [size] at small; omega
          have bound : x ∉ [y] := by simpa using Ne.symm same
          have sameSize := (renameBinders [] [y] b x s).2.2
          have renames := renameBinders_renames (s := s) below [] smaller bound
          obtain ⟨fresh, binder, substituted⟩ := substitute_recursive_eq (b := b) (s := s) same
          rw [binder] at renames
          intro z
          have body := renames.freesAsPut bound (below _ x s (by omega)) z
          simp only [List.mem_singleton] at body
          simp only [substituted, freeNames, List.mem_filter, decide_eq_true_eq]
          exact body
      | _ => contradiction

theorem freeNames_substitute (t : Ty) (x : String) (s : Ty) (z : String) :
    z ∈ (t.substitute x s).freeNames ↔
      z ≠ x ∧ z ∈ t.freeNames ∨ x ∈ t.freeNames ∧ z ∈ s.freeNames :=
  freesBelow (t.size + 1) t x s (Nat.lt_succ_self _) z

/-- A type that neither is a variable nor binds one is left alone if its components are. -/
theorem substitute_eq_self {t : Ty} (none : t.scopeless = true)
    (each : ∀ c ∈ t.components, c.substitute x s = c) : t.substitute x s = t := by
  cases t with
  | var | forAll | recursive => contradiction
  | arrow ps r =>
    obtain ⟨result, params⟩ := List.forall_mem_cons.mp each
    rw [substitute_arrow, result, List.map_congr_left params, List.map_id']
  | tuple ts =>
    have elements : ∀ t ∈ ts, t.substitute x s = t := each
    rw [substitute_tuple, List.map_congr_left elements, List.map_id']
  | sum l r =>
    obtain ⟨left, right⟩ := List.forall_mem_cons.mp each
    rw [substitute_sum, left, right r (List.mem_singleton.mpr rfl)]
  | record fs =>
    rw [substitute_record]
    refine congrArg record ((List.map_congr_left fun (l, t) member => ?_).trans (List.map_id fs))
    exact congrArg (l, ·) (each t (mem_types.mpr ⟨l, member⟩))
  | variant fs =>
    rw [substitute_variant]
    refine congrArg variant ((List.map_congr_left fun (l, payload) member => ?_).trans (List.map_id fs))
    cases payload with
    | none => rfl
    | some t => exact congrArg (fun t => (l, some t)) (each t (mem_payloads.mpr ⟨l, member⟩))
  | list e => rw [substitute_list, each e (List.mem_singleton.mpr rfl)]
  | ref e => rw [substitute_ref, each e (List.mem_singleton.mpr rfl)]
  | _ => simp [substitute, substituteSized]

/-- Where the variable is not free, nothing changes and no binder gets another name. -/
theorem substitute_of_not_free (t : Ty) (absent : x ∉ t.freeNames) : t.substitute x s = t := by
  cases none : t.scopeless with
  | true =>
    refine substitute_eq_self none fun c member => ?_
    have smaller := size_lt_of_mem_components member
    exact substitute_of_not_free c fun free => absent (freeNames_subset_of_mem_components member free)
  | false =>
    cases t with
    | var y =>
      have other : y ≠ x := by simpa [freeNames, eq_comm] using absent
      rw [substitute_var, if_neg other]
    | forAll xs b =>
      rw [substitute_forAll]
      split
      · rfl
      · rename_i unbound
        have inside : x ∉ b.freeNames := fun free => absent (by simpa [freeNames] using ⟨free, unbound⟩)
        simp only [renameBinders_of_not_free s inside, substitute_of_not_free b inside]
    | recursive y b =>
      rw [substitute_recursive]
      split
      · rfl
      · rename_i other
        have inside : x ∉ b.freeNames := fun free =>
          absent (by simpa [freeNames] using ⟨free, Ne.symm other⟩)
        have kept : captures y b x s = false := by simp [captures, mentions, inside]
        rw [kept, if_neg Bool.false_ne_true, substitute_of_not_free b inside]
    | _ => contradiction
termination_by t.size
decreasing_by all_goals simp_all only [size] <;> omega

theorem mentions_iff {t : Ty} {x : String} : t.mentions x = true ↔ x ∈ t.freeNames :=
  List.contains_iff_mem

/-- What a type mentions after a substitution: all it mentioned but the variable, and all that the
type put in mentions, if it mentioned the variable. If it did not, it is the type it was. -/
theorem mentions_substitute (t : Ty) (x : String) (s : Ty) (z : String) :
    ((t.substitute x s).mentions z = true ↔
        z ≠ x ∧ t.mentions z = true ∨ t.mentions x = true ∧ s.mentions z = true) ∧
      (t.mentions x = false → t.substitute x s = t) := by
  refine ⟨?_, fun unmentioned => ?_⟩
  · simp only [mentions_iff]
    exact freeNames_substitute t x s z
  · refine substitute_of_not_free t fun free => ?_
    rw [mentions_iff.mpr free] at unmentioned
    contradiction

/-- In `forall a b. {b, c, x}` the name `a` is put in for `x` without being bound, and for `y`, which
is not there, without a new name for the binder. -/
theorem mentions_substitute_below_binders :
    let t := forAll ["a", "b"] (tuple [var "b", var "c", var "x"])
    (t.substitute "x" (var "a")).mentions "a" = true ∧
      t.mentions "y" = false ∧ t.substitute "y" (var "a") = t :=
  ⟨(mentions_substitute _ "x" (var "a") "a").1.mpr (.inr ⟨by decide, by decide⟩), by decide,
    (mentions_substitute _ "y" (var "a") "a").2 (by decide)⟩

/-- Unfolding a recursive type sets nothing free. -/
theorem freeNames_unfold {t : Ty} {z : String} (free : z ∈ t.unfold.freeNames) : z ∈ t.freeNames := by
  cases t with
  | recursive x b =>
    rcases (freeNames_substitute b x (recursive x b) z).mp free with ⟨other, inside⟩ | ⟨-, inside⟩
    · simpa [freeNames, other] using inside
    · exact inside
  | _ => exact free

end Substitution

section Instantiation

/-- Names that are not bound stay free while binders are renamed apart. -/
theorem freeNames_renameApart (args : List Ty) (siblings : List String) {xs : List String} {b : Ty}
    {z : String} :
    z ∉ (renameApart args siblings xs b).1 ∧ z ∈ (renameApart args siblings xs b).2.freeNames →
      z ∉ xs ∧ z ∈ b.freeNames := by
  induction xs generalizing b with
  | nil => exact id
  | cons x xs ih =>
    rw [renameApart]
    split
    · rintro ⟨unbound, free⟩
      obtain ⟨notFresh, unbound⟩ := not_or.mp (List.mem_cons.not.mp unbound)
      obtain ⟨others, inside⟩ := ih ⟨unbound, free⟩
      rcases (freeNames_substitute ..).mp inside with ⟨other, own⟩ | ⟨-, renamed⟩
      · exact ⟨List.mem_cons.not.mpr (not_or.mpr ⟨other, others⟩), own⟩
      · exact absurd (List.mem_singleton.mp renamed) notFresh
    · rintro ⟨unbound, free⟩
      obtain ⟨other, unbound⟩ := not_or.mp (List.mem_cons.not.mp unbound)
      obtain ⟨others, inside⟩ := ih ⟨unbound, free⟩
      exact ⟨List.mem_cons.not.mpr (not_or.mpr ⟨other, others⟩), inside⟩

theorem freeNames_foldl_substitute {xs : List String} {args : List Ty} (enough : xs.length = args.length)
    {t : Ty} {z : String}
    (free : z ∈ ((xs.zip args).foldl (fun t (x, arg) => t.substitute x arg) t).freeNames) :
    z ∉ xs ∧ z ∈ t.freeNames ∨ ∃ arg ∈ args, z ∈ arg.freeNames := by
  induction xs generalizing args t with
  | nil => exact .inl ⟨List.not_mem_nil, free⟩
  | cons x xs ih =>
    cases args with
    | nil => contradiction
    | cons arg args =>
      rcases ih (Nat.succ.inj enough) free with ⟨unbound, inside⟩ | ⟨later, member, inside⟩
      · rcases (freeNames_substitute ..).mp inside with ⟨other, own⟩ | ⟨-, put⟩
        · exact .inl ⟨List.mem_cons.not.mpr (not_or.mpr ⟨other, unbound⟩), own⟩
        · exact .inr ⟨arg, List.mem_cons_self, put⟩
      · exact .inr ⟨later, List.mem_cons_of_mem _ member, inside⟩

/-- Instantiation sets nothing free that was not free in the universal type or an argument. -/
theorem freeNames_instantiate {xs : List String} {b : Ty} {args : List Ty}
    (enough : xs.length = args.length) {z : String} (free : z ∈ (instantiate xs b args).freeNames) :
    z ∈ (forAll xs b).freeNames ∨ ∃ arg ∈ args, z ∈ arg.freeNames := by
  have length := (renameApart_parts args xs xs b).1.length_eq.symm.trans enough
  refine (freeNames_foldl_substitute length free).imp_left fun inside => ?_
  obtain ⟨unbound, own⟩ := freeNames_renameApart args xs inside
  simpa [freeNames] using ⟨own, unbound⟩

end Instantiation

section Merging

mutual

/-- A merged type has no free names but those of the two. -/
theorem freeNames_merge (t u : Ty) {z : String} (free : z ∈ (merge t u).freeNames) :
    z ∈ t.freeNames ∨ z ∈ u.freeNames := by
  by_cases failed : (t.isError || u.isError) = true
  · rw [merge.eq_def, if_pos failed] at free
    contradiction
  by_cases first : t.isWildcard = true
  · rw [merge.eq_def, if_neg failed, if_pos first] at free
    exact .inr free
  by_cases second : u.isWildcard = true
  · rw [merge.eq_def, if_neg failed, if_neg first, if_pos second] at free
    exact .inl free
  rw [merge.eq_def, if_neg failed, if_neg first, if_neg second] at free
  split at free
  · rename_i l r l' r'
    simp only [freeNames, List.mem_append] at free ⊢
    rcases free with free | free
    · exact (freeNames_merge l l' free).imp .inl .inl
    · exact (freeNames_merge r r' free).imp .inr .inr
  · rename_i t u
    exact freeNames_merge t u free
  · rename_i t u
    exact freeNames_merge t u free
  · rename_i ts us
    split at free
    · exact freeNames_mergeAll ts us free
    · exact .inl free
  · rename_i ps r qs s
    split at free
    · simp only [freeNames, List.mem_append] at free ⊢
      rcases free with free | free
      · exact (freeNames_mergeAll ps qs free).imp .inl .inl
      · exact (freeNames_merge r s free).imp .inr .inr
    · exact .inl free
  · rename_i fs gs
    rw [freeNames, freeNamesAlternatives_eq, mem_freeNamesAll] at free
    obtain ⟨t, among, inside⟩ := free
    obtain ⟨⟨l, payload⟩, member, carried⟩ := List.mem_filterMap.mp among
    obtain rfl : payload = some t := carried
    refine (mem_of_mem_mergeAlternatives member).imp ?_ ?_ <;>
      exact fun listed => freeNames_subset_of_mem_components (mem_payloads.mpr ⟨l, listed⟩) inside
  · exact .inl free
termination_by t.size
decreasing_by all_goals (simp_all only [size]; omega)

theorem freeNames_mergeAll (ts us : List Ty) {z : String} (free : z ∈ freeNamesAll (mergeAll ts us)) :
    z ∈ freeNamesAll ts ∨ z ∈ freeNamesAll us := by
  match ts, us with
  | [], _ => simp [mergeAll, freeNamesAll] at free
  | _ :: _, [] => simp [mergeAll, freeNamesAll] at free
  | t :: ts, u :: us =>
    simp only [mergeAll, freeNamesAll, List.mem_append] at free ⊢
    rcases free with free | free
    · exact (freeNames_merge t u free).imp .inl .inl
    · exact (freeNames_mergeAll ts us free).imp .inr .inr
termination_by sizes ts
decreasing_by all_goals (simp_all only [sizes]; omega)

end

end Merging

end StellaLang.Ty
