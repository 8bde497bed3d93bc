import StellaLang.Proofs.Ty.FreeNames

/-! Binders get new names one after the other, before a type is put in that they would capture and
before arguments are put in. This keeps the form of the type that binds them, unless two binders
get one name and the body uses the later one. -/
namespace StellaLang

section Places

variable {xs ys : List String} {x y : String} {i : Nat}

theorem places_eq_some : places xs y = some i ↔ xs[i]? = some y ∧ ∀ j < i, xs[j]? ≠ some y := by
  rw [places, List.idxOf?_eq_some_iff]
  constructor
  · rintro ⟨inside, found, first⟩
    refine ⟨List.getElem?_eq_some_iff.mpr ⟨inside, found⟩, fun j before same => ?_⟩
    exact first j before (List.getElem?_eq_some_iff.mp same).2
  · rintro ⟨found, first⟩
    obtain ⟨inside, found⟩ := List.getElem?_eq_some_iff.mp found
    refine ⟨inside, found, fun j before same => first j before ?_⟩
    exact List.getElem?_eq_some_iff.mpr ⟨Nat.lt_trans before inside, same⟩

theorem mem_of_places (placed : places xs y = some i) : y ∈ xs :=
  List.mem_of_getElem? (places_eq_some.mp placed).1

theorem exists_places (member : y ∈ xs) : ∃ i, places xs y = some i :=
  Option.ne_none_iff_exists'.mp fun absent => places_eq_none.mp absent member

/-- The name that stands where a name stands in another list; other names stay. -/
def renamed (xs ys : List String) (y : String) : String :=
  match places xs y with
  | some i => ys.getD i y
  | none => y

theorem renamed_cons (x : String) (xs : List String) (z : String) (ys : List String) (y : String) :
    renamed (x :: xs) (z :: ys) y = if y = x then z else renamed xs ys y := by
  unfold renamed
  rw [places_cons]
  by_cases same : y = x
  · simp [same]
  · rw [if_neg (Ne.symm same), if_neg same]
    cases places xs y <;> simp

theorem renamed_of_not_mem (absent : y ∉ xs) (ys : List String) : renamed xs ys y = y := by
  rw [renamed, places_eq_none.mpr absent]

theorem getElem?_renamed (length : xs.length = ys.length) (placed : places xs y = some i) :
    ys[i]? = some (renamed xs ys y) := by
  obtain ⟨found, -⟩ := places_eq_some.mp placed
  have inside : i < ys.length := length ▸ (List.getElem?_eq_some_iff.mp found).1
  rw [renamed, placed]
  simp [List.getD_eq_getElem?_getD, inside]

end Places

namespace Form

/-- Gives free names other ones. -/
def naming (f : String → String) (_ : Nat) : Var → Form
  | .free y => var (.free (f y))
  | v => var v

end Form

namespace Ty

/-- Whether a body refers to the binder at a position. Of equal names the first counts. -/
def Used (xs : List String) (b : Ty) (i : Nat) : Prop :=
  ∃ y ∈ b.freeNames, places xs y = some i

instance (xs : List String) (b : Ty) (i : Nat) : Decidable (Used xs b i) :=
  inferInstanceAs (Decidable (∃ _ ∈ _, _))

/-- Two binders have one new name, so that a body that used the later one now uses the
earlier one. -/
def Clash (xs : List String) (b : Ty) (ws : List String) : Prop :=
  ∃ i j, i < j ∧ Used xs b j ∧ ws[i]? = ws[j]?

/-- A new name for a binder that is one of `names`. -/
structure Replaces (siblings names : List String) (y z : String) : Prop where
  taken : y ∈ names
  free : z ∉ names
  new : z ∉ siblings
  numbered : Fresh.Numbered y z

/-- New names are given one after the other to those binders of a body that are among `names`,
and to no others. -/
inductive Freshens (siblings names : List String) : List String → Ty → List String → Ty → Prop where
  | nil (b : Ty) : Freshens siblings names [] b [] b
  | keep (free : y ∉ names) (rest : Freshens siblings names ys b ws c) :
      Freshens siblings names (y :: ys) b (y :: ws) c
  | rename (replaces : Replaces siblings names y z) (unused : z ∉ b.freeNames)
      (rest : Freshens siblings names ys (b.substitute y (var z)) ws c) :
      Freshens siblings names (y :: ys) b (z :: ws) c

theorem renameBinders_freshens (siblings : List String) {ys : List String} {b : Ty} {x : String} (s : Ty)
    (free : x ∈ b.freeNames) (visible : x ∉ ys) :
    Freshens siblings (x :: s.freeNames) ys b (renameBinders siblings ys b x s).1.1
      (renameBinders siblings ys b x s).1.2 := by
  induction ys generalizing b with
  | nil =>
    rw [renameBinders_nil]
    exact .nil b
  | cons y ys ih =>
    obtain ⟨other, others⟩ := not_or.mp (List.mem_cons.not.mp visible)
    rw [renameBinders]
    by_cases captured : captures y b x s = true
    · rw [if_pos captured]
      obtain ⟨unused, apart⟩ := fresh_not_mem siblings y b x s
      have new := Fresh.name_not_mem y (taken siblings b x s)
      have numbered := Fresh.numbered_name y (taken siblings b x s)
      have shared : y ∈ s.freeNames := by
        simp only [captures, mentions, Bool.and_eq_true] at captured
        simpa using captured.1
      generalize Fresh.name y (taken siblings b x s) = z at unused apart new numbered
      refine .rename ⟨List.mem_cons_of_mem x shared, apart, fun member => new ?_, numbered⟩ unused (ih ?_ others)
      · simp [taken, member]
      · exact (freeNames_substitute b y _ x).mpr (.inl ⟨other, free⟩)
    · rw [if_neg captured]
      refine .keep ?_ (ih free others)
      have harmless : y ∉ s.freeNames := by simpa [captures, mentions, free] using captured
      exact List.mem_cons.not.mpr (not_or.mpr ⟨Ne.symm other, harmless⟩)

theorem freshens_none (siblings xs : List String) (b : Ty) : Freshens siblings [] xs b xs b := by
  induction xs with
  | nil => exact .nil b
  | cons y ys ih => exact .keep List.not_mem_nil ih

/-- If there is nothing to put in, no binder gets a new name. -/
theorem exists_freshens (siblings : List String) {ys : List String} (b : Ty) {x : String} (s : Ty)
    (visible : x ∉ ys) :
    ∃ names, names ⊆ x :: s.freeNames ∧ Freshens siblings names ys b (renameBinders siblings ys b x s).1.1
      (renameBinders siblings ys b x s).1.2 := by
  by_cases free : x ∈ b.freeNames
  · exact ⟨_, List.Subset.refl _, renameBinders_freshens siblings s free visible⟩
  · rw [renameBinders_of_not_free s free]
    exact ⟨[], List.nil_subset _, freshens_none siblings ys b⟩

theorem renameApart_freshens (args : List Ty) (siblings xs : List String) (b : Ty) :
    Freshens siblings (freeNamesAll args) xs b (renameApart args siblings xs b).1
      (renameApart args siblings xs b).2 := by
  induction xs generalizing b with
  | nil => exact .nil b
  | cons x xs ih =>
    rw [renameApart]
    split
    · rename_i shared
      have new := Fresh.name_not_mem x (freeNamesAll args ++ b.freeNames ++ siblings)
      have numbered := Fresh.numbered_name x (freeNamesAll args ++ b.freeNames ++ siblings)
      rw [List.mem_append, List.mem_append, not_or, not_or] at new
      exact .rename ⟨by simpa using shared, new.1.1, new.2, numbered⟩ new.1.2 (ih _)
    · rename_i absent
      exact .keep (by simpa using absent) (ih b)

/-- A new name in the place of another one is put in as in the form. -/
def RenamedAsForm (b : Ty) : Prop :=
  ∀ y z, (b.substitute y (var z)).form = b.form.subst y (var z).form

namespace Freshens

variable {siblings names xs ws : List String} {b c : Ty} {v w : String}

theorem forall₂ (freshens : Freshens siblings names xs b ws c) :
    List.Forall₂ (fun y z => y ∉ names ∧ z = y ∨ Replaces siblings names y z) xs ws := by
  induction freshens with
  | nil => exact .nil
  | keep free _ ih => exact .cons (.inl ⟨free, rfl⟩) ih
  | rename replaces _ _ ih => exact .cons (.inr replaces) ih

theorem length (freshens : Freshens siblings names xs b ws c) : xs.length = ws.length :=
  freshens.forall₂.length_eq

theorem kept_or_replaced (freshens : Freshens siblings names xs b ws c) {i : Nat} {y z : String}
    (before : xs[i]? = some y) (after : ws[i]? = some z) :
    y ∉ names ∧ z = y ∨ Replaces siblings names y z := by
  obtain ⟨inside, rfl⟩ := List.getElem?_eq_some_iff.mp before
  obtain ⟨inside', rfl⟩ := List.getElem?_eq_some_iff.mp after
  exact freshens.forall₂.get inside inside'

/-- Afterwards no binder is among the names. -/
theorem avoids (freshens : Freshens siblings names xs b ws c) (member : w ∈ ws) : w ∉ names := by
  obtain ⟨i, after⟩ := List.mem_iff_getElem?.mp member
  have inside : i < xs.length := freshens.length ▸ (List.getElem?_eq_some_iff.mp after).1
  rcases freshens.kept_or_replaced (List.getElem?_eq_getElem inside) after with ⟨free, rfl⟩ | replaces
  · exact free
  · exact replaces.free

theorem renamed_of_free (freshens : Freshens siblings names xs b ws c) (free : v ∉ names) :
    renamed xs ws v = v := by
  by_cases member : v ∈ xs
  · obtain ⟨i, placed⟩ := exists_places member
    have after := getElem?_renamed freshens.length placed
    rcases freshens.kept_or_replaced (places_eq_some.mp placed).1 after with ⟨-, same⟩ | replaces
    · exact same
    · exact absurd replaces.taken free
  · exact renamed_of_not_mem member ws

theorem mem_of_unshared (freshens : Freshens siblings names xs b ws c) (member : v ∈ xs) (free : v ∉ names) :
    v ∈ ws := by
  obtain ⟨i, placed⟩ := exists_places member
  have after := getElem?_renamed freshens.length placed
  rw [freshens.renamed_of_free free] at after
  exact List.mem_of_getElem? after

/-- The renamings one after the other are one renaming, since a new name is no binder that is
still to be renamed. -/
theorem renamed_cons_eq {y z : String} (rest : Freshens siblings names xs b ws c)
    (unchanged : z ∉ names) (v : String) :
    renamed (y :: xs) (z :: ws) v = renamed xs ws (if v = y then z else v) := by
  rw [renamed_cons]
  split
  · exact (rest.renamed_of_free unchanged).symm
  · rfl

theorem mem_freeNames (freshens : Freshens siblings names xs b ws c) :
    w ∈ c.freeNames ↔ ∃ v ∈ b.freeNames, renamed xs ws v = w := by
  induction freshens with
  | nil => simp [renamed, places]
  | @keep y _ _ _ _ free rest ih =>
    rw [ih]
    refine exists_congr fun v => and_congr_right fun _ => ?_
    rw [rest.renamed_cons_eq free]
    by_cases same : v = y <;> simp [same]
  | @rename y z _ _ _ b replaces unused rest ih =>
    rw [ih]
    simp only [rest.renamed_cons_eq replaces.free, freeNames_substitute, freeNames, List.mem_singleton]
    constructor
    · rintro ⟨v, ⟨other, own⟩ | ⟨used, rfl⟩, same⟩
      · exact ⟨v, own, by rwa [if_neg other]⟩
      · exact ⟨y, used, by rwa [if_pos rfl]⟩
    · rintro ⟨v, own, same⟩
      by_cases other : v = y
      · subst other
        exact ⟨z, .inr ⟨own, rfl⟩, by simpa using same⟩
      · exact ⟨v, .inl ⟨other, own⟩, by simpa [other] using same⟩

/-- A name that is free in the body and no binder stays so. -/
theorem not_mem_of_free (freshens : Freshens siblings names xs b ws c) (free : v ∈ b.freeNames)
    (unbound : v ∉ xs) : v ∉ ws := by
  induction freshens with
  | nil => exact unbound
  | keep _ _ ih =>
    obtain ⟨other, others⟩ := not_or.mp (List.mem_cons.not.mp unbound)
    exact List.mem_cons.not.mpr (not_or.mpr ⟨other, ih free others⟩)
  | @rename y z _ _ _ b _ unused _ ih =>
    obtain ⟨other, others⟩ := not_or.mp (List.mem_cons.not.mp unbound)
    have still := (freeNames_substitute b y (var z) v).mpr (.inl ⟨other, free⟩)
    exact List.mem_cons.not.mpr (not_or.mpr ⟨fun same => unused (same ▸ free), ih still others⟩)

/-- If the body uses a binder with a new name, no later binder gets this name. -/
theorem ne_of_used (freshens : Freshens siblings names xs b ws c) (inside : xs ⊆ siblings) {i j : Nat}
    {y : String} (less : i < j) (used : Used xs b i) (found : xs[i]? = some y) (taken : y ∈ names) :
    ws[j]? ≠ ws[i]? := by
  induction freshens generalizing i j with
  | nil => simp at found
  | @keep x _ _ _ _ free _ ih =>
    cases i with
    | zero =>
      obtain rfl : x = y := by simpa using found
      contradiction
    | succ i =>
      obtain ⟨j, rfl⟩ : ∃ k, j = k + 1 := ⟨j - 1, by omega⟩
      refine ih (List.subset_of_cons_subset inside) (by omega) ?_ found
      obtain ⟨v, own, placed⟩ := used
      rw [places_cons] at placed
      split at placed
      · simp at placed
      · exact ⟨v, own, by simpa using placed⟩
  | @rename x z ys _ _ b replaces unused rest ih =>
    obtain ⟨j, rfl⟩ : ∃ k, j = k + 1 := ⟨j - 1, by omega⟩
    cases i with
    | zero =>
      intro same
      have later : z ∈ _ := List.mem_of_getElem? (by simpa using same)
      obtain ⟨v, own, placed⟩ := used
      obtain rfl : x = v := by simpa using (places_eq_some.mp placed).1
      have put : z ∈ (b.substitute x (var z)).freeNames :=
        (freeNames_substitute ..).mpr (.inr ⟨own, by simp [freeNames]⟩)
      refine rest.not_mem_of_free put (fun member => replaces.new (inside ?_)) later
      exact List.mem_cons_of_mem x member
    | succ i =>
      refine ih (List.subset_of_cons_subset inside) (by omega) ?_ found
      obtain ⟨v, own, placed⟩ := used
      rw [places_cons] at placed
      split at placed
      · simp at placed
      · rename_i other
        exact ⟨v, (freeNames_substitute ..).mpr (.inl ⟨Ne.symm other, own⟩), by simpa using placed⟩

/-- Two binders have one name afterwards only if they had before, or if both got new names. -/
theorem same_or_replaced (freshens : Freshens siblings names xs b ws c) (inside : xs ⊆ siblings)
    {i j : Nat} {y z w : String} (first : xs[i]? = some y) (second : xs[j]? = some z)
    (after : ws[i]? = some w) (after' : ws[j]? = some w) :
    y = z ∨ Replaces siblings names y w ∧ Replaces siblings names z w := by
  rcases freshens.kept_or_replaced first after with ⟨-, rfl⟩ | replaces
  · rcases freshens.kept_or_replaced second after' with ⟨-, rfl⟩ | replaces'
    · exact .inl rfl
    · exact absurd (inside (List.mem_of_getElem? first)) replaces'.new
  · rcases freshens.kept_or_replaced second after' with ⟨-, rfl⟩ | replaces'
    · exact absurd (inside (List.mem_of_getElem? second)) replaces.new
    · exact .inr ⟨replaces, replaces'⟩

/-- A clash takes two different names, one of them the other one with digits at its end. The body
does not use the earlier binder. -/
theorem entangled (freshens : Freshens siblings names xs b ws c) (inside : xs ⊆ siblings)
    (clash : Clash xs b ws) :
    ∃ i j y z, i < j ∧ xs[i]? = some y ∧ xs[j]? = some z ∧ Used xs b j ∧ ¬Used xs b i ∧
      y ∈ names ∧ z ∈ names ∧ y ≠ z ∧ ¬Fresh.Apart y z := by
  obtain ⟨i, j, less, used, same⟩ := clash
  obtain ⟨z, -, placed⟩ := id used
  obtain ⟨second, first⟩ := places_eq_some.mp placed
  have bound : j < xs.length := (List.getElem?_eq_some_iff.mp second).1
  have before : xs[i]? = some xs[i] := List.getElem?_eq_getElem (Nat.lt_trans less bound)
  have different : xs[i] ≠ z := fun equal => first i less (equal ▸ before)
  have after := getElem?_renamed freshens.length placed
  rcases freshens.same_or_replaced inside before second (same.trans after) after with equal | ⟨left, right⟩
  · exact absurd equal different
  · refine ⟨i, j, xs[i], z, less, before, second, used, fun early => ?_, left.taken, right.taken,
      different, fun apart => ?_⟩
    · exact freshens.ne_of_used inside less early before left.taken same.symm
    · exact (Fresh.Apart.numbered_or left.numbered right.numbered).elim apart.1 apart.2

section Apart

variable (freshens : Freshens siblings names xs b ws c) (apart : ¬Clash xs b ws)

include freshens apart

/-- Without a clash each binder is where it was. -/
theorem places_renamed (free : v ∈ b.freeNames) : places ws (renamed xs ws v) = places xs v := by
  cases placed : places xs v with
  | none =>
    have unbound := places_eq_none.mp placed
    rw [renamed_of_not_mem unbound]
    exact places_eq_none.mpr (freshens.not_mem_of_free free unbound)
  | some j =>
    have after := getElem?_renamed freshens.length placed
    refine places_eq_some.mpr ⟨after, fun i less same => apart ?_⟩
    exact ⟨i, j, less, ⟨v, free, placed⟩, same.trans after.symm⟩

theorem used_iff {i : Nat} : Used ws c i ↔ Used xs b i := by
  constructor
  · rintro ⟨w, free, placed⟩
    obtain ⟨v, own, rfl⟩ := freshens.mem_freeNames.mp free
    exact ⟨v, own, (freshens.places_renamed apart own).symm.trans placed⟩
  · rintro ⟨v, own, placed⟩
    exact ⟨_, freshens.mem_freeNames.mpr ⟨v, own, rfl⟩, (freshens.places_renamed apart own).trans placed⟩

end Apart

section Forms

variable (freshens : Freshens siblings names xs b ws c)
  (below : ∀ b' : Ty, b'.size = b.size → RenamedAsForm b')

include freshens below

theorem form_eq : c.form = b.form.replace (Form.naming (renamed xs ws)) 0 := by
  induction freshens with
  | nil b =>
    symm
    refine form_replace_self 0 (fun d y _ => ?_) fun _ _ _ _ => rfl
    simp [Form.naming, renamed, places]
  | @keep y ys b ws _ free rest ih =>
    rw [ih below]
    refine form_replace_congr (fun d v _ => ?_) fun _ _ _ _ => rfl
    rw [Form.naming, Form.naming, rest.renamed_cons_eq free]
    by_cases same : v = y <;> simp [same]
  | @rename y z ys ws _ b replaces _ rest ih =>
    rw [ih fun b' same => below b' (same.trans (size_substitute_var b y z)), below b rfl y z, Form.subst,
      Form.replace_replace]
    refine form_replace_congr (fun d v _ => ?_) fun _ _ _ _ => ?_
    · rw [Form.naming, rest.renamed_cons_eq replaces.free]
      by_cases same : v = y <;> simp [Form.putting, form, Form.naming, same]
    · simp [Form.putting, Form.naming]

/-- Without a clash new names for the binders make no difference. -/
theorem close_eq (apart : ¬Clash xs b ws) : c.form.close (places ws) = b.form.close (places xs) := by
  rw [freshens.form_eq below, Form.close, Form.close, Form.replace_replace]
  refine form_replace_congr (fun d v free => ?_) fun _ _ _ _ => rfl
  rw [Form.naming, Form.replace_var, Form.closing, Form.closing, freshens.places_renamed apart free]
  cases placed : places xs v with
  | none => simp [renamed, placed]
  | some i => rfl

end Forms

end Freshens

end Ty

end StellaLang
