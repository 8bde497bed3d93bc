import Mathlib.Data.List.NodupEquivFin
import StellaLang.Proofs.Ty.Freshening

/-! When substitution is right: it is what substitution is in forms exactly if no two binders of
one universal type get the same new name, of which the later one is used. The result shows
whether this has happened. -/
namespace StellaLang.Ty

section Scopes

variable {t b : Ty} {x y : String} {s : Ty} {xs ws : List String} {position : String → Option Nat}

theorem mem_vars_close (position : String → Option Nat) {f : Form} {d : Nat} (inside : (d, .free y) ∈ f.vars 0) :
    (d, match position y with | some i => .bound d i | none => .free y) ∈ (f.close position).vars 0 := by
  refine (Form.mem_vars_replace _).mpr ⟨d, .free y, inside, ?_⟩
  rw [Form.closing]
  cases position y <;> simp [Form.vars]

/-- What is free in a type is free in its form. -/
theorem exists_mem_vars (t : Ty) (free : y ∈ t.freeNames) : ∃ d, (d, .free y) ∈ t.form.vars 0 := by
  have scope {b : Ty} {position : String → Option Nat} (unbound : position y = none)
      (body : ∃ d, (d, .free y) ∈ b.form.vars 0) : ∃ d, (d, .free y) ∈ (b.form.close position).vars 1 := by
    obtain ⟨d, inside⟩ := body
    have closed := mem_vars_close position inside
    rw [unbound] at closed
    exact ⟨d + 1, Form.mem_vars_succ.mpr ⟨d, rfl, closed⟩⟩
  cases none : t.scopeless with
  | true =>
    obtain ⟨c, member, free⟩ := (mem_freeNames_iff none).mp free
    have smaller := size_lt_of_mem_components member
    obtain ⟨d, inside⟩ := exists_mem_vars c free
    exact ⟨d, (mem_vars_iff none).mpr ⟨c, member, inside⟩⟩
  | false =>
    cases t with
    | var z =>
      obtain rfl : y = z := by simpa [freeNames] using free
      exact ⟨0, by simp [form, Form.vars]⟩
    | forAll xs b =>
      simp only [freeNames, List.mem_filter, decide_eq_true_eq] at free
      exact scope (places_eq_none.mpr free.2) (exists_mem_vars b free.1)
    | recursive z b =>
      simp only [freeNames, List.mem_filter, decide_eq_true_eq] at free
      exact scope (places_eq_none.mpr (by simpa using free.2)) (exists_mem_vars b free.1)
    | _ => contradiction
termination_by t.size
decreasing_by all_goals simp_all only [size] <;> omega

/-- Binders of which two have one name do not bind what they bound before the clash. -/
theorem close_ne_of_clash (clash : Clash xs b ws) (t : Ty) (f : Form) :
    t.form.close (places ws) ≠ (b.form.close (places xs)).subst x f := by
  intro same
  obtain ⟨i, j, less, ⟨y, free, placed⟩, equal⟩ := clash
  obtain ⟨d, inside⟩ := exists_mem_vars b free
  have bound := mem_vars_close (places xs) inside
  rw [placed] at bound
  have put : (d, .bound d j) ∈ (t.form.close (places ws)).vars 0 := by
    rw [same]
    exact (Form.mem_vars_replace _).mpr ⟨d, .bound d j, bound, by simp [Form.putting, Form.vars]⟩
  obtain ⟨k, v, found, rest⟩ := (Form.mem_vars_replace _).mp put
  rcases own t k v found with ⟨z, -, rfl⟩ | ⟨l, m, inner, rfl⟩
  · rw [Form.closing] at rest
    cases later : places ws z with
    | none => simp [later, Form.vars] at rest
    | some m =>
      obtain ⟨-, -, rfl⟩ : d = k ∧ d = k ∧ j = m := by simpa [later, Form.vars] using rest
      obtain ⟨second, first⟩ := places_eq_some.mp later
      exact first i less (equal.trans second)
  · obtain ⟨rfl, rfl, -⟩ : d = k ∧ d = l ∧ j = m := by simpa [Form.closing, Form.vars] using rest
    exact absurd inner (Nat.lt_irrefl d)

/-- The names that a binder takes away from a form are put back after a substitution, too. -/
theorem fill_close_subst {u : Nat → Form} (named : ∀ z i, position z = some i → u i = .var (.free z)) :
    ((b.form.subst x s.form).close position).fill u = b.form.subst x s.form := by
  have back (d : Nat) (z : String) :
      (Form.closing position d (.free z)).replace (Form.filling u) d = .var (.free z) := by
    cases placed : position z with
    | none => simp [Form.closing, Form.filling, placed]
    | some i => simp [Form.closing, Form.filling, placed, named z i placed]
  have inner (d k i : Nat) (less : k < d) :
      (Form.closing position d (.bound k i)).replace (Form.filling u) d = .var (.bound k i) := by
    simp [Form.closing, Form.filling, Nat.ne_of_lt less]
  have put (d : Nat) : s.form.replace
      (fun k v => (Form.closing position k v).replace (Form.filling u) k) d = s.form := by
    exact form_replace_self d (fun k z _ => back k z) fun k l i less => inner k l i (by omega)
  unfold Form.subst Form.close Form.fill
  rw [Form.replace_replace, Form.replace_replace]
  refine form_replace_congr (fun d z _ => ?_) fun d k i less => ?_
  · by_cases same : z = x
    · simp [Form.putting, same, put]
    · simp [Form.putting, same, back]
  · simp [Form.putting, inner d k i less]

/-- Binders take nothing away that could not be put back. -/
theorem close_inj : t.form.close (places ws) = (b.form.subst x s.form).close (places ws) ↔
    t.form = b.form.subst x s.form := by
  have named (z : String) (i : Nat) (placed : places ws z = some i) :
      Form.var (.free (ws.getD i "")) = .var (.free z) := by
    rw [List.getD_eq_getElem?_getD, (places_eq_some.mp placed).1, Option.getD_some]
  constructor
  · intro same
    have filled := congrArg (Form.fill fun i => .var (.free (ws.getD i ""))) same
    rwa [fill_close fun y _ i placed => named y i placed, fill_close_subst named] at filled
  · exact congrArg (Form.close (places ws))

end Scopes

section Tangling

/-- Somewhere in a type, below binders that are renamed before a type is put in, two binders
clash. -/
inductive Tangles (x : String) (s : Ty) : Ty → Prop where
  | component (member : c ∈ t.components) (inside : Tangles x s c) : Tangles x s t
  | clash (visible : x ∉ xs) (clash : Clash xs b (renameBinders xs xs b x s).1.1) :
      Tangles x s (forAll xs b)
  | forAll (visible : x ∉ xs) (inside : Tangles x s (renameBinders xs xs b x s).1.2) :
      Tangles x s (forAll xs b)
  | recursive (other : y ≠ x) (inside : Tangles x s (renameBinders [] [y] b x s).1.2) :
      Tangles x s (recursive y b)

variable {t b : Ty} {x y : String} {s : Ty} {siblings xs : List String}

theorem not_clash_self : ¬Clash xs b xs := by
  rintro ⟨i, j, less, ⟨y, -, placed⟩, same⟩
  obtain ⟨second, first⟩ := places_eq_some.mp placed
  exact first i less (same.trans second)

/-- Binders clash only if some are renamed. -/
theorem free_of_clash (clash : Clash xs b (renameBinders siblings xs b x s).1.1) : x ∈ b.freeNames := by
  by_contra absent
  rw [renameBinders_of_not_free s absent] at clash
  exact not_clash_self clash

/-- A type is put in below binders as in forms if no two of the binders clash, and if it is put in
so in the body with the new names. -/
theorem close_substitute_iff (siblings : List String) (visible : x ∉ xs)
    (below : ∀ b' : Ty, b'.size = b.size → RenamedAsForm b') :
    let new := (renameBinders siblings xs b x s).1
    (new.2.substitute x s).form.close (places new.1) =
        (b.form.close (places xs)).subst x s.form ↔
      ¬Clash xs b new.1 ∧ (new.2.substitute x s).form = new.2.form.subst x s.form := by
  intro new
  have outside (apart : ¬Clash xs b new.1) : (b.form.close (places xs)).subst x s.form =
      (new.2.form.subst x s.form).close (places new.1) := by
    by_cases free : x ∈ b.freeNames
    · have freshens := renameBinders_freshens siblings s free visible
      have unplaced {z : String} (shared : z ∈ x :: s.freeNames) : places new.1 z = none :=
        places_eq_none.mpr fun member => freshens.avoids member shared
      rw [← freshens.close_eq below apart, close_subst (unplaced List.mem_cons_self)]
      exact .inl fun z inside => unplaced (List.mem_cons_of_mem x inside)
    · have unchanged : new = (xs, b) := renameBinders_of_not_free s free siblings xs
      rw [unchanged, close_subst (places_eq_none.mpr visible) (.inr free)]
  constructor
  · intro same
    have apart : ¬Clash xs b new.1 := fun clash => close_ne_of_clash clash _ _ same
    exact ⟨apart, close_inj.mp (same.trans (outside apart))⟩
  · rintro ⟨apart, inner⟩
    rw [inner, outside apart]

theorem tangles_iff_components (none : t.scopeless = true) :
    Tangles x s t ↔ ∃ c ∈ t.components, Tangles x s c := by
  constructor
  · intro tangles
    cases tangles with
    | component member inside => exact ⟨_, member, inside⟩
    | _ => contradiction
  · rintro ⟨c, member, inside⟩
    exact .component member inside

theorem not_tangles_var (y : String) : ¬Tangles x s (var y) := by
  intro tangles
  cases tangles with
  | component member => exact absurd member List.not_mem_nil

theorem tangles_forAll_iff : Tangles x s (forAll xs b) ↔
    x ∉ xs ∧ (Clash xs b (renameBinders xs xs b x s).1.1 ∨
      Tangles x s (renameBinders xs xs b x s).1.2) := by
  constructor
  · intro tangles
    cases tangles with
    | component member => exact absurd member List.not_mem_nil
    | clash visible clash => exact ⟨visible, .inl clash⟩
    | forAll visible inside => exact ⟨visible, .inr inside⟩
  · rintro ⟨visible, clash | inside⟩
    · exact .clash visible clash
    · exact .forAll visible inside

theorem tangles_recursive_iff : Tangles x s (recursive y b) ↔
    y ≠ x ∧ Tangles x s (renameBinders [] [y] b x s).1.2 := by
  constructor
  · intro tangles
    cases tangles with
    | component member => exact absurd member List.not_mem_nil
    | recursive other inside => exact ⟨other, inside⟩
  · rintro ⟨other, inside⟩
    exact .recursive other inside

/-- It takes two names to tangle binders. -/
theorem Tangles.exists_ne (tangles : Tangles x s t) : ∃ y ∈ s.freeNames, ∃ z ∈ s.freeNames, y ≠ z := by
  induction tangles with
  | component _ _ ih => exact ih
  | forAll _ _ ih => exact ih
  | recursive _ _ ih => exact ih
  | @clash xs b visible clash =>
    have freshens := renameBinders_freshens xs s (free_of_clash clash) visible
    obtain ⟨i, j, y, z, -, first, second, -, -, taken, taken', other, -⟩ :=
      freshens.entangled (List.Subset.refl xs) clash
    have shared {w : String} {k : Nat} (found : xs[k]? = some w) (taken : w ∈ x :: s.freeNames) :
        w ∈ s.freeNames := by
      refine List.mem_of_ne_of_mem (fun same => visible ?_) taken
      exact same ▸ List.mem_of_getElem? found
    exact ⟨y, shared first taken, z, shared second taken', other⟩

/-- Nothing is tangled without anything put in. -/
theorem Tangles.free (tangles : Tangles x s t) : x ∈ t.freeNames := by
  -- Renaming binders neither sets the variable free nor hides it.
  have inBody {siblings xs : List String} {b : Ty} (visible : x ∉ xs)
      (inside : x ∈ (renameBinders siblings xs b x s).1.2.freeNames) : x ∈ b.freeNames := by
    by_contra absent
    rw [renameBinders_of_not_free s absent] at inside
    exact absent inside
  induction tangles with
  | component member _ ih =>
    exact (mem_freeNames_iff (scopeless_of_mem_components member)).mpr ⟨_, member, ih⟩
  | clash visible clash => simpa [freeNames, visible] using free_of_clash clash
  | forAll visible _ ih => simpa [freeNames, visible] using inBody visible ih
  | recursive other _ ih =>
    have visible : x ∉ [_] := fun hidden => other (List.mem_singleton.mp hidden).symm
    simpa [freeNames, Ne.symm other] using inBody visible ih

/-- One binder has none to clash with. -/
theorem not_clash_singleton (z : String) : ¬Clash [y] b [z] := by
  rintro ⟨i, j, less, ⟨w, -, placed⟩, -⟩
  have bound := (List.getElem?_eq_some_iff.mp (places_eq_some.mp placed).1).1
  simp only [List.length_singleton] at bound
  omega

/-- Substitution in a type is substitution in its form exactly if no binders are tangled. -/
theorem form_substitute_iff_not_tangles (t : Ty) (x : String) (s : Ty) :
    (t.substitute x s).form = t.form.subst x s.form ↔ ¬Tangles x s t := by
  have renamed (b : Ty) (smaller : b.size < t.size) : RenamedAsForm b := by
    intro y z
    refine (form_substitute_iff_not_tangles b y (var z)).mpr fun tangles => ?_
    obtain ⟨v, first, w, second, other⟩ := tangles.exists_ne
    simp_all [freeNames]
  cases none : t.scopeless with
  | true =>
    rw [form_substitute_iff_components none, tangles_iff_components none]
    simp only [not_exists, not_and]
    refine forall₂_congr fun c member => ?_
    have smaller := size_lt_of_mem_components member
    exact form_substitute_iff_not_tangles c x s
  | false =>
    cases t with
    | var y =>
      refine iff_of_true ?_ (not_tangles_var y)
      by_cases same : y = x <;> simp [form, same]
    | forAll xs b =>
      rw [tangles_forAll_iff, substitute_forAll]
      by_cases hidden : x ∈ xs
      · obtain ⟨i, placed⟩ := exists_places hidden
        simp [hidden, form, close_subst_of_placed placed]
      · obtain ⟨sameLength, sameSize⟩ := (renameBinders xs xs b x s).2
        have inner := form_substitute_iff_not_tangles (renameBinders xs xs b x s).1.2 x s
        have scope := close_substitute_iff (b := b) (s := s) xs hidden
          fun b' same => renamed b' (by simp only [size]; omega)
        dsimp only at scope
        simp only [if_neg hidden, form, Form.subst_forAll, sameLength, Form.forAll.injEq, true_and]
        rw [scope, inner]
        tauto
    | recursive y b =>
      rw [tangles_recursive_iff]
      by_cases same : y = x
      · subst same
        have placed : places [y] y = some 0 := by simp [places_cons]
        simp [substitute_recursive, form, close_subst_of_placed placed]
      · obtain ⟨-, sameSize⟩ := (renameBinders [] [y] b x s).2
        obtain ⟨z, binder, substituted⟩ := substitute_recursive_eq (b := b) (s := s) same
        have inner := form_substitute_iff_not_tangles (renameBinders [] [y] b x s).1.2 x s
        have scope := close_substitute_iff (b := b) (s := s) []
          (fun hidden => same (List.mem_singleton.mp hidden).symm)
          fun b' equal => renamed b' (by simp only [size]; omega)
        simp only [binder] at scope
        rw [substituted, form, form, Form.subst_recursive, Form.recursive.injEq, scope, inner]
        have apart := not_clash_singleton (y := y) (b := b) z
        tauto
    | _ => contradiction
termination_by t.size
decreasing_by all_goals simp_all only [size] <;> omega

end Tangling

/-- Putting a variable in is always right. -/
theorem renamedAsForm (b : Ty) : RenamedAsForm b := by
  intro y z
  refine (form_substitute_iff_not_tangles b y (var z)).mpr fun tangles => ?_
  obtain ⟨v, first, w, second, other⟩ := tangles.exists_ne
  simp_all [freeNames]

section Uncaptured

variable {t : Ty} {x : String} {s : Ty}

/-- Nothing is renamed where nothing would be captured. -/
theorem Tangles.not_uncaptured (tangles : Tangles x s t) : ¬t.Uncaptured s := by
  induction tangles with
  | component member _ ih =>
    exact fun uncaptured => ih (uncaptured.of_parts (parts_subset_of_mem_components member))
  | @clash xs b _ clash =>
    intro uncaptured
    have kept : ∀ z ∈ xs, z ∉ s.freeNames := uncaptured (Ty.forAll xs b) (mem_parts_self _)
    rw [renameBinders_of_uncaptured kept] at clash
    exact not_clash_self clash
  | @forAll xs b _ _ ih =>
    intro uncaptured
    have kept : ∀ z ∈ xs, z ∉ s.freeNames := uncaptured (Ty.forAll xs b) (mem_parts_self _)
    rw [renameBinders_of_uncaptured kept] at ih
    exact ih (uncaptured.of_parts (by simp [parts]))
  | @recursive y b _ _ ih =>
    intro uncaptured
    have kept : ∀ z ∈ [y], z ∉ s.freeNames := uncaptured (Ty.recursive y b) (mem_parts_self _)
    rw [renameBinders_of_uncaptured kept] at ih
    exact ih (uncaptured.of_parts (by simp [parts]))

theorem form_substitute_of_uncaptured (uncaptured : t.Uncaptured s) (x : String) :
    (t.substitute x s).form = t.form.subst x s.form :=
  (form_substitute_iff_not_tangles t x s).mpr fun tangles => tangles.not_uncaptured uncaptured

end Uncaptured

section Repetition

theorem duplicate_iff {xs : List String} {y : String} :
    List.Duplicate y xs ↔ ∃ i j : Nat, i < j ∧ xs[i]? = some y ∧ xs[j]? = some y := by
  rw [List.duplicate_iff_exists_distinct_get]
  constructor
  · rintro ⟨i, j, less, first, second⟩
    exact ⟨i, j, less, by simp [first], by simp [second]⟩
  · rintro ⟨i, j, less, first, second⟩
    obtain ⟨inside, first⟩ := List.getElem?_eq_some_iff.mp first
    obtain ⟨inside', second⟩ := List.getElem?_eq_some_iff.mp second
    exact ⟨⟨i, inside⟩, ⟨j, inside'⟩, less, by simp [first], by simp [second]⟩

/-- The property holds of the binders and of the body of the type, if it is universal. -/
def IfUniversal (p : List String → Ty → Prop) : Ty → Prop
  | forAll xs b => p xs b
  | _ => True

instance (p : List String → Ty → Prop) [∀ xs b, Decidable (p xs b)] (t : Ty) :
    Decidable (t.IfUniversal p) := by
  unfold IfUniversal
  split <;> infer_instance

/-- The binders do not repeat a name that the body uses. -/
def BindsOnce (xs : List String) (b : Ty) : Prop :=
  ∀ y ∈ b.freeNames, ¬List.Duplicate y xs

instance (xs : List String) (b : Ty) : Decidable (BindsOnce xs b) :=
  inferInstanceAs (Decidable (∀ y ∈ b.freeNames, ¬List.Duplicate y xs))

/-- No part binds a name twice that its body uses. -/
def Unrepeated (t : Ty) : Prop :=
  ∀ u ∈ t.parts, u.IfUniversal BindsOnce

instance (t : Ty) : Decidable t.Unrepeated :=
  inferInstanceAs (Decidable (∀ u ∈ t.parts, u.IfUniversal BindsOnce))

variable {t b c : Ty} {x y : String} {s : Ty} {siblings names xs ws : List String}

theorem unrepeated_iff_components (none : t.scopeless = true) :
    t.Unrepeated ↔ ∀ c ∈ t.components, c.Unrepeated := by
  unfold Unrepeated
  simp only [mem_parts_iff none]
  constructor
  · exact fun all c member u part => all u (.inr ⟨c, member, part⟩)
  · rintro each u (rfl | ⟨c, member, part⟩)
    · cases u with
      | var | forAll | recursive => contradiction
      | _ => trivial
    · exact each c member u part

theorem unrepeated_var (y : String) : (var y).Unrepeated := by
  simp [Unrepeated, parts, IfUniversal]

theorem unrepeated_forAll_iff : (forAll xs b).Unrepeated ↔ BindsOnce xs b ∧ b.Unrepeated := by
  simp only [Unrepeated, parts, List.forall_mem_cons, IfUniversal]

theorem unrepeated_recursive_iff : (recursive y b).Unrepeated ↔ b.Unrepeated := by
  simp only [Unrepeated, parts, List.forall_mem_cons, IfUniversal, true_and]

/-- Binders that do not clash are different afterwards where they were before, as far as the body
uses them. -/
theorem Freshens.bindsOnce (freshens : Freshens siblings names xs b ws c) (inside : xs ⊆ siblings)
    (apart : ¬Clash xs b ws) (once : BindsOnce xs b) : BindsOnce ws c := by
  intro w free twice
  obtain ⟨v, own, rfl⟩ := freshens.mem_freeNames.mp free
  obtain ⟨i, k, less, first, second⟩ := duplicate_iff.mp twice
  have same := freshens.places_renamed apart own
  obtain ⟨j, after⟩ := exists_places (List.mem_of_getElem? first)
  have placed : places xs v = some j := same.symm.trans after
  obtain ⟨found, least⟩ := places_eq_some.mp after
  have later : j < k := Nat.lt_of_le_of_lt (Nat.le_of_not_lt fun before => least i before first) less
  have before := (places_eq_some.mp placed).1
  have bound : k < xs.length := freshens.length ▸ (List.getElem?_eq_some_iff.mp second).1
  have other : xs[k]? = some xs[k] := List.getElem?_eq_getElem bound
  rcases freshens.same_or_replaced inside before other found second with equal | ⟨replaces, -⟩
  · exact once v own (duplicate_iff.mpr ⟨j, k, later, before, equal ▸ other⟩)
  · have used : Used xs b j := ⟨v, own, placed⟩
    exact freshens.ne_of_used inside later used before replaces.taken (second.trans found.symm)

theorem Freshens.unrepeated (freshens : Freshens siblings names xs b ws c)
    (below : ∀ b' : Ty, b'.size = b.size → b'.Unrepeated → ∀ y z, (b'.substitute y (var z)).Unrepeated)
    (unrepeated : b.Unrepeated) : c.Unrepeated := by
  induction freshens with
  | nil => exact unrepeated
  | keep _ _ ih => exact ih below unrepeated
  | @rename y z _ _ _ b _ _ _ ih =>
    refine ih (fun b' same => below b' (same.trans (size_substitute_var b y z))) ?_
    exact below b rfl unrepeated y z

theorem not_mem_renameBinders (visible : x ∉ xs) : x ∉ (renameBinders siblings xs b x s).1.1 := by
  by_cases free : x ∈ b.freeNames
  · exact fun member => (renameBinders_freshens siblings s free visible).avoids member List.mem_cons_self
  · rwa [renameBinders_of_not_free s free]

/-- Binders that are renamed before a type is put in bind none of its names. -/
theorem free_of_substitute (visible : x ∉ xs) {w : String}
    (member : w ∈ (renameBinders siblings xs b x s).1.1)
    (free : w ∈ ((renameBinders siblings xs b x s).1.2.substitute x s).freeNames) :
    w ∈ (renameBinders siblings xs b x s).1.2.freeNames := by
  rcases (freeNames_substitute ..).mp free with ⟨-, own⟩ | ⟨stays, put⟩
  · exact own
  · by_cases replaced : x ∈ b.freeNames
    · have freshens := renameBinders_freshens siblings s replaced visible
      exact absurd (List.mem_cons_of_mem x put) (freshens.avoids member)
    · rw [renameBinders_of_not_free s replaced] at stays
      exact absurd stays replaced

/-- After a type has been put in, the body uses the same binders as before. -/
theorem used_substitute_iff (visible : x ∉ xs) (apart : ¬Clash xs b (renameBinders siblings xs b x s).1.1)
    {i : Nat} :
    Used (renameBinders siblings xs b x s).1.1 ((renameBinders siblings xs b x s).1.2.substitute x s) i ↔
      Used xs b i := by
  have unchanged : Used (renameBinders siblings xs b x s).1.1
      ((renameBinders siblings xs b x s).1.2.substitute x s) i ↔
        Used (renameBinders siblings xs b x s).1.1 (renameBinders siblings xs b x s).1.2 i := by
    constructor
    · rintro ⟨w, free, placed⟩
      exact ⟨w, free_of_substitute visible (mem_of_places placed) free, placed⟩
    · rintro ⟨w, own, placed⟩
      refine ⟨w, (freeNames_substitute ..).mpr (.inl ⟨fun same => ?_, own⟩), placed⟩
      exact not_mem_renameBinders visible (same ▸ mem_of_places placed)
  obtain ⟨names, -, freshens⟩ := exists_freshens siblings b s visible
  exact unchanged.trans (freshens.used_iff apart)

/-- Where binders are tangled, the result binds a name twice that is used. -/
theorem Tangles.repeated (tangles : Tangles x s t) : ¬(t.substitute x s).Unrepeated := by
  induction tangles with
  | @component c t member inside ih =>
    have none := scopeless_of_mem_components member
    rw [unrepeated_iff_components (scopeless_substitute none), components_substitute none]
    exact fun each => ih (each _ (List.mem_map_of_mem member))
  | @clash xs b visible clash =>
    have freshens := renameBinders_freshens xs s (free_of_clash clash) visible
    obtain ⟨i, j, less, ⟨y, own, placed⟩, same⟩ := clash
    have found := getElem?_renamed freshens.length placed
    rw [substitute_forAll, if_neg visible, unrepeated_forAll_iff]
    rintro ⟨once, -⟩
    refine once _ ?_ (duplicate_iff.mpr ⟨i, j, less, same.trans found, found⟩)
    refine (freeNames_substitute ..).mpr (.inl ⟨fun equal => ?_, freshens.mem_freeNames.mpr ⟨y, own, rfl⟩⟩)
    refine freshens.avoids (List.mem_of_getElem? found) ?_
    rw [equal]
    exact List.mem_cons_self
  | forAll visible _ ih =>
    rw [substitute_forAll, if_neg visible, unrepeated_forAll_iff]
    exact fun unrepeated => ih unrepeated.2
  | recursive other _ ih =>
    obtain ⟨z, -, substituted⟩ := substitute_recursive_eq other
    rw [substituted, unrepeated_recursive_iff]
    exact ih

theorem Unrepeated.substitute (t : Ty) {x : String} {s : Ty} (first : t.Unrepeated) (second : s.Unrepeated)
    (apart : ¬Tangles x s t) : (t.substitute x s).Unrepeated := by
  have renamed (b : Ty) (smaller : b.size < t.size) (unrepeated : b.Unrepeated) (y z : String) :
      (b.substitute y (var z)).Unrepeated := by
    refine Unrepeated.substitute b unrepeated (unrepeated_var z) fun tangles => ?_
    obtain ⟨v, first, w, second, other⟩ := tangles.exists_ne
    simp_all [freeNames]
  -- The body of a type that binds `xs` is renamed first.
  have body (siblings xs : List String) (b : Ty) (smaller : b.size < t.size) (visible : x ∉ xs)
      (unrepeated : b.Unrepeated) (apart : ¬Tangles x s (renameBinders siblings xs b x s).1.2) :
      ((renameBinders siblings xs b x s).1.2.substitute x s).Unrepeated := by
    obtain ⟨-, sameSize⟩ := (renameBinders siblings xs b x s).2
    obtain ⟨names, -, freshens⟩ := exists_freshens siblings b s visible
    exact Unrepeated.substitute _ (freshens.unrepeated (fun b' same => renamed b' (by omega)) unrepeated)
      second apart
  cases none : t.scopeless with
  | true =>
    rw [unrepeated_iff_components (scopeless_substitute none), components_substitute none]
    intro c member
    obtain ⟨d, inside, rfl⟩ := List.mem_map.mp member
    have smaller := size_lt_of_mem_components inside
    have unrepeated := (unrepeated_iff_components none).mp first d inside
    exact Unrepeated.substitute d unrepeated second fun tangles => apart (.component inside tangles)
  | false =>
    cases t with
    | var y =>
      rw [substitute_var]
      split
      · exact second
      · exact unrepeated_var y
    | forAll xs b =>
      obtain ⟨once, unrepeated⟩ := unrepeated_forAll_iff.mp first
      rw [substitute_forAll]
      split
      · exact first
      · rename_i visible
        have smaller : b.size < (forAll xs b).size := by simp only [size]; omega
        obtain ⟨noClash, apart⟩ := not_or.mp fun either => apart (tangles_forAll_iff.mpr ⟨visible, either⟩)
        refine unrepeated_forAll_iff.mpr ⟨fun w free twice => ?_, body xs xs b smaller visible unrepeated apart⟩
        obtain ⟨names, -, freshens⟩ := exists_freshens xs b s visible
        have own := free_of_substitute visible twice.mem free
        exact freshens.bindsOnce (List.Subset.refl xs) noClash once w own twice
    | recursive y b =>
      by_cases same : y = x
      · rwa [substitute_recursive, if_pos same]
      · obtain ⟨z, -, substituted⟩ := substitute_recursive_eq (b := b) (s := s) same
        rw [substituted, unrepeated_recursive_iff]
        refine body [] [y] b (by simp only [size]; omega) (fun hidden => ?_)
          (unrepeated_recursive_iff.mp first) fun inside => apart (.recursive same inside)
        exact same (List.mem_singleton.mp hidden).symm
    | _ => contradiction
termination_by t.size
decreasing_by all_goals simp_all only

/-- Types that bind no name twice at one place do not use one that is. -/
theorem Unrepeated.of_nodup (distinct : ∀ u ∈ t.parts, u.binders.Nodup) : t.Unrepeated := by
  intro u part
  cases u with
  | forAll xs b =>
    have nodup : xs.Nodup := distinct (forAll xs b) part
    exact fun y _ => List.nodup_iff_forall_not_duplicate.mp nodup y
  | _ => trivial

/-- Substitution is right exactly if the result does not bind a name twice that is used, which the
type and what is put in do not do. -/
theorem form_substitute_iff_unrepeated {t s : Ty} (first : t.Unrepeated) (second : s.Unrepeated)
    (x : String) :
    (t.substitute x s).form = t.form.subst x s.form ↔ (t.substitute x s).Unrepeated := by
  rw [form_substitute_iff_not_tangles]
  constructor
  · exact .substitute t first second
  · exact fun unrepeated tangles => tangles.repeated unrepeated

theorem substitute_renames_binders :
    let type := forAll ["Y", "Y1"] (arrow [var "X", var "Y"] (recursive "Z" (sum (var "Y1") (var "X"))))
    let put := arrow [var "Y"] (tuple [var "Y1", var "Z"])
    type.Unrepeated ∧ put.Unrepeated ∧ (type.substitute "X" put).Unrepeated ∧
      (type.substitute "X" put).form = type.form.subst "X" put.form := by
  intro type put
  have first : type.Unrepeated := .of_nodup (by decide)
  have second : put.Unrepeated := .of_nodup (by decide)
  have right : (type.substitute "X" put).Unrepeated := by decide +kernel
  exact ⟨first, second, right, (form_substitute_iff_unrepeated first second "X").mpr right⟩

/-- The binder `a` and the names it might be renamed to before `a11`, which is the first name that
`a1` might be renamed to. -/
def crowd : Ty :=
  tuple ((["a", "a1", "a2", "a3", "a4", "a5", "a6", "a7", "a8", "a9", "a10"]).map var)

/-- Both binders of a type are renamed to `a11` when all these names would be captured. -/
theorem substitute_captures :
    ¬∀ (t s : Ty) (x : String), (∀ u ∈ t.parts, u.binders.Nodup) → (∀ u ∈ s.parts, u.binders.Nodup) →
      (t.substitute x s).form = t.form.subst x s.form := by
  intro right
  have clash : Clash ["a", "a1"] (tuple [var "a1", var "X"])
      (renameBinders ["a", "a1"] ["a", "a1"] (tuple [var "a1", var "X"]) "X" crowd).1.1 := by
    have names : (renameBinders ["a", "a1"] ["a", "a1"] (tuple [var "a1", var "X"]) "X" crowd).1.1 =
        ["a11", "a11"] := by decide +kernel
    rw [names]
    exact ⟨0, 1, by decide⟩
  have same := right (forAll ["a", "a1"] (tuple [var "a1", var "X"])) crowd "X" (by decide) (by decide)
  exact (form_substitute_iff_not_tangles ..).mp same (.clash (by decide) clash)

end Repetition

end StellaLang.Ty
