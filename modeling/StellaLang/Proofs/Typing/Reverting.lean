import StellaLang.Proofs.Ty.Capture
import StellaLang.Proofs.Typing.Scoping

/-! Types with a new name in the place of another one. Whether a binder of the new name binds what a
binder of the old one does shows in the type with the new name: the old one must not be left in it,
for it would be captured. -/
namespace StellaLang.Ty

variable {x y : String} {t u b c : Ty} {p q : Prop}

/-- What is free in a type can be told from its form. -/
theorem free_of_form_eq (same : t.form = u.form) (free : x ∈ t.freeNames) : x ∈ u.freeNames := by
  obtain ⟨d, inside⟩ := exists_mem_vars t free
  rw [same] at inside
  rcases own u d _ inside with ⟨z, member, found⟩ | ⟨k, i, -, found⟩
  · cases found
    exact member
  · cases found

theorem within_ne_iff : t.Within (· ≠ x) ↔ x ∉ t.freeNames :=
  ⟨fun within free => within x free rfl, fun absent _ free same => absent (same ▸ free)⟩

/-- That the name `y` in a type stands for the name `x` in another one. The type may mention `x` as
well; it does not exactly if a condition holds. -/
structure Reverts (x y : String) (spared : Prop) (t u : Ty) : Prop where
  form : t.form = u.form.subst y (.var (.free x))
  spares : u.Within (· ≠ x) ↔ spared

namespace Reverts

theorem of_iff (h : Reverts x y p t u) (same : p ↔ q) : Reverts x y q t u :=
  ⟨h.form, h.spares.trans same⟩

theorem of_spared (spared : t.Within (· ≠ y)) : Reverts x y (t.Within (· ≠ x)) t t :=
  ⟨(form_subst_of_not_free (within_ne_iff.mp spared) _).symm, .rfl⟩

/-- A type that mentions neither name. -/
theorem of_apart (absent : x ∉ t.freeNames) (spared : t.Within (· ≠ y)) : Reverts x y True t t :=
  (of_spared spared).of_iff (iff_true_intro (within_ne_iff.mpr absent))

theorem closed (closed : t.freeNames = []) : Reverts x y True t t :=
  of_apart (by simp [closed]) (.of_closed closed)

theorem var (other : x ≠ y) : Reverts x y True (var x) (var y) :=
  ⟨by simp [Ty.form], by simp [other.symm]⟩

theorem sum {l r l' r' : Ty} (left : Reverts x y p l l') (right : Reverts x y q r r') :
    Reverts x y (p ∧ q) (sum l r) (sum l' r') where
  form := by rw [Ty.form, Ty.form, Form.subst_sum, left.form, right.form]
  spares := by rw [Within.sum_iff, left.spares, right.spares]

theorem list (element : Reverts x y p t u) : Reverts x y p (list t) (list u) where
  form := congrArg Form.list element.form
  spares := element.spares

theorem ref (referent : Reverts x y p t u) : Reverts x y p (ref t) (ref u) where
  form := congrArg Form.ref referent.form
  spares := referent.spares

theorem tuple_cons {ts us : List Ty} (first : Reverts x y p t u)
    (rest : Reverts x y q (tuple ts) (tuple us)) :
    Reverts x y (p ∧ q) (tuple (t :: ts)) (tuple (u :: us)) where
  form := by
    have others := rest.form
    simp only [form_tuple, Form.subst_tuple, Form.tuple.injEq] at others
    simp only [form_tuple, Form.subst_tuple, List.map_cons, others, first.form]
  spares := by rw [Within.tuple_iff, List.forall_mem_cons, first.spares, ← rest.spares, Within.tuple_iff]

theorem arrow {ps qs : List Ty} {r s : Ty} (params : Reverts x y p (tuple ps) (tuple qs))
    (result : Reverts x y q r s) : Reverts x y (p ∧ q) (arrow ps r) (arrow qs s) where
  form := by
    have same := params.form
    simp only [form_tuple, Form.subst_tuple, Form.tuple.injEq] at same
    rw [form_arrow, form_arrow, Form.subst_arrow, same, result.form]
  spares := by rw [Within.arrow_iff, result.spares, ← params.spares, Within.tuple_iff]

theorem record_cons {l : String} {fs gs : List (String × Ty)} (first : Reverts x y p t u)
    (rest : Reverts x y q (record fs) (record gs)) :
    Reverts x y (p ∧ q) (record ((l, t) :: fs)) (record ((l, u) :: gs)) where
  form := by
    have others := rest.form
    simp only [form_record, Form.subst_record, Form.record.injEq] at others
    simp only [form_record, Form.subst_record, List.map_cons, others, first.form]
  spares := by rw [Within.record_iff, List.forall_mem_cons, first.spares, ← rest.spares, Within.record_iff]

theorem variant_cons_none {l : String} {fs gs : List (String × Option Ty)}
    (rest : Reverts x y q (variant fs) (variant gs)) :
    Reverts x y q (variant ((l, none) :: fs)) (variant ((l, none) :: gs)) where
  form := by
    have others := rest.form
    simp only [form_variant, Form.subst_variant, Form.variant.injEq] at others
    simp only [form_variant, Form.subst_variant, List.map_cons, others, Option.map_none]
  spares := by
    rw [Within.variant_iff, List.forall_mem_cons, ← rest.spares, Within.variant_iff]
    simp

theorem variant_cons_some {l : String} {fs gs : List (String × Option Ty)} (first : Reverts x y p t u)
    (rest : Reverts x y q (variant fs) (variant gs)) :
    Reverts x y (p ∧ q) (variant ((l, some t) :: fs)) (variant ((l, some u) :: gs)) where
  form := by
    have others := rest.form
    simp only [form_variant, Form.subst_variant, Form.variant.injEq] at others
    simp only [form_variant, Form.subst_variant, List.map_cons, others, Option.map_some, first.form]
  spares := by
    rw [Within.variant_iff, List.forall_mem_cons, ← rest.spares, Within.variant_iff, ← first.spares]
    simp

/-- Other binders change neither the name nor whether it is spared. -/
theorem forAll {zs : List String} (absent : x ∉ zs) (absent' : y ∉ zs) (body : Reverts x y p b c) :
    Reverts x y p (forAll zs b) (forAll zs c) where
  form := by
    have apart : ∀ w ∈ (Ty.var x).freeNames, places zs w = none := by
      simpa [freeNames] using places_eq_none.mpr absent
    rw [Ty.form, Ty.form, Form.subst_forAll, body.form]
    exact congrArg _ (close_subst (s := Ty.var x) (places_eq_none.mpr absent') (.inl apart))
  spares := by
    rw [Within.forAll_iff, ← body.spares]
    refine ⟨fun within => within.mono fun z => ?_, fun within => within.mono fun _ => .inr⟩
    rintro (bound | other)
    · exact fun same => absent (same ▸ bound)
    · exact other

theorem recursive {z : String} (absent : x ≠ z) (absent' : y ≠ z) (body : Reverts x y p b c) :
    Reverts x y p (recursive z b) (recursive z c) where
  form := by
    have apart : ∀ w ∈ (Ty.var x).freeNames, places [z] w = none := by
      simpa [freeNames] using places_eq_none.mpr (by simpa using absent)
    have unplaced : places [z] y = none := places_eq_none.mpr (by simpa using absent')
    rw [Ty.form, Ty.form, Form.subst_recursive, body.form]
    exact congrArg _ (close_subst (s := Ty.var x) unplaced (.inl apart))
  spares := by
    rw [Within.recursive_iff, ← body.spares]
    refine ⟨fun within => within.mono fun w => ?_, fun within => within.mono fun _ => .inr⟩
    rintro (bound | other)
    · exact fun same => absent (same ▸ List.mem_singleton.mp bound)
    · exact other

end Reverts

/-- That two types are one up to the names of binders, under a condition and only then. -/
def SameIf (p : Prop) (t u : Ty) : Prop :=
  u.form = t.form ↔ p

/-- Binders take nothing away that could not be put back. -/
theorem close_injective {xs : List String} :
    c.form.close (places xs) = b.form.close (places xs) ↔ c.form = b.form := by
  refine ⟨fun same => ?_, congrArg _⟩
  have named (d : Ty) : ∀ z ∈ d.freeNames, ∀ i, places xs z = some i →
      Form.var (.free (xs.getD i "")) = .var (.free z) := by
    intro z _ i placed
    rw [List.getD_eq_getElem?_getD, (places_eq_some.mp placed).1, Option.getD_some]
  rw [← fill_close (named c), ← fill_close (named b), same]

namespace SameIf

theorem sum_left {r : Ty} (left : SameIf p t u) : SameIf p (sum t r) (sum u r) := by
  simpa [SameIf, Ty.form] using left

theorem sum_right {l : Ty} (right : SameIf p t u) : SameIf p (sum l t) (sum l u) := by
  simpa [SameIf, Ty.form] using right

theorem list (element : SameIf p t u) : SameIf p (list t) (list u) := by
  simpa [SameIf, Ty.form] using element

theorem ref (referent : SameIf p t u) : SameIf p (ref t) (ref u) := by
  simpa [SameIf, Ty.form] using referent

theorem params {ps qs : List Ty} {r : Ty} (params : SameIf p (tuple ps) (tuple qs)) :
    SameIf p (arrow ps r) (arrow qs r) := by
  simpa [SameIf] using params

theorem result {ps : List Ty} (result : SameIf p t u) : SameIf p (arrow ps t) (arrow ps u) := by
  simpa [SameIf] using result

theorem forAll {xs : List String} (body : SameIf p b c) : SameIf p (forAll xs b) (forAll xs c) := by
  simpa [SameIf, Ty.form, close_injective] using body

theorem recursive {z : String} (body : SameIf p b c) : SameIf p (recursive z b) (recursive z c) := by
  simpa [SameIf, Ty.form, close_injective] using body

end SameIf

section Binders

variable {xs : List String}

theorem places_rename_new (new : y ∉ xs) :
    places (xs.map fun z => if z = x then y else z) y = places xs x := by
  induction xs with
  | nil => rfl
  | cons z xs ih =>
    obtain ⟨other, absent⟩ : y ≠ z ∧ y ∉ xs := by simpa using new
    rw [List.map_cons, places_cons, places_cons, ih absent]
    by_cases same : z = x
    · rw [if_pos same, if_pos rfl, if_pos same]
    · rw [if_neg same, if_neg (Ne.symm other), if_neg same]

theorem places_rename_other {w : String} (other : w ≠ x) (other' : w ≠ y) :
    places (xs.map fun z => if z = x then y else z) w = places xs w := by
  induction xs with
  | nil => rfl
  | cons z xs ih =>
    rw [List.map_cons, places_cons, places_cons, ih]
    by_cases same : z = x
    · rw [if_pos same, if_neg (Ne.symm other'), if_neg (same ▸ Ne.symm other)]
    · rw [if_neg same]

namespace Reverts

/-- Binders under which the name is a new one bind the same, unless the old name is one of the type
as well: that was captured. -/
theorem forAll_rename (body : Reverts x y p b c) (other : x ≠ y) (member : x ∈ xs) (new : y ∉ xs) :
    SameIf p (Ty.forAll xs b) (Ty.forAll (xs.map fun z => if z = x then y else z) c) := by
  let ys := xs.map fun z => if z = x then y else z
  constructor
  · intro same
    refine body.spares.mp (within_ne_iff.mpr fun free => ?_)
    have unbound : x ∉ ys := by
      intro member
      obtain ⟨z, -, same⟩ := List.mem_map.mp member
      split at same
      · exact other same.symm
      · contradiction
    have outside : x ∈ (Ty.forAll ys c).freeNames := by simp [freeNames, free, unbound]
    have captured : x ∉ (Ty.forAll xs b).freeNames := by simp [freeNames, member]
    exact captured (free_of_form_eq same outside)
  · intro spared
    have absent : x ∉ c.freeNames := within_ne_iff.mp (body.spares.mpr spared)
    obtain ⟨i, placed⟩ := Option.ne_none_iff_exists'.mp (mt places_eq_none.mp (not_not_intro member))
    have closed : (c.form.subst y (.var (.free x))).close (places xs) = c.form.close (places ys) :=
      close_rename absent ((places_rename_new new).trans placed) placed fun w other other' =>
        (places_rename_other other' other).symm
    rw [Ty.form, Ty.form, List.length_map, body.form, closed]

theorem recursive_rename (body : Reverts x y p b c) (other : x ≠ y) :
    SameIf p (Ty.recursive x b) (Ty.recursive y c) := by
  have new : y ∉ [x] := by simpa using other.symm
  have universal := body.forAll_rename other (List.mem_singleton.mpr rfl) new
  simpa [SameIf, Ty.form] using universal

end Reverts

end Binders

end StellaLang.Ty
