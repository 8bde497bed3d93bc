import StellaLang.Proofs.Ty.FormConformance

/-! Unfolding and subtyping. Bodies of recursive types are compared with their variables alike,
while unfolding puts two different types in for them. That makes no difference where the
variables stand on the side of results; elsewhere the types must be subtypes both ways. -/
namespace StellaLang

namespace Form

variable {subtyping : Bool}

/-- Two forms that conform are compared again after something is put in for a variable of
both. If for the forms put in themselves the comparison comes out as with two others, or as some other
condition says, then so it does for the whole, wherever the variable is. -/
theorem Conforms.replace_filling_iff {f g : Form} (h : Conforms subtyping f g) {p q p' q' : Form}
    {other : Prop} (there : Conforms subtyping p q ↔ other ∨ Conforms subtyping p' q')
    (back : Conforms subtyping q p ↔ other ∨ Conforms subtyping q' p') (d : Nat) :
    Conforms subtyping (f.replace (filling fun _ => p) d) (g.replace (filling fun _ => q) d) ↔
      other ∨ Conforms subtyping (f.replace (filling fun _ => p') d)
        (g.replace (filling fun _ => q') d) := by
  induction h generalizing p q p' q' d with
  | wildcard h =>
    have filled : Conforms subtyping _ _ := .wildcard (wildcard_replace (σ := filling fun _ => p) (d := d)
      (filling fun _ => q) h)
    have filled' : Conforms subtyping _ _ := .wildcard (wildcard_replace (σ := filling fun _ => p') (d := d)
      (filling fun _ => q') h)
    exact iff_of_true filled (.inr filled')
  | toTop h => exact iff_of_true (.toTop h) (.inr (.toTop h))
  | fromBottom h => exact iff_of_true (.fromBottom h) (.inr (.fromBottom h))
  | constant c => exact iff_of_true (.constant c) (.inr (.constant c))
  | var v =>
    cases v with
    | free x => exact iff_of_true (.var _) (.inr (.var _))
    | bound k i =>
      rw [replace_var, replace_var, replace_var, replace_var]
      by_cases here : k = d
      · simpa only [filling, if_pos here] using there
      · simpa only [filling, if_neg here] using iff_of_true (.var _) (.inr (.var _))
  | arrow length _ _ params result =>
    simp only [replace_arrow, conforms_arrow_iff, and_iff_right length]
    rw [result there back d, or_and_left, ← forall_or_left]
    refine and_congr_left fun _ => forall_congr' fun p => ?_
    simp only [← forall_or_left]
    exact forall₂_congr fun q member => params p q member back there d
  | forAll n _ bodies =>
    simp only [replace_forAll, conforms_forAll_iff, true_and]
    exact bodies there back (d + 1)
  | recursive _ bodies =>
    simp only [replace_recursive, conforms_recursive_iff]
    exact bodies there back (d + 1)
  | tuple length _ elements =>
    simp only [replace_tuple, conforms_tuple_iff, and_iff_right length, ← forall_or_left]
    exact forall₃_congr fun t u member => elements t u member there back d
  | sum _ _ left right =>
    simp only [replace_sum, conforms_sum_iff]
    rw [left there back d, right there back d, or_and_left]
  | record width present _ fields =>
    rw [replace_record, replace_record, replace_record, replace_record, conforms_record_iff,
      conforms_record_iff, and_iff_right width, and_iff_right present, and_iff_right width,
      and_iff_right present]
    simp only [← forall_or_left]
    exact forall₃_congr fun l t u => forall₂_congr fun member found =>
      fields l t u member found there back d
  | variant present _ payloads =>
    rw [replace_variant, replace_variant, replace_variant, replace_variant, conforms_variant_iff,
      conforms_variant_iff, and_iff_right present, and_iff_right present]
    simp only [← forall_or_left]
    exact forall₃_congr fun l t u => forall₂_congr fun member found =>
      payloads l t u member found there back d
  | list _ element =>
    simp only [replace_list, conforms_list_iff]
    exact element there back d
  | ref _ _ ahead around =>
    simp only [replace_ref, conforms_ref_iff]
    rw [ahead there back d, around back there d, or_and_left]

end Form

namespace Ty

theorem form_unfold {x : String} {b : Ty} (tidy : b.Tidy) :
    (recursive x b).unfold.form = (b.form.close (places [x])).fill fun _ => (recursive x b).form := by
  rw [fill_close_single, unfold, form_substitute tidy]

theorem form_substitute_eq_fill {b s : Ty} (tidy : b.Tidy) (x : String) :
    (b.substitute x s).form = (b.form.close (places [x])).fill fun _ => s.form := by
  rw [fill_close_single, form_substitute tidy]

theorem tidy_unfold {x : String} {b : Ty} (tidy : b.Tidy) : (recursive x b).unfold.Tidy :=
  tidy.substitute x (tidy_recursive.mpr tidy)

/-- When a recursive type is a subtype of another one, so are the types they unfold to under a
condition, and only then: the two are subtypes both ways, or their variables are compared in positive
places only, where the least type would do for one and the greatest for the other. -/
theorem unfold_isSubtypeOf_iff {x y : String} {b c : Ty} (tidy : b.Tidy) (tidy' : c.Tidy)
    (h : (recursive x b).isSubtypeOf (recursive y c) = true) :
    (recursive x b).unfold.isSubtypeOf (recursive y c).unfold = true ↔
      (recursive y c).isSubtypeOf (recursive x b) = true ∨
        (b.substitute x bottom).isSubtypeOf (c.substitute y top) = true := by
  have tidyExtremes : bottom.Tidy ∧ top.Tidy := by decide
  unfold isSubtypeOf at h ⊢
  rw [conforms_iff_form (tidy_recursive.mpr tidy) (tidy_recursive.mpr tidy')] at h
  rw [conforms_iff_form (tidy_unfold tidy) (tidy_unfold tidy'),
    conforms_iff_form (tidy_recursive.mpr tidy') (tidy_recursive.mpr tidy),
    conforms_iff_form (tidy.substitute x tidyExtremes.1) (tidy'.substitute y tidyExtremes.2),
    form_substitute_eq_fill tidy, form_substitute_eq_fill tidy', form_unfold tidy, form_unfold tidy']
  have bodies : Form.Conforms true (b.form.close (places [x])) (c.form.close (places [y])) :=
    Form.conforms_recursive_iff.mp h
  have extremes : ¬Form.Conforms true (.constant .top) (.constant .bottom) := by
    intro reversed
    cases reversed with
    | wildcard h => contradiction
  refine bodies.replace_filling_iff ?_ ?_ 0
  · exact iff_of_true h (.inr (.toTop rfl))
  · exact (or_iff_left extremes).symm

/-- With variables in positive places only, subtyping outlives the unfolding. -/
theorem streams_unfold_isSubtypeOf :
    let longer := recursive "X" (record [("head", nat), ("tail", arrow [] (var "X")), ("size", nat)])
    let shorter := recursive "Y" (record [("tail", arrow [] (var "Y")), ("head", top)])
    longer.isSubtypeOf shorter = true ∧ longer.unfold.isSubtypeOf shorter.unfold = true := by
  intro longer shorter
  have folded : longer.isSubtypeOf shorter = true := by decide +kernel
  exact ⟨folded, (unfold_isSubtypeOf_iff (by decide) (by decide) folded).mpr (.inr (by decide +kernel))⟩

/-- Subtyping does not outlive the unfolding where a variable is a parameter, since the wider type
is asked for the values of the narrower one. Names that are not kept apart get in the way as
well: renaming the binders of one universal type may give two of them one name, and a name made for
aligned binders may be the name of a binder that is still to be aligned. -/
theorem unfold_not_isSubtypeOf :
    (let narrow := recursive "X" (record [("same", arrow [var "X"] bool), ("size", nat)])
      let wide := recursive "Y" (record [("same", arrow [var "Y"] bool)])
      narrow.isSubtypeOf wide = true ∧ narrow.unfold.isSubtypeOf wide.unfold = false) ∧
    (let names := ["a", "a1", "a2", "a3", "a4", "a5", "a6", "a7", "a8", "a9", "a10"].map var
      let left := recursive "X" (tuple (forAll ["a", "a1"] (tuple [var "a1", var "X"]) :: names))
      let right := recursive "Y" (tuple (forAll ["c", "d"] (tuple [var "d", var "Y"]) :: names))
      left.isSubtypeOf right = true ∧ left.unfold.isSubtypeOf right.unfold = false) ∧
    (let left := recursive "X" (forAll ["p", "'1"] (tuple [var "p", var "X"]))
      let right := recursive "Y" (forAll ["q", "r"] (tuple [var "q", var "Y"]))
      left.isSubtypeOf right = true ∧ left.unfold.isSubtypeOf right.unfold = false) := by
  decide +kernel

end Ty

end StellaLang
