import StellaLang.Proofs.Ty.Orderly
import StellaLang.Ty.Equality

/-! Instantiation of universal types. All arguments are put in at once, as the form of the body
has it: the binders are renamed apart from the arguments first, so no argument is put into
another one. Two binders must not take one name for that. -/
namespace StellaLang

namespace Form

/-- Puts forms in for free names, for each name its own. -/
def puttingAll (xs : List String) (fs : List Form) (_ : Nat) : Var → Form
  | .free y =>
    match places xs y with
    | some i => fs.getD i (var (.free y))
    | none => var (.free y)
  | v => var v

/-- Simultaneous substitution. What is put in for one name is not looked at for the others. -/
def substAll (f : Form) (xs : List String) (fs : List Form) : Form :=
  f.replace (puttingAll xs fs) 0

end Form

namespace Ty

/-- The form of an argument by its position. -/
def argument (args : List Ty) (i : Nat) : Form :=
  (args.map form).getD i (.constant .error)

/-- Arguments are put in one after the other as in forms. -/
def PutAsForms : List (String × Ty) → Ty → Prop
  | [], _ => True
  | (x, arg) :: rest, t =>
    (t.substitute x arg).form = t.form.subst x arg.form ∧ PutAsForms rest (t.substitute x arg)

/-- Arguments put in one after the other, for names that none of them mentions. -/
theorem form_foldl_substitute {xs : List String} {args : List Ty} (length : xs.length = args.length)
    {b : Ty} (asForms : PutAsForms (xs.zip args) b) (unused : ∀ x ∈ xs, x ∉ freeNamesAll args) :
    ((xs.zip args).foldl (fun t (x, arg) => t.substitute x arg) b).form =
      (b.form.close (places xs)).fill (argument args) := by
  induction xs generalizing args b with
  | nil =>
    obtain rfl : args = [] := List.length_eq_zero_iff.mp length.symm
    exact (fill_close fun y _ i placed => by simp [places] at placed).symm
  | cons x xs ih =>
    cases args with
    | nil => contradiction
    | cons arg args =>
      obtain ⟨first, rest⟩ := asForms
      simp only [freeNamesAll, List.mem_append, not_or] at unused
      rw [List.zip_cons_cons, List.foldl_cons, ih (by simpa using length) rest
        fun y member => (unused y (List.mem_cons_of_mem x member)).2, first]
      -- An argument mentions none of the names that are still to be replaced.
      have closed (d : Nat) : arg.form.replace (fun k v =>
          (Form.closing (places xs) k v).replace (Form.filling (argument args)) k) d = arg.form := by
        refine form_replace_self d (fun k y free => ?_) fun k i j less => ?_
        · have absent : places xs y = none := places_eq_none.mpr fun member =>
            (unused y (List.mem_cons_of_mem x member)).1 free
          simp [Form.closing, Form.filling, absent]
        · have inner : i ≠ k := by omega
          simp [Form.closing, Form.filling, inner]
      unfold Form.subst Form.close Form.fill
      rw [Form.replace_replace, Form.replace_replace, Form.replace_replace]
      refine form_replace_congr (fun d y _ => ?_) fun d k i less => ?_
      · by_cases same : y = x
        · subst same
          rw [Form.putting, if_pos rfl, closed d]
          simp [Form.closing, Form.filling, places_cons, argument]
        · cases placed : places xs y with
          | none => simp [Form.putting, Form.closing, Form.filling, places_cons, same, Ne.symm same, placed]
          | some i =>
            simp [Form.putting, Form.closing, Form.filling, places_cons, same, Ne.symm same, placed,
              argument]
      · simp [Form.putting, Form.closing, Form.filling, Nat.ne_of_lt less]

/-- No argument tangles binders for a later one, since it does not mention what that is put in
for. -/
theorem putAsForms {names xs : List String} {args : List Ty} {t : Ty}
    (calm : ∀ x ∈ xs, t.Calm [x] names) (unused : ∀ x ∈ xs, x ∉ names)
    (within : ∀ arg ∈ args, arg.freeNames ⊆ names) : PutAsForms (xs.zip args) t := by
  induction xs generalizing args t with
  | nil => trivial
  | cons x xs ih =>
    cases args with
    | nil => trivial
    | cons arg args =>
      obtain ⟨first, rest⟩ := List.forall_mem_cons.mp calm
      obtain ⟨inNames, within⟩ := List.forall_mem_cons.mp within
      refine ⟨first.form_substitute inNames, ih (fun y member => ?_)
        (fun y member => unused y (List.mem_cons_of_mem x member)) within⟩
      have absent : y ∉ arg.freeNames := fun free => unused y (List.mem_cons_of_mem x member) (inNames free)
      by_cases same : y = x
      · subst same
        refine .absent (List.mem_singleton.mpr rfl) fun free => ?_
        rcases (freeNames_substitute ..).mp free with ⟨other, -⟩ | ⟨-, put⟩
        · exact other rfl
        · exact absent put
      · refine Calm.substitute t (rest y member) (.absent (List.mem_singleton.mpr rfl) absent) ?_ ?_
        · intro v watched
          obtain rfl := List.mem_singleton.mp watched
          exact List.mem_cons.not.mpr (not_or.mpr ⟨same, absent⟩)
        · exact fun tangles => tangles.not_calm inNames first

section Orderly

variable {xs : List String} {b : Ty} {args : List Ty}

theorem Orderly.not_clash (orderly : (forAll xs b).Orderly (freeNamesAll args)) :
    ¬Clash xs b (renameApart args xs xs b).1 :=
  orderly.loose.not_clash (renameApart_freshens args xs xs b) (List.Subset.refl xs) fun _ _ => id

theorem Orderly.calm_renameApart {names : List String} (orderly : (forAll xs b).Orderly names)
    (watched : List String) : (renameApart args xs xs b).2.Calm watched names := by
  have body : b.Orderly names := orderly.of_parts (by simp [parts])
  have calm : (renameApart args xs xs b).2.Calm [] names := (renameApart_freshens args xs xs b).calm
    (fun b' _ calm y z other other' => calm.rename other other') (by simp) (body.calm b [])
  exact calm.mono (List.nil_subset watched)

/-- All arguments are put in at once, whatever they mention, if the binders are loose. -/
theorem form_instantiate_of_orderly (orderly : (forAll xs b).Orderly (freeNamesAll args))
    (length : xs.length = args.length) :
    (instantiate xs b args).form = (b.form.close (places xs)).fill (argument args) := by
  have freshens := renameApart_freshens args xs xs b
  have unused (x : String) (member : x ∈ (renameApart args xs xs b).1) : x ∉ freeNamesAll args :=
    freshens.avoids member
  have asForms : PutAsForms ((renameApart args xs xs b).1.zip args) (renameApart args xs xs b).2 :=
    putAsForms (fun x _ => orderly.calm_renameApart [x]) unused fun arg member z free =>
      mem_freeNamesAll.mpr ⟨arg, member, free⟩
  have put := form_foldl_substitute (freshens.length.symm.trans length) asForms unused
  rw [freshens.close_eq (fun b' _ => renamedAsForm b') orderly.not_clash] at put
  exact put

/-- What is put in for the variables of a binder is substituted for their names. -/
theorem fill_close_args (b : Ty) (length : xs.length = args.length) :
    (b.form.close (places xs)).fill (argument args) = b.form.substAll xs (args.map form) := by
  unfold Form.fill Form.close Form.substAll
  rw [Form.replace_replace]
  refine form_replace_congr (fun d y _ => ?_) fun d k i less => ?_
  · cases placed : places xs y with
    | none => simp [Form.closing, Form.filling, Form.puttingAll, placed]
    | some i =>
      have inside : i < args.length :=
        length ▸ (List.getElem?_eq_some_iff.mp (places_eq_some.mp placed).1).1
      simp [Form.closing, Form.filling, Form.puttingAll, placed, argument, inside]
  · simp [Form.closing, Form.filling, Form.puttingAll, Nat.ne_of_lt less]

/-- Type application puts all arguments in at once, whatever these mention, if no two of the names
they mention make two binders take one name of which the later binder is used. -/
theorem form_instantiate_eq_substAll (orderly : (forAll xs b).Orderly (freeNamesAll args))
    (length : xs.length = args.length) :
    (instantiate xs b args).form = b.form.substAll xs (args.map form) := by
  rw [form_instantiate_of_orderly orderly length, fill_close_args b length]

/-- The arguments mention both variables, a bound one and the first names that these are renamed
to. -/
theorem instantiate_swaps_variables :
    let body := arrow [var "X", var "Y"] (forAll ["Z", "W"] (tuple [var "W", var "X", var "Z"]))
    let args := [list (var "Y"), arrow [var "X", var "X1"] (sum (var "Z") (var "Y1"))]
    (forAll ["X", "Y"] body).Orderly (freeNamesAll args) ∧ ["X", "Y"].length = args.length ∧
      (instantiate ["X", "Y"] body args).form = body.form.substAll ["X", "Y"] (args.map form) := by
  intro body args
  have orderly : (forAll ["X", "Y"] body).Orderly (freeNamesAll args) := by decide
  exact ⟨orderly, rfl, form_instantiate_eq_substAll orderly rfl⟩

/-- The variable `a` takes the name that `a1` takes, so the first argument is put in for both. -/
theorem instantiate_captures :
    ¬∀ (xs : List String) (b : Ty) (args : List Ty), xs.Nodup → xs.length = args.length →
      (instantiate xs b args).form = b.form.substAll xs (args.map form) := by
  intro right
  have captured : instantiate ["a", "a1"] (var "a1") [crowd, nat] = crowd := by decide +kernel
  have same := right ["a", "a1"] (var "a1") [crowd, nat] (by decide) rfl
  rw [captured] at same
  simp [form, crowd, Form.substAll, Form.puttingAll, places_cons] at same

end Orderly

theorem form_instantiate {xs : List String} {b : Ty} {args : List Ty} (tidy : (forAll xs b).Tidy)
    (length : xs.length = args.length) :
    (instantiate xs b args).form = (b.form.close (places xs)).fill (argument args) :=
  form_instantiate_of_orderly (tidy.orderly _) length

theorem tidy_instantiate {xs : List String} {b : Ty} {args : List Ty} (tidy : b.Tidy)
    (tidyArgs : ∀ arg ∈ args, arg.Tidy) : (instantiate xs b args).Tidy := by
  intro u part
  rcases parts_instantiate part with ⟨arg, member, outlined⟩ | outlined
  · exact (tidyArgs arg member).of_outlined outlined
  · exact tidy.of_outlined outlined

end Ty

end StellaLang
