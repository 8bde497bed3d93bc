import StellaLang.Proofs.Ty.Instantiation
import StellaLang.Proofs.Ty.Unfolding
import StellaLang.Ty.Merge

/-! Types that differ in a free name. Whatever the checker computes from such types differs in
that name only, and what it decides of them is the same. -/
namespace StellaLang

namespace Form

variable {subtyping : Bool} {f g : Form} {x y : String}

/-- One name for another one. -/
def rename (x y : String) (f : Form) : Form :=
  f.subst x (.var (.free y))

theorem Conforms.rename (h : Conforms subtyping f g) (x y : String) :
    Conforms subtyping (f.rename x y) (g.rename x y) := by
  refine h.replace (fun d v => ?_) 0
  unfold putting
  split
  all_goals exact .var _

/-- Names are renamed before or after a binder is filled. -/
theorem rename_fill (u : Nat → Form) :
    (f.fill u).rename x y = (f.rename x y).fill fun i => (u i).rename x y := by
  unfold rename subst fill
  rw [replace_replace, replace_replace]
  refine replace_congr f 0 fun d v _ => ?_
  cases v with
  | free z =>
    by_cases same : z = x
    · simp [filling, putting, same]
    · simp [filling, putting, same]
  | bound k i =>
    by_cases here : k = d
    · simpa [filling, putting, here, subst] using replace_putting (u i) x (.var (.free y)) d
    · simp [filling, putting, here]

/-- A renamed name is gone. -/
theorem not_mem_vars_rename (other : x ≠ y) (d : Nat) : (d, .free x) ∉ (f.rename x y).vars 0 := by
  intro inside
  obtain ⟨j, v, -, rest⟩ := (mem_vars_replace _).mp inside
  unfold putting at rest
  split at rest
  · simp [vars, other] at rest
  · rename_i kept
    simp only [vars, List.mem_singleton, Prod.mk.injEq] at rest
    exact kept rest.2.symm

end Form

namespace Ty

/-- That two tidy types are one up to a free name, which is `x` in the first and `y` in the second.
Neither mentions the name of the other. -/
structure Renamed (x y : String) (t u : Ty) : Prop where
  tidy : t.Tidy
  tidy' : u.Tidy
  form : u.form = t.form.rename x y
  back : t.form = u.form.rename y x

variable {x y : String} {t u t' u' : Ty}

theorem renamed_iff : Renamed x y t u ↔
    t.Tidy ∧ u.Tidy ∧ u.form = t.form.rename x y ∧ t.form = u.form.rename y x :=
  ⟨fun ⟨tidy, tidy', form, back⟩ => ⟨tidy, tidy', form, back⟩,
    fun ⟨tidy, tidy', form, back⟩ => ⟨tidy, tidy', form, back⟩⟩

/-- That a type is tidy and does not mention a name. -/
def Spares (y : String) (t : Ty) : Prop :=
  t.Tidy ∧ y ∉ t.freeNames

instance (y : String) (t : Ty) : Decidable (Spares y t) :=
  inferInstanceAs (Decidable (_ ∧ _))

namespace Spares

theorem arrow {ps : List Ty} {r : Ty} (params : Spares y (Ty.tuple ps)) (result : Spares y r) :
    Spares y (Ty.arrow ps r) := by
  obtain ⟨tidy, unused⟩ := params
  refine ⟨tidy_arrow.mpr ⟨tidy_tuple.mp tidy, result.1⟩, ?_⟩
  rw [freeNames, List.mem_append, not_or]
  exact ⟨unused, result.2⟩

theorem forAll {zs : List String} {b : Ty} (separate : Separate zs) (body : Spares y b) :
    Spares y (Ty.forAll zs b) := by
  refine ⟨tidy_forAll.mpr ⟨separate, body.1⟩, ?_⟩
  rw [freeNames, List.mem_filter]
  exact fun free => body.2 free.1

theorem recursive {z : String} {b : Ty} (body : Spares y b) : Spares y (Ty.recursive z b) := by
  refine ⟨tidy_recursive.mpr body.1, ?_⟩
  rw [freeNames, List.mem_filter]
  exact fun free => body.2 free.1

theorem sum {l r : Ty} (left : Spares y l) (right : Spares y r) : Spares y (Ty.sum l r) := by
  refine ⟨tidy_sum.mpr ⟨left.1, right.1⟩, ?_⟩
  rw [freeNames, List.mem_append, not_or]
  exact ⟨left.2, right.2⟩

theorem tuple_cons {t : Ty} {ts : List Ty} (first : Spares y t) (rest : Spares y (Ty.tuple ts)) :
    Spares y (Ty.tuple (t :: ts)) := by
  refine ⟨tidy_tuple.mpr (List.forall_mem_cons.mpr ⟨first.1, tidy_tuple.mp rest.1⟩), ?_⟩
  rw [freeNames, freeNamesAll, List.mem_append, not_or]
  exact ⟨first.2, rest.2⟩

theorem record_cons {l : String} {t : Ty} {fs : List (String × Ty)} (first : Spares y t)
    (rest : Spares y (Ty.record fs)) : Spares y (Ty.record ((l, t) :: fs)) := by
  constructor
  · rw [tidy_record]
    rintro m u (_ | ⟨_, later⟩)
    · exact first.1
    · exact tidy_record.mp rest.1 m u later
  · rw [freeNames, freeNamesFields, List.mem_append, not_or]
    exact ⟨first.2, rest.2⟩

theorem variant_cons {l : String} {payload : Option Ty} {fs : List (String × Option Ty)}
    (first : ∀ t, payload = some t → Spares y t) (rest : Spares y (Ty.variant fs)) :
    Spares y (Ty.variant ((l, payload) :: fs)) := by
  constructor
  · rw [tidy_variant]
    rintro m u (_ | ⟨_, later⟩)
    · exact (first u rfl).1
    · exact tidy_variant.mp rest.1 m u later
  · cases payload with
    | none => exact rest.2
    | some t =>
      rw [freeNames, freeNamesAlternatives, List.mem_append, not_or]
      exact ⟨(first t rfl).2, rest.2⟩

end Spares

namespace Renamed

theorem symm (h : Renamed x y t u) : Renamed y x u t :=
  ⟨h.tidy', h.tidy, h.back, h.form⟩

theorem var (x y : String) : Renamed x y (var x) (var y) :=
  ⟨tidy_var x, tidy_var y, by simp [Ty.form, Form.rename], by simp [Ty.form, Form.rename]⟩

/-- A type that mentions neither of the names. -/
theorem of_spares (first : Spares x t) (second : Spares y t) : Renamed x y t t :=
  ⟨first.1, first.1, (form_subst_of_not_free first.2 _).symm, (form_subst_of_not_free second.2 _).symm⟩

end Renamed

section Lists

/-- Two entries with one label and related values. -/
def Labelled (R : α → β → Prop) (f : String × α) (g : String × β) : Prop :=
  f.1 = g.1 ∧ R f.2 g.2

theorem rel_lookup {R : α → β → Prop} {fs : List (String × α)} {gs : List (String × β)}
    (related : List.Forall₂ (Labelled R) fs gs) (l : String) :
    Option.Rel R (fs.lookup l) (gs.lookup l) := by
  induction related with
  | nil => exact .none
  | @cons f g fs gs first _ ih =>
    obtain ⟨m, a⟩ := f
    obtain ⟨n, b⟩ := g
    obtain ⟨same, value⟩ := first
    obtain rfl : m = n := same
    rw [List.lookup_cons, List.lookup_cons]
    cases l == m with
    | true => exact .some value
    | false => exact ih

theorem rel_getElem? {R : α → β → Prop} {as : List α} {bs : List β} (related : List.Forall₂ R as bs)
    (i : Nat) : Option.Rel R as[i]? bs[i]? := by
  induction related generalizing i with
  | nil => exact .none
  | cons first _ ih =>
    cases i with
    | zero => exact .some first
    | succ i => exact ih i

theorem map_fst {R : α → β → Prop} {fs : List (String × α)} {gs : List (String × β)}
    (related : List.Forall₂ (Labelled R) fs gs) : fs.map (·.1) = gs.map (·.1) := by
  induction related with
  | nil => rfl
  | cons first _ ih => rw [List.map_cons, List.map_cons, first.1, ih]

theorem map_snd {R : α → β → Prop} {fs : List (String × α)} {gs : List (String × β)}
    (related : List.Forall₂ (Labelled R) fs gs) :
    List.Forall₂ R (fs.map (·.2)) (gs.map (·.2)) := by
  rw [List.forall₂_map_left_iff, List.forall₂_map_right_iff]
  exact related.imp fun _ _ entry => entry.2

theorem forall₂_eraseIdx {R : α → β → Prop} {as : List α} {bs : List β}
    (related : List.Forall₂ R as bs) (i : Nat) : List.Forall₂ R (as.eraseIdx i) (bs.eraseIdx i) := by
  induction related generalizing i with
  | nil => exact .nil
  | cons first rest ih =>
    cases i with
    | zero => exact rest
    | succ i => exact .cons first (ih i)

/-- A relation that is told by images of both sides, over two lists. -/
theorem forall₂_iff_map {R : α → β → Prop} {P : α → Prop} {Q : β → Prop} {f k : α → γ} {g m : β → γ}
    (each : ∀ a b, R a b ↔ P a ∧ Q b ∧ g b = f a ∧ k a = m b) {as : List α} {bs : List β} :
    List.Forall₂ R as bs ↔
      (∀ a ∈ as, P a) ∧ (∀ b ∈ bs, Q b) ∧ bs.map g = as.map f ∧ as.map k = bs.map m := by
  induction as generalizing bs with
  | nil => cases bs <;> simp
  | cons a as ih =>
    cases bs with
    | nil => simp
    | cons b bs =>
      simp only [List.forall₂_cons, each, ih, List.forall_mem_cons, List.map_cons, List.cons.injEq]
      constructor
      · rintro ⟨⟨here, here', form, back⟩, there, there', forms, backs⟩
        exact ⟨⟨here, there⟩, ⟨here', there'⟩, ⟨form, forms⟩, back, backs⟩
      · rintro ⟨⟨here, there⟩, ⟨here', there'⟩, ⟨form, forms⟩, back, backs⟩
        exact ⟨⟨here, here', form, back⟩, there, there', forms, backs⟩

theorem forall₂_renamed {ts us : List Ty} : List.Forall₂ (Renamed x y) ts us ↔
    (∀ t ∈ ts, t.Tidy) ∧ (∀ u ∈ us, u.Tidy) ∧ us.map form = ts.map (fun t => t.form.rename x y) ∧
      ts.map form = us.map (fun u => u.form.rename y x) := by
  refine forall₂_iff_map fun t u => ?_
  exact renamed_iff

theorem forall₂_renamed_fields {fs gs : List (String × Ty)} :
    List.Forall₂ (Labelled (Renamed x y)) fs gs ↔
      (∀ f ∈ fs, f.2.Tidy) ∧ (∀ g ∈ gs, g.2.Tidy) ∧
        gs.map (fun (l, u) => (l, u.form)) = fs.map (fun (l, t) => (l, t.form.rename x y)) ∧
        fs.map (fun (l, t) => (l, t.form)) = gs.map (fun (l, u) => (l, u.form.rename y x)) := by
  refine forall₂_iff_map fun f g => ?_
  simp only [Labelled, renamed_iff, Prod.mk.injEq]
  constructor
  · rintro ⟨same, tidy, tidy', form, back⟩
    exact ⟨tidy, tidy', ⟨same.symm, form⟩, same, back⟩
  · rintro ⟨tidy, tidy', ⟨-, form⟩, same, back⟩
    exact ⟨same, tidy, tidy', form, back⟩

/-- The same for what alternatives carry, if anything. -/
theorem rel_renamed {p q : Option Ty} : Option.Rel (Renamed x y) p q ↔
    (∀ t, p = some t → t.Tidy) ∧ (∀ u, q = some u → u.Tidy) ∧
      q.map form = p.map (fun t => t.form.rename x y) ∧
      p.map form = q.map (fun u => u.form.rename y x) := by
  cases p with
  | none => cases q <;> simp
  | some t =>
    cases q with
    | none => simp
    | some u => simp [renamed_iff]

theorem forall₂_renamed_alternatives {fs gs : List (String × Option Ty)} :
    List.Forall₂ (Labelled (Option.Rel (Renamed x y))) fs gs ↔
      (∀ f ∈ fs, ∀ t, f.2 = some t → t.Tidy) ∧ (∀ g ∈ gs, ∀ u, g.2 = some u → u.Tidy) ∧
        gs.map (fun (l, q) => (l, q.map form)) =
          fs.map (fun (l, p) => (l, p.map fun t => t.form.rename x y)) ∧
        fs.map (fun (l, p) => (l, p.map form)) =
          gs.map (fun (l, q) => (l, q.map fun u => u.form.rename y x)) := by
  refine forall₂_iff_map fun f g => ?_
  simp only [Labelled, rel_renamed, Prod.mk.injEq]
  constructor
  · rintro ⟨same, tidy, tidy', form, back⟩
    exact ⟨tidy, tidy', ⟨same.symm, form⟩, same, back⟩
  · rintro ⟨tidy, tidy', ⟨-, form⟩, same, back⟩
    exact ⟨same, tidy, tidy', form, back⟩

end Lists

namespace Renamed

theorem arrow_iff {ps qs : List Ty} {r s : Ty} :
    Renamed x y (arrow ps r) (arrow qs s) ↔ List.Forall₂ (Renamed x y) ps qs ∧ Renamed x y r s := by
  simp only [forall₂_renamed, renamed_iff, tidy_arrow, form_arrow, Form.rename, Form.subst_arrow,
    Form.arrow.injEq, List.map_map, Function.comp_def]
  tauto

theorem tuple_iff {ts us : List Ty} :
    Renamed x y (tuple ts) (tuple us) ↔ List.Forall₂ (Renamed x y) ts us := by
  simp only [forall₂_renamed, renamed_iff, tidy_tuple, form_tuple, Form.rename, Form.subst_tuple,
    Form.tuple.injEq, List.map_map, Function.comp_def]

theorem sum_iff {l r l' r' : Ty} :
    Renamed x y (sum l r) (sum l' r') ↔ Renamed x y l l' ∧ Renamed x y r r' := by
  simp only [renamed_iff, tidy_sum, Ty.form, Form.rename, Form.subst_sum, Form.sum.injEq]
  tauto

theorem record_iff {fs gs : List (String × Ty)} :
    Renamed x y (record fs) (record gs) ↔ List.Forall₂ (Labelled (Renamed x y)) fs gs := by
  simp only [forall₂_renamed_fields, renamed_iff, tidy_record, form_record, Form.rename, Form.subst_record,
    Form.record.injEq, List.map_map, Function.comp_def, Prod.forall]

theorem variant_iff {fs gs : List (String × Option Ty)} :
    Renamed x y (variant fs) (variant gs) ↔
      List.Forall₂ (Labelled (Option.Rel (Renamed x y))) fs gs := by
  simp only [forall₂_renamed_alternatives, renamed_iff, tidy_variant_iff, form_variant, Form.rename,
    Form.subst_variant, Form.variant.injEq, List.map_map, Function.comp_def, Option.map_map]

theorem list_iff : Renamed x y (list t) (list u) ↔ Renamed x y t u := by
  simp only [renamed_iff, tidy_list, Ty.form, Form.rename, Form.subst_list, Form.list.injEq]

theorem ref_iff : Renamed x y (ref t) (ref u) ↔ Renamed x y t u := by
  simp only [renamed_iff, tidy_ref, Ty.form, Form.rename, Form.subst_ref, Form.ref.injEq]

/-- Types without parts are renamed to themselves. -/
theorem constant (c : Form.Constant) : Renamed x y (ofConstant c) (ofConstant c) := by
  refine ⟨?_, ?_, ?_, ?_⟩
  · cases c <;> decide
  · cases c <;> decide
  · cases c <;> rfl
  · cases c <;> rfl

end Renamed

/-- Two types with one outermost constructor and renamed parts. -/
inductive SameShape (x y : String) : Ty → Ty → Prop where
  | constant (c : Form.Constant) : SameShape x y (ofConstant c) (ofConstant c)
  | var (z w : String) : SameShape x y (var z) (var w)
  | arrow (params : List.Forall₂ (Renamed x y) ps qs) (result : Renamed x y r s) :
      SameShape x y (arrow ps r) (arrow qs s)
  | forAll (length : xs.length = ys.length) : SameShape x y (forAll xs b) (forAll ys c)
  | tuple (elements : List.Forall₂ (Renamed x y) ts us) : SameShape x y (tuple ts) (tuple us)
  | sum (left : Renamed x y l l') (right : Renamed x y r r') : SameShape x y (sum l r) (sum l' r')
  | record (fields : List.Forall₂ (Labelled (Renamed x y)) fs gs) :
      SameShape x y (record fs) (record gs)
  | variant (payloads : List.Forall₂ (Labelled (Option.Rel (Renamed x y))) fs gs) :
      SameShape x y (variant fs) (variant gs)
  | list {t u : Ty} (element : Renamed x y t u) : SameShape x y (list t) (list u)
  | ref {t u : Ty} (referent : Renamed x y t u) : SameShape x y (ref t) (ref u)
  | recursive (z w : String) : SameShape x y (recursive z b) (recursive w c)

namespace Renamed

theorem shape (h : Renamed x y t u) : SameShape x y t u := by
  have same := h.form
  cases t with
  | bool | nat | unit | top | bottom | never | unknown | error =>
    cases form_eq_constant same
    first
    | exact .constant .bool
    | exact .constant .nat
    | exact .constant .unit
    | exact .constant .top
    | exact .constant .bottom
    | exact .constant .never
    | exact .constant .unknown
    | exact .constant .error
  | var z =>
    rw [Ty.form, Form.rename, Form.subst_var] at same
    split at same
    all_goals
      obtain rfl := form_eq_var same
      exact .var _ _
  | arrow ps r =>
    rw [form_arrow, Form.rename, Form.subst_arrow] at same
    obtain ⟨qs, s, rfl, -⟩ := form_eq_arrow same
    obtain ⟨params, result⟩ := arrow_iff.mp h
    exact .arrow params result
  | forAll xs b =>
    rw [Ty.form, Form.rename, Form.subst_forAll] at same
    obtain ⟨ys, c, rfl, length, -⟩ := form_eq_forAll same
    exact .forAll length.symm
  | recursive z b =>
    rw [Ty.form, Form.rename, Form.subst_recursive] at same
    obtain ⟨w, c, rfl, -⟩ := form_eq_recursive same
    exact .recursive z w
  | tuple ts =>
    rw [form_tuple, Form.rename, Form.subst_tuple] at same
    obtain ⟨us, rfl, -⟩ := form_eq_tuple same
    exact .tuple (tuple_iff.mp h)
  | sum l r =>
    obtain ⟨l', r', rfl, -⟩ := form_eq_sum same
    obtain ⟨left, right⟩ := sum_iff.mp h
    exact .sum left right
  | record fs =>
    rw [form_record, Form.rename, Form.subst_record] at same
    obtain ⟨gs, rfl, -⟩ := form_eq_record same
    exact .record (record_iff.mp h)
  | variant fs =>
    rw [form_variant, Form.rename, Form.subst_variant] at same
    obtain ⟨gs, rfl, -⟩ := form_eq_variant same
    exact .variant (variant_iff.mp h)
  | list t =>
    obtain ⟨u, rfl, -⟩ := form_eq_list same
    exact .list (list_iff.mp h)
  | ref t =>
    obtain ⟨u, rfl, -⟩ := form_eq_ref same
    exact .ref (ref_iff.mp h)

theorem isWildcard (h : Renamed x y t u) : u.isWildcard = t.isWildcard := by
  cases h.shape <;> rfl

theorem isError (h : Renamed x y t u) : u.isError = t.isError := by
  cases h.shape <;> rfl

theorem isBool (h : Renamed x y t u) : u.isBool = t.isBool := by
  cases h.shape <;> rfl

section Binders

/-- Closing a type over other names than the two. -/
theorem form_close_rename {position : String → Option Nat} (same : u.form = t.form.rename x y)
    (unplaced : position x = none) (unplaced' : position y = none) :
    u.form.close position = (t.form.close position).rename x y := by
  rw [same]
  refine close_subst (s := Ty.var y) unplaced (.inl fun z free => ?_)
  obtain rfl : z = y := by simpa [freeNames] using free
  exact unplaced'

/-- A universal type that binds neither of the names. -/
theorem forAll {xs : List String} (h : Renamed x y t u) (separate : Separate xs) (absent : x ∉ xs)
    (absent' : y ∉ xs) : Renamed x y (Ty.forAll xs t) (Ty.forAll xs u) := by
  have unplaced := places_eq_none.mpr absent
  have unplaced' := places_eq_none.mpr absent'
  refine ⟨tidy_forAll.mpr ⟨separate, h.tidy⟩, tidy_forAll.mpr ⟨separate, h.tidy'⟩, ?_, ?_⟩
  · rw [Ty.form, Ty.form, Form.rename, Form.subst_forAll]
    exact congrArg _ (form_close_rename h.form unplaced unplaced')
  · rw [Ty.form, Ty.form, Form.rename, Form.subst_forAll]
    exact congrArg _ (form_close_rename h.back unplaced' unplaced)

theorem recursive {z : String} (h : Renamed x y t u) (absent : z ≠ x) (absent' : z ≠ y) :
    Renamed x y (Ty.recursive z t) (Ty.recursive z u) := by
  have unplaced : places [z] x = none := places_eq_none.mpr (by simpa using absent.symm)
  have unplaced' : places [z] y = none := places_eq_none.mpr (by simpa using absent'.symm)
  refine ⟨tidy_recursive.mpr h.tidy, tidy_recursive.mpr h.tidy', ?_, ?_⟩
  · rw [Ty.form, Ty.form, Form.rename, Form.subst_recursive]
    exact congrArg _ (form_close_rename h.form unplaced unplaced')
  · rw [Ty.form, Ty.form, Form.rename, Form.subst_recursive]
    exact congrArg _ (form_close_rename h.back unplaced' unplaced)

/-- Binding the names that two types differ in makes them one type up to the name that is bound. -/
theorem form_forAll (h : Renamed x y t u) (other : x ≠ y) :
    (Ty.forAll [y] u).form = (Ty.forAll [x] t).form := by
  -- No variable of `t` is `y`, so closing over `y` after the renaming hits the same places.
  have new (d : Nat) : (d, .free y) ∉ t.form.vars 0 := h.back ▸ Form.not_mem_vars_rename other.symm d
  rw [Ty.form, Ty.form, h.form, Form.rename, Form.subst, Form.close, Form.close, Form.replace_replace]
  refine congrArg _ (Form.replace_congr _ 0 fun d v inside => ?_)
  cases v with
  | bound k i => simp [Form.putting, Form.closing]
  | free z =>
    have kept : z ≠ y := fun same => new d (same ▸ inside)
    by_cases renamed : z = x
    · simp [Form.putting, Form.closing, places_cons, renamed]
    · simp [Form.putting, Form.closing, places_cons, renamed, Ne.symm renamed, Ne.symm kept]

end Binders

section Operations

/-- What is decided of types does not depend on their names. -/
theorem conforms {subtyping : Bool} (first : Renamed x y t u) (second : Renamed x y t' u') :
    Ty.conforms subtyping u u' = Ty.conforms subtyping t t' := by
  rw [Bool.eq_iff_iff, conforms_iff_form first.tidy' second.tidy', conforms_iff_form first.tidy second.tidy]
  constructor
  · intro h
    rw [first.back, second.back]
    exact h.rename y x
  · intro h
    rw [first.form, second.form]
    exact h.rename x y

theorem castableTo (first : Renamed x y t u) (second : Renamed x y t' u') :
    u.castableTo u' = t.castableTo t' := by
  rw [Ty.castableTo, Ty.castableTo, isSubtypeOf, isSubtypeOf, isSubtypeOf, isSubtypeOf,
    conforms first second,
    conforms second first]

theorem form_unfold_rename {b c : Ty} {z w : String} (tidy : b.Tidy) (tidy' : c.Tidy)
    (same : (Ty.recursive w c).form = (Ty.recursive z b).form.rename x y) :
    (Ty.recursive w c).unfold.form = (Ty.recursive z b).unfold.form.rename x y := by
  have bodies : c.form.close (places [w]) = (b.form.close (places [z])).rename x y := by
    simpa [Ty.form, Form.rename] using same
  rw [form_unfold tidy, form_unfold tidy', Form.rename_fill, bodies, same]

theorem unfold (h : Renamed x y t u) : Renamed x y t.unfold u.unfold := by
  have whole := h
  cases h.shape with
  | recursive z w =>
    have tidy := tidy_recursive.mp whole.tidy
    have tidy' := tidy_recursive.mp whole.tidy'
    exact ⟨tidy_unfold tidy, tidy_unfold tidy', form_unfold_rename tidy tidy' whole.form,
      form_unfold_rename tidy' tidy whole.back⟩
  | constant c => cases c <;> exact whole
  | _ => exact whole

theorem argument_rename {args args' : List Ty} (same : args'.map Ty.form = args.map (·.form.rename x y))
    (i : Nat) :
    argument args' i = (argument args i).rename x y := by
  simp only [argument, same, List.getD_eq_getElem?_getD, List.getElem?_map]
  cases args[i]? <;> rfl

theorem forAll_bodies {xs ys : List String} {b c : Ty} (h : Renamed x y (Ty.forAll xs b) (Ty.forAll ys c)) :
    ys.length = xs.length ∧ c.form.close (places ys) = (b.form.close (places xs)).rename x y := by
  simpa [Ty.form, Form.rename] using h.form

theorem form_instantiate_rename {xs ys : List String} {b c : Ty} {args args' : List Ty}
    (h : Renamed x y (Ty.forAll xs b) (Ty.forAll ys c)) (all : List.Forall₂ (Renamed x y) args args')
    (length : xs.length = args.length) :
    (Ty.instantiate ys c args').form = (Ty.instantiate xs b args).form.rename x y := by
  obtain ⟨tidyArgs, tidyArgs', form, -⟩ := forall₂_renamed.mp all
  obtain ⟨sameLength, bodies⟩ := forAll_bodies h
  rw [form_instantiate h.tidy length,
    form_instantiate h.tidy' (sameLength.trans (length.trans all.length_eq)),
    Form.rename_fill, bodies]
  exact congrArg (Form.fill · _) (funext (argument_rename form))

theorem instantiate {xs ys : List String} {b c : Ty} {args args' : List Ty}
    (h : Renamed x y (Ty.forAll xs b) (Ty.forAll ys c)) (all : List.Forall₂ (Renamed x y) args args')
    (length : xs.length = args.length) :
    Renamed x y (Ty.instantiate xs b args) (Ty.instantiate ys c args') := by
  obtain ⟨tidyArgs, tidyArgs', -⟩ := forall₂_renamed.mp all
  have back : List.Forall₂ (Renamed y x) args' args := all.flip.imp fun _ _ => symm
  obtain ⟨sameLength, -⟩ := forAll_bodies h
  exact ⟨tidy_instantiate (tidy_forAll.mp h.tidy).2 tidyArgs,
    tidy_instantiate (tidy_forAll.mp h.tidy').2 tidyArgs',
    form_instantiate_rename h all length,
    form_instantiate_rename h.symm back (sameLength.trans (length.trans all.length_eq))⟩

end Operations

section Merging

theorem any_label {R : α → β → Prop} {fs : List (String × α)} {gs : List (String × β)}
    (related : List.Forall₂ (Labelled R) fs gs) (l : String) :
    fs.any (·.1 == l) = gs.any (·.1 == l) := by
  induction related with
  | nil => rfl
  | cons first _ ih => rw [List.any_cons, List.any_cons, first.1, ih]

theorem mergeAlternatives {R : Option Ty → Option Ty → Prop} {fs fs' gs gs' : List (String × Option Ty)}
    (first : List.Forall₂ (Labelled R) fs fs') (second : List.Forall₂ (Labelled R) gs gs') :
    List.Forall₂ (Labelled R) (Ty.mergeAlternatives fs gs) (Ty.mergeAlternatives fs' gs') := by
  unfold Ty.mergeAlternatives
  induction second generalizing fs fs' with
  | nil => exact first
  | @cons g g' gs gs' one _ ih =>
    rw [List.foldl_cons, List.foldl_cons]
    apply ih
    rw [any_label first g.1, one.1]
    split
    · exact first
    · exact List.rel_append first (.cons one .nil)

mutual

theorem merge {t u t' u' : Ty} (first : Renamed x y t u) (second : Renamed x y t' u') :
    Renamed x y (t.merge t') (u.merge u') := by
  rw [merge.eq_def t, merge.eq_def u, first.isError, second.isError, first.isWildcard, second.isWildcard]
  split
  · exact constant .error
  split
  · exact second
  split
  · exact first
  have whole := first
  cases first.shape with
  | sum left right =>
    cases second.shape with
    | sum left' right' => exact sum_iff.mpr ⟨left.merge left', right.merge right'⟩
    | constant c => cases c <;> exact whole
    | _ => exact whole
  | list element =>
    cases second.shape with
    | list element' => exact list_iff.mpr (element.merge element')
    | constant c => cases c <;> exact whole
    | _ => exact whole
  | ref referent =>
    cases second.shape with
    | ref referent' => exact ref_iff.mpr (referent.merge referent')
    | constant c => cases c <;> exact whole
    | _ => exact whole
  | tuple elements =>
    cases second.shape with
    | tuple elements' =>
      dsimp only
      rw [← elements.length_eq, ← elements'.length_eq]
      split
      · exact tuple_iff.mpr (mergeAll elements elements')
      · exact whole
    | constant c => cases c <;> exact whole
    | _ => exact whole
  | arrow params result =>
    cases second.shape with
    | arrow params' result' =>
      dsimp only
      rw [← params.length_eq, ← params'.length_eq]
      split
      · exact arrow_iff.mpr ⟨mergeAll params params', result.merge result'⟩
      · exact whole
    | constant c => cases c <;> exact whole
    | _ => exact whole
  | variant payloads =>
    cases second.shape with
    | variant payloads' => exact variant_iff.mpr (mergeAlternatives payloads payloads')
    | constant c => cases c <;> exact whole
    | _ => exact whole
  | constant c => cases c <;> exact whole
  | _ => exact whole
termination_by t.size
decreasing_by all_goals (subst_vars; simp only [size]; omega)

theorem mergeAll {ts us ts' us' : List Ty} (first : List.Forall₂ (Renamed x y) ts us)
    (second : List.Forall₂ (Renamed x y) ts' us') :
    List.Forall₂ (Renamed x y) (Ty.mergeAll ts ts') (Ty.mergeAll us us') := by
  match first, second with
  | .nil, _ => exact .nil
  | .cons _ _, .nil => exact .nil
  | .cons one rest, .cons one' rest' => exact .cons (one.merge one') (mergeAll rest rest')
termination_by sizes ts
decreasing_by all_goals (simp only [sizes]; omega)

end

end Merging

end Renamed

end Ty

end StellaLang
