import StellaLang.Proofs.Ty.Blurring

/-! Types with errors in place of some parts. What the checker computes from such types is what it
computes from the whole ones, again with errors in place of some parts, and what conforms still
conforms. So the relation goes through every step that a type can take. -/
namespace StellaLang

open Ty (Labelled)

namespace Form

/-- The second form is the first one with errors in place of some parts. -/
inductive Spoilt : Form → Form → Prop where
  | error (f : Form) : Spoilt f (constant .error)
  | constant (c : Constant) : Spoilt (constant c) (constant c)
  | var (v : Var) : Spoilt (var v) (var v)
  | arrow (params : List.Forall₂ Spoilt ps qs) (result : Spoilt r s) : Spoilt (arrow ps r) (arrow qs s)
  | forAll (n : Nat) (bodies : Spoilt b c) : Spoilt (forAll n b) (forAll n c)
  | tuple (elements : List.Forall₂ Spoilt ts us) : Spoilt (tuple ts) (tuple us)
  | sum (left : Spoilt l l') (right : Spoilt r r') : Spoilt (sum l r) (sum l' r')
  | record (labels : fs.map (·.1) = gs.map (·.1))
      (fields : List.Forall₂ Spoilt (fs.map (·.2)) (gs.map (·.2))) : Spoilt (record fs) (record gs)
  | variant (labels : fs.map (·.1) = gs.map (·.1))
      (payloads : List.Forall₂ (Option.Rel Spoilt) (fs.map (·.2)) (gs.map (·.2))) :
      Spoilt (variant fs) (variant gs)
  | list (element : Spoilt t u) : Spoilt (list t) (list u)
  | ref (referent : Spoilt t u) : Spoilt (ref t) (ref u)
  | recursive (bodies : Spoilt b c) : Spoilt (recursive b) (recursive c)

namespace Spoilt

variable {f g : Form}

theorem of_fields {fs gs : List (String × Form)} (fields : List.Forall₂ (Labelled Spoilt) fs gs) :
    Spoilt (Form.record fs) (Form.record gs) := by
  obtain ⟨labels, values⟩ := forall₂_labelled_iff.mp fields
  exact record labels values

theorem of_payloads {fs gs : List (String × Option Form)}
    (payloads : List.Forall₂ (Labelled (Option.Rel Spoilt)) fs gs) :
    Spoilt (Form.variant fs) (Form.variant gs) := by
  obtain ⟨labels, values⟩ := forall₂_labelled_iff.mp payloads
  exact variant labels values

theorem of_forAll {m n : Nat} {b c : Form} (h : Spoilt (Form.forAll m b) (Form.forAll n c)) :
    m = n ∧ Spoilt b c := by
  cases h with
  | forAll _ bodies => exact ⟨rfl, bodies⟩

/-- Errors are constants that hide. -/
theorem iff_blurred : Spoilt f g ↔ Blurred (· = .error) f g := by
  constructor
  · intro h
    induction f using induct generalizing g with
    | constant c =>
      cases h with
      | error => exact .hidden _ rfl
      | constant => exact .constant c
    | var v =>
      cases h with
      | error => exact .hidden _ rfl
      | var => exact .var v
    | arrow ps r params result =>
      cases h with
      | error => exact .hidden _ rfl
      | arrow first second =>
        obtain ⟨length, first⟩ := List.forall₂_iff_zip.mp first
        exact .arrow length (fun p q member => params p (List.of_mem_zip member).1 (first member)) (result second)
    | forAll n b body =>
      cases h with
      | error => exact .hidden _ rfl
      | forAll _ bodies => exact .forAll n (body bodies)
    | tuple ts elements =>
      cases h with
      | error => exact .hidden _ rfl
      | tuple each =>
        obtain ⟨length, each⟩ := List.forall₂_iff_zip.mp each
        exact .tuple length fun t u member => elements t (List.of_mem_zip member).1 (each member)
    | sum l r left right =>
      cases h with
      | error => exact .hidden _ rfl
      | sum first second => exact .sum (left first) (right second)
    | record fs fields =>
      cases h with
      | error => exact .hidden _ rfl
      | record labels values =>
        obtain ⟨-, each⟩ := forall₂_labelled_iff_zip.mp (forall₂_labelled_iff.mpr ⟨labels, values⟩)
        refine .record labels fun l t m u member => ?_
        exact fields l t (List.of_mem_zip member).1 (each l t m u member)
    | variant fs payloads =>
      cases h with
      | error => exact .hidden _ rfl
      | variant labels values =>
        obtain ⟨-, present, each⟩ := forall₂_alternatives_iff.mp (forall₂_labelled_iff.mpr ⟨labels, values⟩)
        refine .variant labels present fun l t m u member => ?_
        exact payloads l t (List.of_mem_zip member).1 (each l t m u member)
    | list t element =>
      cases h with
      | error => exact .hidden _ rfl
      | list inner => exact .list (element inner)
    | ref t referent =>
      cases h with
      | error => exact .hidden _ rfl
      | ref inner => exact .ref (referent inner)
    | recursive b body =>
      cases h with
      | error => exact .hidden _ rfl
      | recursive bodies => exact .recursive (body bodies)
  · intro h
    induction h with
    | hidden f chosen =>
      obtain rfl := chosen
      exact error f
    | constant c => exact constant c
    | var v => exact var v
    | arrow length _ _ params result => exact arrow (List.forall₂_iff_zip.mpr ⟨length, params _ _⟩) result
    | forAll n _ bodies => exact forAll n bodies
    | tuple length _ elements => exact tuple (List.forall₂_iff_zip.mpr ⟨length, elements _ _⟩)
    | sum _ _ left right => exact sum left right
    | record labels _ fields => exact of_fields (forall₂_labelled_iff_zip.mpr ⟨labels, fields⟩)
    | variant labels present _ payloads =>
      exact of_payloads (forall₂_alternatives_iff.mpr ⟨labels, present, payloads⟩)
    | list _ element => exact list element
    | ref _ referent => exact ref referent
    | recursive _ bodies => exact recursive bodies

/-- Variables are replaced on both sides. -/
theorem replace {σ τ : Nat → Var → Form} (put : ∀ d v, Spoilt (σ d v) (τ d v)) (h : Spoilt f g) (d : Nat) :
    Spoilt (f.replace σ d) (g.replace τ d) := by
  rw [iff_blurred] at h ⊢
  exact h.replace (fun d v => iff_blurred.mp (put d v)) d

theorem refl (f : Form) : Spoilt f f :=
  iff_blurred.mpr (.refl f)

theorem close (position : String → Option Nat) (h : Spoilt f g) :
    Spoilt (f.close position) (g.close position) :=
  h.replace (fun _ _ => refl _) 0

theorem fill {u v : Nat → Form} (put : ∀ i, Spoilt (u i) (v i)) (h : Spoilt f g) :
    Spoilt (f.fill u) (g.fill v) := by
  refine h.replace (fun d w => ?_) 0
  cases w with
  | free x => exact var _
  | bound k i =>
    by_cases here : k = d
    · simpa only [filling, if_pos here] using put i
    · simpa only [filling, if_neg here] using var (.bound k i)

end Spoilt

/-- What conforms still conforms with errors in place of some parts. -/
theorem Conforms.spoilt {subtyping : Bool} {f g f' g' : Form} (h : Conforms subtyping f g)
    (first : Spoilt f f') (second : Spoilt g g') : Conforms subtyping f' g' := by
  refine h.blurred (fun c wild => ?_) (Spoilt.iff_blurred.mp first) (Spoilt.iff_blurred.mp second)
  rw [wild, isWildcard]

end Form

namespace Ty

/-- The second type is the first one with errors in place of some parts, and both are tidy. -/
structure Spoilt (t u : Ty) : Prop where
  tidy : t.Tidy
  tidy' : u.Tidy
  form : t.form.Spoilt u.form

theorem spoilt_iff {t u : Ty} : Spoilt t u ↔ t.Tidy ∧ u.Tidy ∧ t.form.Spoilt u.form :=
  ⟨fun ⟨tidy, tidy', form⟩ => ⟨tidy, tidy', form⟩, fun ⟨tidy, tidy', form⟩ => ⟨tidy, tidy', form⟩⟩

section Lists

/-- A relation that asks something of each side besides, over two lists. -/
theorem forall₂_tidy_iff {R S : α → β → Prop} {P : α → Prop} {Q : β → Prop}
    (each : ∀ a b, R a b ↔ P a ∧ Q b ∧ S a b) {as : List α} {bs : List β} :
    List.Forall₂ R as bs ↔ (∀ a ∈ as, P a) ∧ (∀ b ∈ bs, Q b) ∧ List.Forall₂ S as bs := by
  induction as generalizing bs with
  | nil => cases bs <;> simp
  | cons a as ih =>
    cases bs with
    | nil => simp
    | cons b bs =>
      simp only [List.forall₂_cons, each, ih, List.forall_mem_cons]
      tauto

theorem forall₂_spoilt {ts us : List Ty} : List.Forall₂ Spoilt ts us ↔
    (∀ t ∈ ts, t.Tidy) ∧ (∀ u ∈ us, u.Tidy) ∧
      List.Forall₂ Form.Spoilt (ts.map Ty.form) (us.map Ty.form) := by
  rw [List.forall₂_map_left_iff, List.forall₂_map_right_iff]
  refine forall₂_tidy_iff fun t u => ?_
  exact spoilt_iff

theorem forall₂_spoilt_fields {fs gs : List (String × Ty)} :
    List.Forall₂ (Labelled Spoilt) fs gs ↔
      (∀ f ∈ fs, f.2.Tidy) ∧ (∀ g ∈ gs, g.2.Tidy) ∧
        List.Forall₂ (Labelled Form.Spoilt) (fs.map fun (l, t) => (l, t.form))
          (gs.map fun (l, u) => (l, u.form)) := by
  rw [List.forall₂_map_left_iff, List.forall₂_map_right_iff]
  refine forall₂_tidy_iff fun f g => ?_
  simp only [Labelled, spoilt_iff]
  tauto

theorem rel_spoilt {p q : Option Ty} : Option.Rel Spoilt p q ↔
    (∀ t, p = some t → t.Tidy) ∧ (∀ u, q = some u → u.Tidy) ∧
      Option.Rel Form.Spoilt (p.map Ty.form) (q.map Ty.form) := by
  cases p with
  | none => cases q <;> simp
  | some t =>
    cases q with
    | none => simp
    | some u => simp [spoilt_iff]

theorem forall₂_spoilt_alternatives {fs gs : List (String × Option Ty)} :
    List.Forall₂ (Labelled (Option.Rel Spoilt)) fs gs ↔
      (∀ f ∈ fs, ∀ t, f.2 = some t → t.Tidy) ∧ (∀ g ∈ gs, ∀ u, g.2 = some u → u.Tidy) ∧
        List.Forall₂ (Labelled (Option.Rel Form.Spoilt)) (fs.map fun (l, p) => (l, p.map Ty.form))
          (gs.map fun (l, q) => (l, q.map Ty.form)) := by
  rw [List.forall₂_map_left_iff, List.forall₂_map_right_iff]
  refine forall₂_tidy_iff fun f g => ?_
  simp only [Labelled, rel_spoilt]
  tauto

end Lists

namespace Spoilt

variable {t u l r l' r' : Ty}

theorem refl {t : Ty} (tidy : t.Tidy) : Spoilt t t :=
  ⟨tidy, tidy, .refl t.form⟩

theorem error {t : Ty} (tidy : t.Tidy) : Spoilt t .error :=
  ⟨tidy, by decide, .error t.form⟩

theorem arrow_iff {ps qs : List Ty} {r s : Ty} :
    Spoilt (arrow ps r) (arrow qs s) ↔ List.Forall₂ Spoilt ps qs ∧ Spoilt r s := by
  have forms : Form.Spoilt (Form.arrow (ps.map Ty.form) r.form) (Form.arrow (qs.map Ty.form) s.form) ↔
      List.Forall₂ Form.Spoilt (ps.map Ty.form) (qs.map Ty.form) ∧ r.form.Spoilt s.form := by
    constructor
    · rintro ⟨⟩
      exact ⟨‹_›, ‹_›⟩
    · exact fun ⟨params, result⟩ => .arrow params result
  simp only [forall₂_spoilt, spoilt_iff, tidy_arrow, form_arrow, forms]
  tauto

theorem tuple_iff {ts us : List Ty} : Spoilt (tuple ts) (tuple us) ↔ List.Forall₂ Spoilt ts us := by
  have forms : Form.Spoilt (Form.tuple (ts.map Ty.form)) (Form.tuple (us.map Ty.form)) ↔
      List.Forall₂ Form.Spoilt (ts.map Ty.form) (us.map Ty.form) := by
    constructor
    · rintro ⟨⟩
      assumption
    · exact .tuple
  simp only [forall₂_spoilt, spoilt_iff, tidy_tuple, form_tuple, forms]

theorem sum_iff : Spoilt (sum l r) (sum l' r') ↔ Spoilt l l' ∧ Spoilt r r' := by
  have forms : Form.Spoilt (Form.sum l.form r.form) (Form.sum l'.form r'.form) ↔
      l.form.Spoilt l'.form ∧ r.form.Spoilt r'.form := by
    constructor
    · rintro ⟨⟩
      exact ⟨‹_›, ‹_›⟩
    · exact fun ⟨left, right⟩ => .sum left right
  simp only [spoilt_iff, tidy_sum, Ty.form, forms]
  tauto

theorem record_iff {fs gs : List (String × Ty)} :
    Spoilt (record fs) (record gs) ↔ List.Forall₂ (Labelled Spoilt) fs gs := by
  have forms : Form.Spoilt (Form.record (fs.map fun (l, t) => (l, t.form)))
      (Form.record (gs.map fun (l, u) => (l, u.form))) ↔
      List.Forall₂ (Labelled Form.Spoilt) (fs.map fun (l, t) => (l, t.form))
        (gs.map fun (l, u) => (l, u.form)) := by
    constructor
    · rintro ⟨⟩
      exact forall₂_labelled_iff.mpr ⟨‹_›, ‹_›⟩
    · exact .of_fields
  simp only [forall₂_spoilt_fields, spoilt_iff, tidy_record, form_record, forms, Prod.forall]

theorem variant_iff {fs gs : List (String × Option Ty)} :
    Spoilt (variant fs) (variant gs) ↔ List.Forall₂ (Labelled (Option.Rel Spoilt)) fs gs := by
  have forms : Form.Spoilt (Form.variant (fs.map fun (l, p) => (l, p.map Ty.form)))
      (Form.variant (gs.map fun (l, q) => (l, q.map Ty.form))) ↔
      List.Forall₂ (Labelled (Option.Rel Form.Spoilt)) (fs.map fun (l, p) => (l, p.map Ty.form))
        (gs.map fun (l, q) => (l, q.map Ty.form)) := by
    constructor
    · rintro ⟨⟩
      exact forall₂_labelled_iff.mpr ⟨‹_›, ‹_›⟩
    · exact .of_payloads
  simp only [forall₂_spoilt_alternatives, spoilt_iff, tidy_variant_iff, form_variant, forms]

theorem list_iff : Spoilt (list t) (list u) ↔ Spoilt t u := by
  have forms : Form.Spoilt (Form.list t.form) (Form.list u.form) ↔ t.form.Spoilt u.form := by
    constructor
    · rintro ⟨⟩
      assumption
    · exact .list
  simp only [spoilt_iff, tidy_list, Ty.form, forms]

theorem ref_iff : Spoilt (ref t) (ref u) ↔ Spoilt t u := by
  have forms : Form.Spoilt (Form.ref t.form) (Form.ref u.form) ↔ t.form.Spoilt u.form := by
    constructor
    · rintro ⟨⟩
      assumption
    · exact .ref
  simp only [spoilt_iff, tidy_ref, Ty.form, forms]

/-- Types without parts. -/
theorem constant (c : Form.Constant) : Spoilt (ofConstant c) (ofConstant c) :=
  refl (by cases c <;> decide)

end Spoilt

/-- An error, or two types with one outermost constructor and spoilt parts. -/
inductive SpoiltShape : Ty → Ty → Prop where
  | error : SpoiltShape t error
  | constant (c : Form.Constant) : SpoiltShape (ofConstant c) (ofConstant c)
  | var (x : String) : SpoiltShape (var x) (var x)
  | arrow (params : List.Forall₂ Spoilt ps qs) (result : Spoilt r s) :
      SpoiltShape (arrow ps r) (arrow qs s)
  | forAll (length : xs.length = ys.length) : SpoiltShape (forAll xs b) (forAll ys c)
  | tuple (elements : List.Forall₂ Spoilt ts us) : SpoiltShape (tuple ts) (tuple us)
  | sum (left : Spoilt l l') (right : Spoilt r r') : SpoiltShape (sum l r) (sum l' r')
  | record (fields : List.Forall₂ (Labelled Spoilt) fs gs) : SpoiltShape (record fs) (record gs)
  | variant (payloads : List.Forall₂ (Labelled (Option.Rel Spoilt)) fs gs) :
      SpoiltShape (variant fs) (variant gs)
  | list {t u : Ty} (element : Spoilt t u) : SpoiltShape (list t) (list u)
  | ref {t u : Ty} (referent : Spoilt t u) : SpoiltShape (ref t) (ref u)
  | recursive (x y : String) : SpoiltShape (recursive x b) (recursive y c)

namespace Spoilt

variable {t u t' u' : Ty}

theorem shape (h : Spoilt t u) : SpoiltShape t u := by
  have whole := h
  obtain ⟨-, -, form⟩ := h
  generalize first : t.form = f at form
  generalize second : u.form = g at form
  cases form with
  | error =>
    obtain rfl := form_eq_constant second
    exact .error
  | constant c =>
    obtain rfl := form_eq_constant first
    obtain rfl := form_eq_constant second
    exact .constant c
  | var v =>
    cases v with
    | bound => exact absurd first form_ne_bound
    | free x =>
      obtain rfl := form_eq_var first
      obtain rfl := form_eq_var second
      exact .var x
  | arrow =>
    obtain ⟨ps, r, rfl, rfl, rfl⟩ := form_eq_arrow first
    obtain ⟨qs, s, rfl, rfl, rfl⟩ := form_eq_arrow second
    obtain ⟨params, result⟩ := arrow_iff.mp whole
    exact .arrow params result
  | forAll =>
    obtain ⟨xs, b, rfl, length, rfl⟩ := form_eq_forAll first
    obtain ⟨ys, c, rfl, length', rfl⟩ := form_eq_forAll second
    exact .forAll (length.trans length'.symm)
  | tuple =>
    obtain ⟨ts, rfl, rfl⟩ := form_eq_tuple first
    obtain ⟨us, rfl, rfl⟩ := form_eq_tuple second
    exact .tuple (tuple_iff.mp whole)
  | sum =>
    obtain ⟨l, r, rfl, rfl, rfl⟩ := form_eq_sum first
    obtain ⟨l', r', rfl, rfl, rfl⟩ := form_eq_sum second
    obtain ⟨left, right⟩ := sum_iff.mp whole
    exact .sum left right
  | record =>
    obtain ⟨fs, rfl, rfl⟩ := form_eq_record first
    obtain ⟨gs, rfl, rfl⟩ := form_eq_record second
    exact .record (record_iff.mp whole)
  | variant =>
    obtain ⟨fs, rfl, rfl⟩ := form_eq_variant first
    obtain ⟨gs, rfl, rfl⟩ := form_eq_variant second
    exact .variant (variant_iff.mp whole)
  | list =>
    obtain ⟨e, rfl, rfl⟩ := form_eq_list first
    obtain ⟨e', rfl, rfl⟩ := form_eq_list second
    exact .list (list_iff.mp whole)
  | ref =>
    obtain ⟨e, rfl, rfl⟩ := form_eq_ref first
    obtain ⟨e', rfl, rfl⟩ := form_eq_ref second
    exact .ref (ref_iff.mp whole)
  | recursive =>
    obtain ⟨x, b, rfl, rfl⟩ := form_eq_recursive first
    obtain ⟨y, c, rfl, rfl⟩ := form_eq_recursive second
    exact .recursive x y

/-- What is no error now was none, and is known just as far as it was. -/
theorem of_sound (h : Spoilt t u) (sound : u.isError = false) :
    t.isError = false ∧ u.isWildcard = t.isWildcard := by
  cases h.shape with
  | error => contradiction
  | constant c => exact ⟨sound, rfl⟩
  | _ => exact ⟨rfl, rfl⟩

theorem of_constant {c : Form.Constant} (h : Spoilt (ofConstant c) u) : u = ofConstant c ∨ u = Ty.error := by
  have form := h.form
  have whole : (ofConstant c).form = .constant c := by cases c <;> rfl
  rw [whole] at form
  generalize same : u.form = g at form
  cases form with
  | error => exact .inr (form_eq_constant same)
  | constant => exact .inl (form_eq_constant same)

section Operations

theorem conforms {subtyping : Bool} (first : Spoilt t u) (second : Spoilt t' u')
    (h : Ty.conforms subtyping t t' = true) : Ty.conforms subtyping u u' = true := by
  rw [conforms_iff_form first.tidy second.tidy] at h
  rw [conforms_iff_form first.tidy' second.tidy']
  exact h.spoilt first.form second.form

theorem castableTo (first : Spoilt t u) (second : Spoilt t' u') (h : t.castableTo t' = true) :
    u.castableTo u' = true := by
  rw [Ty.castableTo, Bool.or_eq_true_iff] at h ⊢
  exact h.imp (conforms first second) (conforms second first)

theorem forAll {xs : List String} (separate : Separate xs) (h : Spoilt t u) :
    Spoilt (Ty.forAll xs t) (Ty.forAll xs u) where
  tidy := tidy_forAll.mpr ⟨separate, h.tidy⟩
  tidy' := tidy_forAll.mpr ⟨separate, h.tidy'⟩
  form := .forAll _ (h.form.close (places xs))

theorem instantiate {xs ys : List String} {b c : Ty} {args args' : List Ty}
    (h : Spoilt (Ty.forAll xs b) (Ty.forAll ys c)) (all : List.Forall₂ Spoilt args args')
    (length : xs.length = args.length) :
    Spoilt (Ty.instantiate xs b args) (Ty.instantiate ys c args') := by
  obtain ⟨tidyArgs, tidyArgs', forms⟩ := forall₂_spoilt.mp all
  obtain ⟨sameLength, bodies⟩ : xs.length = ys.length ∧
      (b.form.close (places xs)).Spoilt (c.form.close (places ys)) := Form.Spoilt.of_forAll h.form
  refine ⟨tidy_instantiate (tidy_forAll.mp h.tidy).2 tidyArgs,
    tidy_instantiate (tidy_forAll.mp h.tidy').2 tidyArgs', ?_⟩
  rw [form_instantiate h.tidy length,
    form_instantiate h.tidy' (sameLength.symm.trans (length.trans all.length_eq))]
  refine bodies.fill fun i => ?_
  have one := rel_getElem? forms i
  rw [argument, argument, List.getD_eq_getElem?_getD, List.getD_eq_getElem?_getD]
  generalize (args.map Ty.form)[i]? = p, (args'.map Ty.form)[i]? = q at one ⊢
  cases one with
  | none => exact .error _
  | some one => exact one

end Operations

section Merging

theorem tidy_merge (tidy : t.Tidy) (tidy' : u.Tidy) : (t.merge u).Tidy := by
  intro v part
  exact (parts_merge t u part).elim tidy.of_outlined tidy'.of_outlined

mutual

theorem merge {t u t' u' : Ty} (first : Spoilt t u) (second : Spoilt t' u') :
    Spoilt (t.merge t') (u.merge u') := by
  by_cases spoilt : (u.isError || u'.isError) = true
  · rw [merge.eq_def u, if_pos spoilt]
    exact error (tidy_merge first.tidy second.tidy)
  rw [Bool.not_eq_true, Bool.or_eq_false_iff] at spoilt
  obtain ⟨sound, same⟩ := first.of_sound spoilt.1
  obtain ⟨sound', same'⟩ := second.of_sound spoilt.2
  rw [merge.eq_def t, merge.eq_def u, sound, sound', spoilt.1, spoilt.2, same, same']
  split
  · contradiction
  split
  · exact second
  split
  · exact first
  have whole := first
  cases first.shape with
  | error => cases spoilt.1
  | sum left right =>
    cases second.shape with
    | error => cases spoilt.2
    | sum left' right' => exact sum_iff.mpr ⟨left.merge left', right.merge right'⟩
    | constant c => cases c <;> exact whole
    | _ => exact whole
  | list element =>
    cases second.shape with
    | error => cases spoilt.2
    | list element' => exact list_iff.mpr (element.merge element')
    | constant c => cases c <;> exact whole
    | _ => exact whole
  | ref referent =>
    cases second.shape with
    | error => cases spoilt.2
    | ref referent' => exact ref_iff.mpr (referent.merge referent')
    | constant c => cases c <;> exact whole
    | _ => exact whole
  | tuple elements =>
    cases second.shape with
    | error => cases spoilt.2
    | tuple elements' =>
      dsimp only
      rw [← elements.length_eq, ← elements'.length_eq]
      split
      · exact tuple_iff.mpr (mergeAll elements elements')
      · exact whole
    | constant c => cases c <;> exact whole
    | _ => exact whole
  | arrow params result =>
    cases second.shape with
    | error => cases spoilt.2
    | arrow params' result' =>
      dsimp only
      rw [← params.length_eq, ← params'.length_eq]
      split
      · exact arrow_iff.mpr ⟨mergeAll params params', result.merge result'⟩
      · exact whole
    | constant c => cases c <;> exact whole
    | _ => exact whole
  | variant payloads =>
    cases second.shape with
    | error => cases spoilt.2
    | variant payloads' => exact variant_iff.mpr (Renamed.mergeAlternatives payloads payloads')
    | constant c => cases c <;> exact whole
    | _ => exact whole
  | constant c => cases c <;> exact whole
  | _ => exact whole
termination_by t.size
decreasing_by all_goals (subst_vars; simp only [size]; omega)

theorem mergeAll {ts us ts' us' : List Ty} (first : List.Forall₂ Spoilt ts us)
    (second : List.Forall₂ Spoilt ts' us') :
    List.Forall₂ Spoilt (Ty.mergeAll ts ts') (Ty.mergeAll us us') := by
  match first, second with
  | .nil, _ => exact .nil
  | .cons _ _, .nil => exact .nil
  | .cons one rest, .cons one' rest' => exact .cons (one.merge one') (mergeAll rest rest')
termination_by sizes ts
decreasing_by all_goals (simp only [sizes]; omega)

end

end Merging

end Spoilt

end Ty

end StellaLang
