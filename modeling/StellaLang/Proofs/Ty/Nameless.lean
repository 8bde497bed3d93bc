import StellaLang.Proofs.Ty.Form
import StellaLang.Proofs.Ty.Parts

/-! The form of a type, in which bound names are gone, and what putting a binder around a form does
to its variables. -/
namespace StellaLang

namespace Form

/-- Takes free names as variables of a binder to be put around the form, where they have a
position. -/
def closing (position : String → Option Nat) (d : Nat) : Var → Form
  | .free x =>
    match position x with
    | some i => var (.bound d i)
    | none => var (.free x)
  | v => var v

def close (position : String → Option Nat) (f : Form) : Form :=
  f.replace (closing position) 0

/-- Puts a form in for a free name. -/
def putting (x : String) (s : Form) (_ : Nat) (v : Var) : Form :=
  if v = .free x then s else var v

def subst (f : Form) (x : String) (s : Form) : Form :=
  f.replace (putting x s) 0

/-- What is put in has no bound variables of its own to shift. -/
theorem replace_putting (f : Form) (x : String) (s : Form) (n : Nat) :
    f.replace (putting x s) n = f.subst x s := by
  have moved := replace_add (putting x s) f 0 n
  rwa [Nat.zero_add] at moved

section Shapes

variable (x : String) (s : Form)

@[simp] theorem subst_var (v : Var) : (var v).subst x s = if v = .free x then s else var v := rfl

@[simp] theorem subst_arrow (ps : List Form) (r : Form) :
    (arrow ps r).subst x s = arrow (ps.map (·.subst x s)) (r.subst x s) :=
  replace_arrow ..

@[simp] theorem subst_tuple (ts : List Form) : (tuple ts).subst x s = tuple (ts.map (·.subst x s)) :=
  replace_tuple ..

@[simp] theorem subst_sum (l r : Form) : (sum l r).subst x s = sum (l.subst x s) (r.subst x s) := rfl

@[simp] theorem subst_record (fs : List (String × Form)) :
    (record fs).subst x s = record (fs.map fun (l, t) => (l, t.subst x s)) :=
  replace_record ..

@[simp] theorem subst_variant (fs : List (String × Option Form)) :
    (variant fs).subst x s = variant (fs.map fun (l, t) => (l, t.map (·.subst x s))) :=
  replace_variant ..

@[simp] theorem subst_list (t : Form) : (list t).subst x s = list (t.subst x s) := rfl

@[simp] theorem subst_ref (t : Form) : (ref t).subst x s = ref (t.subst x s) := rfl

@[simp] theorem subst_forAll (n : Nat) (b : Form) :
    (forAll n b).subst x s = forAll n (b.subst x s) := by
  rw [subst, replace_forAll, replace_putting]

@[simp] theorem subst_recursive (b : Form) : (recursive b).subst x s = recursive (b.subst x s) := by
  rw [subst, replace_recursive, replace_putting]

end Shapes

/-- Puts forms in for the variables of the binder that was around the form. -/
def filling (u : Nat → Form) (d : Nat) : Var → Form
  | .bound k i => if k = d then u i else var (.bound k i)
  | v => var v

def fill (u : Nat → Form) (f : Form) : Form :=
  f.replace (filling u) 0

end Form

/-- The positions of names in a list; of equal names the first counts. -/
def places (xs : List String) (x : String) : Option Nat :=
  xs.idxOf? x

theorem places_eq_none {xs : List String} {x : String} : places xs x = none ↔ x ∉ xs :=
  List.idxOf?_eq_none_iff

theorem places_cons (x : String) (xs : List String) (y : String) :
    places (x :: xs) y = if x = y then some 0 else (places xs y).map (· + 1) := by
  simp only [places, List.idxOf?_cons, beq_iff_eq]

namespace Ty

mutual

/-- The type without bound names. -/
def form : Ty → Form
  | bool => .constant .bool
  | nat => .constant .nat
  | unit => .constant .unit
  | top => .constant .top
  | bottom => .constant .bottom
  | var x => .var (.free x)
  | arrow ps r => .arrow (formAll ps) r.form
  | forAll xs b => .forAll xs.length (b.form.close (places xs))
  | tuple ts => .tuple (formAll ts)
  | sum l r => .sum l.form r.form
  | record fs => .record (formFields fs)
  | variant fs => .variant (formAlternatives fs)
  | list t => .list t.form
  | ref t => .ref t.form
  | recursive x b => .recursive (b.form.close (places [x]))
  | never => .constant .never
  | unknown => .constant .unknown
  | error => .constant .error

def formAll : List Ty → List Form
  | [] => []
  | t :: ts => t.form :: formAll ts

def formFields : List (String × Ty) → List (String × Form)
  | [] => []
  | (l, t) :: fs => (l, t.form) :: formFields fs

def formAlternatives : List (String × Option Ty) → List (String × Option Form)
  | [] => []
  | (l, none) :: fs => (l, none) :: formAlternatives fs
  | (l, some t) :: fs => (l, some t.form) :: formAlternatives fs

end

theorem formAll_eq (ts : List Ty) : formAll ts = ts.map form := by
  induction ts with
  | nil => rfl
  | cons t ts ih => exact congrArg (t.form :: ·) ih

theorem formFields_eq (fs : List (String × Ty)) : formFields fs = fs.map fun (l, t) => (l, t.form) := by
  induction fs with
  | nil => rfl
  | cons f fs ih => exact congrArg ((f.1, f.2.form) :: ·) ih

theorem formAlternatives_eq (fs : List (String × Option Ty)) :
    formAlternatives fs = fs.map fun (l, t) => (l, t.map form) := by
  induction fs with
  | nil => rfl
  | cons f fs ih =>
    obtain ⟨l, _ | t⟩ := f
    · exact congrArg ((l, none) :: ·) ih
    · exact congrArg ((l, some t.form) :: ·) ih

@[simp] theorem form_arrow (ps : List Ty) (r : Ty) : (arrow ps r).form = .arrow (ps.map form) r.form :=
  congrArg (Form.arrow · r.form) (formAll_eq ps)

@[simp] theorem form_tuple (ts : List Ty) : (tuple ts).form = .tuple (ts.map form) :=
  congrArg Form.tuple (formAll_eq ts)

@[simp] theorem form_record (fs : List (String × Ty)) :
    (record fs).form = .record (fs.map fun (l, t) => (l, t.form)) :=
  congrArg Form.record (formFields_eq fs)

@[simp] theorem form_variant (fs : List (String × Option Ty)) :
    (variant fs).form = .variant (fs.map fun (l, t) => (l, t.map form)) :=
  congrArg Form.variant (formAlternatives_eq fs)

section Own

/-- The names of a type that are free in its form, and no binder outside of it. -/
def Own (t : Ty) (d : Nat) (v : Form.Var) : Prop :=
  (∃ x ∈ t.freeNames, v = .free x) ∨ ∃ k i, k < d ∧ v = .bound k i

variable {t u : Ty} {d : Nat} {v : Form.Var}

theorem Own.of_subset (inside : t.freeNames ⊆ u.freeNames) (own : t.Own d v) : u.Own d v :=
  own.imp_left fun ⟨x, free, same⟩ => ⟨x, inside free, same⟩

/-- A binder takes the names it has a position for away. -/
theorem Own.of_body {b : Ty} {position : String → Option Nat}
    (body : ∀ k w, (k, w) ∈ b.form.vars 0 → b.Own k w)
    (bound : ∀ x ∈ b.freeNames, position x = none → x ∈ t.freeNames)
    (inside : (d, v) ∈ (b.form.close position).vars 1) : t.Own d v := by
  obtain ⟨j, rfl, below⟩ := Form.mem_vars_succ.mp inside
  obtain ⟨k, w, found, rest⟩ := (Form.mem_vars_replace _).mp below
  rcases body k w found with ⟨x, free, rfl⟩ | ⟨i, p, less, rfl⟩
  · unfold Form.closing at rest
    cases placed : position x with
    | none =>
      obtain ⟨rfl, rfl⟩ : j = k ∧ v = .free x := by simpa [placed, Form.vars] using rest
      exact .inl ⟨x, bound x free placed, rfl⟩
    | some i =>
      obtain ⟨rfl, rfl⟩ : j = k ∧ v = .bound k i := by simpa [placed, Form.vars] using rest
      exact .inr ⟨j, i, Nat.lt_succ_self j, rfl⟩
  · obtain ⟨rfl, rfl⟩ : j = k ∧ v = .bound i p := by simpa [Form.closing, Form.vars] using rest
    exact .inr ⟨i, p, Nat.lt_succ_of_lt less, rfl⟩

theorem mem_vars_iff (none : t.scopeless = true) {n : Nat} {w : Nat × Form.Var} :
    w ∈ t.form.vars n ↔ ∃ c ∈ t.components, w ∈ c.form.vars n := by
  cases t with
  | var | forAll | recursive => contradiction
  | arrow ps r => simp [Form.vars, components, Form.mem_varsAll, or_comm]
  | tuple ts => simp [Form.vars, components, Form.mem_varsAll]
  | sum l r => simp [form, Form.vars, components]
  | record fs =>
    simp only [form_record, Form.vars, Form.mem_varsFields, mem_map_snd, components, mem_types]
    grind
  | variant fs =>
    simp only [form_variant, Form.vars, Form.mem_varsAlternatives, mem_map_snd, components, mem_payloads,
      Option.map_eq_some_iff]
    grind
  | list e | ref e => simp [form, Form.vars, components]
  | _ => simp [form, Form.vars, components]

/-- The variables of a form are its type's own. -/
theorem own (t : Ty) (d : Nat) (v : Form.Var) (inside : (d, v) ∈ t.form.vars 0) : t.Own d v := by
  cases none : t.scopeless with
  | true =>
    obtain ⟨c, member, inside⟩ := (mem_vars_iff none).mp inside
    have smaller := size_lt_of_mem_components member
    exact (own c d v inside).of_subset (freeNames_subset_of_mem_components member)
  | false =>
    cases t with
    | var x =>
      obtain ⟨rfl, rfl⟩ : d = 0 ∧ v = .free x := by simpa [form, Form.vars] using inside
      exact .inl ⟨x, by simp [freeNames], rfl⟩
    | forAll xs b =>
      refine .of_body (own b) (fun x free absent => ?_) inside
      exact List.mem_filter.mpr ⟨free, by simpa using places_eq_none.mp absent⟩
    | recursive x b =>
      refine .of_body (own b) (fun y free absent => ?_) inside
      have other : y ≠ x := List.ne_of_not_mem_cons (places_eq_none.mp absent)
      exact List.mem_filter.mpr ⟨free, by simpa using other⟩
    | _ => contradiction
termination_by t.size
decreasing_by all_goals simp_all only [size] <;> omega

end Own

section Replacement

variable {t b : Ty} {σ τ : Nat → Form.Var → Form} {position : String → Option Nat} {x : String} {s : Ty}

/-- Replacements that agree on a type's free names, and on bound variables, give one form. -/
theorem form_replace_congr (free : ∀ d, ∀ x ∈ t.freeNames, σ d (.free x) = τ d (.free x))
    (bound : ∀ d k i, k < d → σ d (.bound k i) = τ d (.bound k i)) :
    t.form.replace σ 0 = t.form.replace τ 0 := by
  refine Form.replace_congr _ 0 fun d v inside => ?_
  rcases own t d v inside with ⟨x, member, rfl⟩ | ⟨k, i, less, rfl⟩
  · exact free d x member
  · exact bound d k i less

/-- A replacement leaves a form alone that has nothing to replace, below any binders. -/
theorem form_replace_self (n : Nat) (free : ∀ d, ∀ x ∈ t.freeNames, σ d (.free x) = .var (.free x))
    (bound : ∀ d k i, k + n < d → σ d (.bound k i) = .var (.bound k i)) : t.form.replace σ n = t.form := by
  calc
    t.form.replace σ n = t.form.replace (fun j v => σ (j + n) v) 0 := by
      rw [← Form.replace_add, Nat.zero_add]
    _ = t.form.replace (fun _ v => .var v) 0 := by
      refine form_replace_congr (fun d => free (d + n)) fun d k i less => bound (d + n) k i ?_
      omega
    _ = t.form := Form.replace_self _ 0

theorem form_close_of_unplaced (n : Nat) (unplaced : ∀ y ∈ t.freeNames, position y = none) :
    t.form.replace (Form.closing position) n = t.form := by
  refine form_replace_self n (fun d y free => ?_) fun _ _ _ _ => rfl
  rw [Form.closing, unplaced y free]

theorem form_subst_of_not_free (absent : x ∉ t.freeNames) (f : Form) : t.form.subst x f = t.form := by
  refine form_replace_self 0 (fun d y free => ?_) fun _ _ _ _ => by simp [Form.putting]
  have other : y ≠ x := fun same => absent (same ▸ free)
  simp [Form.putting, other]

/-- A binder is put around a form before or after a substitution, as long as it captures no name
of what is put in. -/
theorem close_subst (unplaced : position x = none)
    (captured : (∀ y ∈ s.freeNames, position y = none) ∨ x ∉ b.freeNames) :
    (b.form.subst x s.form).close position = (b.form.close position).subst x s.form := by
  rcases captured with apart | absent
  · unfold Form.subst Form.close
    rw [Form.replace_replace, Form.replace_replace]
    refine form_replace_congr (fun d y free => ?_) fun _ _ _ _ => by simp [Form.putting, Form.closing]
    by_cases same : y = x
    · subst same
      simp [Form.putting, Form.closing, unplaced, form_close_of_unplaced d apart]
    · cases placed : position y with
      | none => simp [Form.putting, Form.closing, placed, same]
      | some i => simp [Form.putting, Form.closing, placed, same]
  · rw [form_subst_of_not_free absent]
    unfold Form.subst Form.close
    rw [Form.replace_replace]
    refine form_replace_congr (fun d y free => ?_) fun _ _ _ _ => by simp [Form.putting, Form.closing]
    have other : y ≠ x := fun same => absent (same ▸ free)
    cases placed : position y with
    | none => simp [Form.putting, Form.closing, placed, other]
    | some i => simp [Form.putting, Form.closing, placed]

/-- Below a binder of the same name nothing is put in. -/
theorem close_subst_of_placed {i : Nat} (placed : position x = some i) (f : Form) :
    (b.form.close position).subst x f = b.form.close position := by
  unfold Form.subst Form.close
  rw [Form.replace_replace]
  refine form_replace_congr (fun d y _ => ?_) fun _ _ _ _ => by simp [Form.putting, Form.closing]
  by_cases same : y = x
  · simp [Form.putting, Form.closing, same, placed]
  · cases found : position y with
    | none => simp [Form.putting, Form.closing, found, same]
    | some j => simp [Form.putting, Form.closing, found]

/-- A new name in the place of another one makes no difference to a form that binds it. -/
theorem close_rename {y z : String} {i : Nat} {position' : String → Option Nat} (new : z ∉ b.freeNames)
    (before : position y = some i) (after : position' z = some i)
    (rest : ∀ w, w ≠ y → w ≠ z → position' w = position w) :
    (b.form.subst y (.var (.free z))).close position' = b.form.close position := by
  unfold Form.subst Form.close
  rw [Form.replace_replace]
  refine form_replace_congr (fun d w free => ?_) fun _ _ _ _ => by simp [Form.putting, Form.closing]
  by_cases renamed : w = y
  · subst renamed
    simp [Form.putting, Form.closing, before, after]
  · have other : w ≠ z := fun same => new (same ▸ free)
    simp [Form.putting, Form.closing, renamed, rest w renamed other]

/-- The names that a binder took away are put back. -/
theorem fill_close {u : Nat → Form}
    (named : ∀ y ∈ b.freeNames, ∀ i, position y = some i → u i = .var (.free y)) :
    (b.form.close position).fill u = b.form := by
  unfold Form.fill Form.close
  rw [Form.replace_replace]
  refine form_replace_self 0 (fun d y free => ?_) fun d k i less => ?_
  · cases placed : position y with
    | none => simp [Form.closing, Form.filling, placed]
    | some i => simp [Form.closing, Form.filling, placed, named y free i placed]
  · have inner : k ≠ d := by omega
    simp [Form.closing, Form.filling, inner]

/-- What is put in for the one variable of a binder is substituted for its name. -/
theorem fill_close_single (b : Ty) (x : String) (f : Form) :
    (b.form.close (places [x])).fill (fun _ => f) = b.form.subst x f := by
  unfold Form.fill Form.close Form.subst
  rw [Form.replace_replace]
  refine form_replace_congr (fun d y free => ?_) fun d k i less => ?_
  · by_cases same : x = y
    · simp [Form.closing, Form.filling, Form.putting, places_cons, same]
    · have unplaced : places [x] y = none := places_eq_none.mpr (by simpa [eq_comm] using same)
      simp [Form.closing, Form.filling, Form.putting, unplaced, Ne.symm same]
  · simp [Form.closing, Form.filling, Form.putting, Nat.ne_of_lt less]

end Replacement

section Tidiness

/-- Names that stay apart however they are numbered, also from the names of aligned binders. The
first name may be one of those, since it is aligned before there are any. -/
def Separate (xs : List String) : Prop :=
  xs.Pairwise Fresh.Apart ∧ ∀ x ∈ xs.tail, Fresh.Apart "'" x

instance (xs : List String) : Decidable (Separate xs) :=
  inferInstanceAs (Decidable (_ ∧ _))

theorem exists_numbered {xs ys : List String} (numbered : List.Forall₂ Fresh.Numbered xs ys) {y : String}
    (member : y ∈ ys) : ∃ x ∈ xs, Fresh.Numbered x y := by
  induction numbered with
  | nil => contradiction
  | cons first _ ih =>
    rcases List.mem_cons.mp member with rfl | later
    · exact ⟨_, List.mem_cons_self, first⟩
    · obtain ⟨x, before, longer⟩ := ih later
      exact ⟨x, List.mem_cons_of_mem _ before, longer⟩

theorem pairwise_apart {xs ys : List String} (apart : xs.Pairwise Fresh.Apart)
    (numbered : List.Forall₂ Fresh.Numbered xs ys) : ys.Pairwise Fresh.Apart := by
  induction numbered with
  | nil => exact .nil
  | cons first rest ih =>
    obtain ⟨head, apart⟩ := List.pairwise_cons.mp apart
    refine .cons (fun z member => ?_) (ih apart)
    obtain ⟨w, before, later⟩ := exists_numbered rest member
    exact (head w before).numbered first later

theorem Separate.numbered {xs ys : List String} (separate : Separate xs)
    (numbered : List.Forall₂ Fresh.Numbered xs ys) : Separate ys := by
  refine ⟨pairwise_apart separate.1 numbered, ?_⟩
  cases numbered with
  | nil => simp
  | cons first rest =>
    intro z member
    obtain ⟨w, before, later⟩ := exists_numbered rest member
    exact (separate.2 w before).numbered (.refl _) later

/-- The names that the outermost constructor of a universal type binds. -/
def binders : Ty → List String
  | forAll xs _ => xs
  | _ => []

/-- The names that a universal type binds at one place stay apart. -/
def Tidy (t : Ty) : Prop :=
  ∀ u ∈ t.parts, Separate u.binders

instance (t : Ty) : Decidable t.Tidy :=
  inferInstanceAs (Decidable (∀ u ∈ t.parts, Separate u.binders))

theorem Tidy.of_outlined {t u : Ty} (tidy : t.Tidy) (outlined : Outlined t u) : Separate u.binders := by
  obtain ⟨v, part, outline⟩ := outlined
  cases u with
  | forAll ys c =>
    obtain ⟨xs, b, rfl, numbered⟩ := outline.forAll ys c rfl
    exact (tidy _ part).numbered numbered
  | _ => exact ⟨.nil, by simp [binders]⟩

theorem Tidy.substitute {t : Ty} (tidy : t.Tidy) (x : String) {s : Ty} (tidy' : s.Tidy) :
    (t.substitute x s).Tidy := by
  intro u part
  rcases parts_substitute t x s part with inside | outlined
  · exact tidy' u inside
  · exact tidy.of_outlined outlined

theorem tidy_var (x : String) : (var x).Tidy := by
  intro u part
  obtain rfl : u = var x := by simpa [parts] using part
  exact ⟨.nil, by simp [binders]⟩

theorem separate_nil : Separate [] :=
  ⟨.nil, by simp⟩

theorem tidy_arrow {ps : List Ty} {r : Ty} : (arrow ps r).Tidy ↔ (∀ p ∈ ps, p.Tidy) ∧ r.Tidy := by
  simp only [Tidy, parts, binders, List.forall_mem_cons, List.forall_mem_append, separate_nil, true_and,
    mem_partsAll]
  grind

theorem tidy_forAll {xs : List String} {b : Ty} : (forAll xs b).Tidy ↔ Separate xs ∧ b.Tidy := by
  simp only [Tidy, parts, binders, List.forall_mem_cons]

theorem tidy_recursive {x : String} {b : Ty} : (recursive x b).Tidy ↔ b.Tidy := by
  simp only [Tidy, parts, binders, List.forall_mem_cons, separate_nil, true_and]

theorem tidy_tuple {ts : List Ty} : (tuple ts).Tidy ↔ ∀ t ∈ ts, t.Tidy := by
  simp only [Tidy, parts, binders, List.forall_mem_cons, separate_nil, true_and, mem_partsAll]
  grind

theorem tidy_sum {l r : Ty} : (sum l r).Tidy ↔ l.Tidy ∧ r.Tidy := by
  simp only [Tidy, parts, binders, List.forall_mem_cons, List.forall_mem_append, separate_nil, true_and]

theorem tidy_record {fs : List (String × Ty)} : (record fs).Tidy ↔ ∀ l t, (l, t) ∈ fs → t.Tidy := by
  simp only [Tidy, parts, binders, List.forall_mem_cons, separate_nil, true_and, mem_partsFields]
  grind

theorem tidy_variant {fs : List (String × Option Ty)} :
    (variant fs).Tidy ↔ ∀ l t, (l, some t) ∈ fs → t.Tidy := by
  simp only [Tidy, parts, binders, List.forall_mem_cons, separate_nil, true_and, mem_partsAlternatives]
  grind

theorem tidy_variant_iff {fs : List (String × Option Ty)} :
    (variant fs).Tidy ↔ ∀ f ∈ fs, ∀ t, f.2 = some t → t.Tidy := by
  rw [tidy_variant]
  constructor
  · rintro tidy ⟨l, _⟩ member t rfl
    exact tidy l t member
  · exact fun tidy l t member => tidy (l, some t) member t rfl

theorem tidy_list {t : Ty} : (list t).Tidy ↔ t.Tidy := by
  simp only [Tidy, parts, binders, List.forall_mem_cons, separate_nil, true_and]

theorem tidy_ref {t : Ty} : (ref t).Tidy ↔ t.Tidy := by
  simp only [Tidy, parts, binders, List.forall_mem_cons, separate_nil, true_and]

theorem Tidy.of_parts {t u : Ty} (tidy : t.Tidy) (inside : u.parts ⊆ t.parts) : u.Tidy :=
  fun v part => tidy v (inside part)

end Tidiness

section Substitution

/-- The names that the outermost constructor of a type binds. -/
def bound : Ty → List String
  | forAll xs _ => xs
  | recursive x _ => [x]
  | _ => []

/-- No name bound in a type is free in what is put in, so that no binder is renamed. -/
def Uncaptured (t s : Ty) : Prop :=
  ∀ u ∈ t.parts, ∀ y ∈ u.bound, y ∉ s.freeNames

theorem Uncaptured.of_parts {t u s : Ty} (uncaptured : t.Uncaptured s) (inside : u.parts ⊆ t.parts) :
    u.Uncaptured s :=
  fun v part => uncaptured v (inside part)

theorem renameBinders_nil (siblings : List String) (b : Ty) (x : String) (s : Ty) :
    (renameBinders siblings [] b x s).1 = ([], b) := by
  rw [renameBinders]

theorem renameBinders_of_not_free {b : Ty} {x : String} (s : Ty) (absent : x ∉ b.freeNames)
    (siblings ys : List String) : (renameBinders siblings ys b x s).1 = (ys, b) := by
  induction ys with
  | nil => exact renameBinders_nil ..
  | cons y ys ih =>
    have kept : captures y b x s = false := by simp [captures, mentions, absent]
    rw [renameBinders]
    simp [kept, ih]

theorem renameBinders_of_uncaptured {b s : Ty} {ys : List String} (kept : ∀ y ∈ ys, y ∉ s.freeNames)
    (siblings : List String) (x : String) : (renameBinders siblings ys b x s).1 = (ys, b) := by
  induction ys with
  | nil => exact renameBinders_nil ..
  | cons y ys ih =>
    have harmless : captures y b x s = false := by
      simp [captures, mentions, kept y List.mem_cons_self]
    rw [renameBinders]
    simp [harmless, ih fun z member => kept z (List.mem_cons_of_mem y member)]

/-- The name that a binder is renamed to is new to the body and to what is put in. -/
theorem fresh_not_mem (siblings : List String) (y : String) (b : Ty) (x : String) (s : Ty) :
    Fresh.name y (taken siblings b x s) ∉ b.freeNames ∧
      Fresh.name y (taken siblings b x s) ∉ x :: s.freeNames := by
  have new := Fresh.name_not_mem y (taken siblings b x s)
  simp only [taken, List.cons_append, List.mem_cons, List.mem_append, not_or] at new ⊢
  exact ⟨new.2.2, new.1, new.2.1.2⟩

variable {x : String} {s : Ty}

/-- The binder of a recursive type is renamed as that of a universal type with one variable. -/
theorem substitute_recursive_eq {y : String} {b : Ty} (other : y ≠ x) :
    ∃ z, (renameBinders [] [y] b x s).1.1 = [z] ∧
      (recursive y b).substitute x s = recursive z ((renameBinders [] [y] b x s).1.2.substitute x s) := by
  rw [substitute_recursive, if_neg other, renameBinders]
  split
  · exact ⟨Fresh.name y (taken [] b x s), by simp [renameBinders_nil],
      by simp only [renameBinders_nil]; rfl⟩
  · exact ⟨y, by simp [renameBinders_nil], by simp [renameBinders_nil]⟩

/-- Whether a substitution does what it does in forms is settled in the components. -/
theorem form_substitute_iff_components {t : Ty} (none : t.scopeless = true) :
    (t.substitute x s).form = t.form.subst x s.form ↔
      ∀ c ∈ t.components, (c.substitute x s).form = c.form.subst x s.form := by
  cases t with
  | var | forAll | recursive => contradiction
  | arrow ps r => simp [components, and_comm]
  | tuple ts => simp [components]
  | sum l r => simp [form, components]
  | record fs =>
    rw [substitute_record, form_record, form_record, Form.subst_record, List.map_map, List.map_map,
      Form.record.injEq, List.map_inj_left]
    constructor
    · intro same c member
      obtain ⟨l, field⟩ := mem_types.mp member
      simpa using same (l, c) field
    · rintro each ⟨l, c⟩ field
      simp [each c (mem_types.mpr ⟨l, field⟩)]
  | variant fs =>
    rw [substitute_variant, form_variant, form_variant, Form.subst_variant, List.map_map, List.map_map,
      Form.variant.injEq, List.map_inj_left]
    constructor
    · intro same c member
      obtain ⟨l, payload⟩ := mem_payloads.mp member
      simpa using same (l, some c) payload
    · rintro each ⟨l, payload⟩ carried
      cases payload with
      | none => rfl
      | some c => simp [each c (mem_payloads.mpr ⟨l, carried⟩)]
  | list e | ref e => simp [form, components]
  | _ => simp [substitute, substituteSized, form, Form.subst, components]

end Substitution

end Ty

end StellaLang
