import StellaLang.Proofs.Ty.Orderly

/-! Conformance depends on the forms of types alone: two types conform exactly if their forms
do, where bodies are compared as they are. This holds of every class of types in which binders
can be aligned, and the types whose bound names stay apart are one. -/
namespace StellaLang

namespace Form

def isWildcard : Form → Bool
  | constant .never | constant .unknown | constant .error => true
  | _ => false

/-- Conformance of forms. There are no bound names to align. -/
inductive Conforms (subtyping : Bool) : Form → Form → Prop where
  | wildcard (h : (f.isWildcard || g.isWildcard) = true) : Conforms subtyping f g
  | toTop (h : subtyping = true) : Conforms subtyping f (constant .top)
  | fromBottom (h : subtyping = true) : Conforms subtyping (constant .bottom) g
  | constant (c : Constant) : Conforms subtyping (constant c) (constant c)
  | var (v : Var) : Conforms subtyping (var v) (var v)
  | arrow (length : ps.length = qs.length)
      (params : ∀ p q, (p, q) ∈ ps.zip qs → Conforms subtyping q p)
      (result : Conforms subtyping r s) : Conforms subtyping (arrow ps r) (arrow qs s)
  | forAll (n : Nat) (bodies : Conforms subtyping b c) : Conforms subtyping (forAll n b) (forAll n c)
  | recursive (bodies : Conforms subtyping b c) : Conforms subtyping (recursive b) (recursive c)
  | tuple (length : ts.length = us.length)
      (elements : ∀ t u, (t, u) ∈ ts.zip us → Conforms subtyping t u) :
      Conforms subtyping (tuple ts) (tuple us)
  | sum (left : Conforms subtyping l l') (right : Conforms subtyping r r') :
      Conforms subtyping (sum l r) (sum l' r')
  | record (width : subtyping = true ∨ fs.length = gs.length)
      (present : ∀ l u, (l, u) ∈ gs → ∃ t, fs.lookup l = some t)
      (fields : ∀ l t u, (l, u) ∈ gs → fs.lookup l = some t → Conforms subtyping t u) :
      Conforms subtyping (record fs) (record gs)
  | variant (present : ∀ l p, (l, p) ∈ fs → ∃ q, gs.lookup l = some q ∧ q.isSome = p.isSome)
      (payloads : ∀ l t u, (l, some t) ∈ fs → gs.lookup l = some (some u) →
        Conforms subtyping t u) :
      Conforms subtyping (variant fs) (variant gs)
  | list (element : Conforms subtyping t u) : Conforms subtyping (list t) (list u)
  | ref (there : Conforms subtyping t u) (back : Conforms subtyping u t) :
      Conforms subtyping (ref t) (ref u)

section Inversion

variable {subtyping : Bool} {f : α → Form} {g : β → Form}

theorem mem_zip_map {as : List α} {bs : List β} {t u : Form} :
    (t, u) ∈ (as.map f).zip (bs.map g) ↔ ∃ a b, (a, b) ∈ as.zip bs ∧ f a = t ∧ g b = u := by
  rw [List.zip_map, List.mem_map]
  constructor
  · rintro ⟨⟨a, b⟩, member, same⟩
    obtain ⟨rfl, rfl⟩ := Prod.mk.inj same
    exact ⟨a, b, member, rfl, rfl⟩
  · rintro ⟨a, b, member, rfl, rfl⟩
    exact ⟨(a, b), member, rfl⟩

theorem conforms_arrow_iff {ps : List α} {qs : List β} {r s : Form} :
    Conforms subtyping (arrow (ps.map f) r) (arrow (qs.map g) s) ↔
      ps.length = qs.length ∧ (∀ p q, (p, q) ∈ ps.zip qs → Conforms subtyping (g q) (f p)) ∧
        Conforms subtyping r s := by
  constructor
  · intro h
    cases h with
    | wildcard h => contradiction
    | arrow length params result =>
      refine ⟨by simpa using length, fun p q member => params _ _ ?_, result⟩
      exact mem_zip_map.mpr ⟨p, q, member, rfl, rfl⟩
  · rintro ⟨length, params, result⟩
    refine .arrow (by simpa using length) (fun p q member => ?_) result
    obtain ⟨a, b, inside, rfl, rfl⟩ := mem_zip_map.mp member
    exact params a b inside

theorem conforms_tuple_iff {ts : List α} {us : List β} :
    Conforms subtyping (tuple (ts.map f)) (tuple (us.map g)) ↔
      ts.length = us.length ∧ ∀ t u, (t, u) ∈ ts.zip us → Conforms subtyping (f t) (g u) := by
  constructor
  · intro h
    cases h with
    | wildcard h => contradiction
    | tuple length elements =>
      refine ⟨by simpa using length, fun t u member => elements _ _ ?_⟩
      exact mem_zip_map.mpr ⟨t, u, member, rfl, rfl⟩
  · rintro ⟨length, elements⟩
    refine .tuple (by simpa using length) fun t u member => ?_
    obtain ⟨a, b, inside, rfl, rfl⟩ := mem_zip_map.mp member
    exact elements a b inside

theorem conforms_record_iff {fs : List (String × α)} {gs : List (String × β)} :
    Conforms subtyping (record (fs.map fun (l, t) => (l, f t))) (record (gs.map fun (l, u) => (l, g u))) ↔
      (subtyping = true ∨ fs.length = gs.length) ∧
        (∀ l u, (l, u) ∈ gs → ∃ t, fs.lookup l = some t) ∧
        ∀ l t u, (l, u) ∈ gs → fs.lookup l = some t → Conforms subtyping (f t) (g u) := by
  constructor
  · intro h
    cases h with
    | wildcard h => contradiction
    | record width present fields =>
      refine ⟨by simpa using width, fun l u member => ?_, fun l t u member found => ?_⟩
      · obtain ⟨_, found⟩ := present l (g u) (mem_map_snd.mpr ⟨u, member, rfl⟩)
        rw [lookup_map_snd, Option.map_eq_some_iff] at found
        exact found.imp fun t found => found.1
      · exact fields l (f t) (g u) (mem_map_snd.mpr ⟨u, member, rfl⟩) (by rw [lookup_map_snd, found]; rfl)
  · rintro ⟨width, present, fields⟩
    refine .record (by simpa using width) (fun l u member => ?_) fun l t u member found => ?_
    · obtain ⟨u, inside, rfl⟩ := mem_map_snd.mp member
      obtain ⟨t, found⟩ := present l u inside
      exact ⟨f t, by rw [lookup_map_snd, found]; rfl⟩
    · obtain ⟨u, inside, rfl⟩ := mem_map_snd.mp member
      rw [lookup_map_snd, Option.map_eq_some_iff] at found
      obtain ⟨t, first, rfl⟩ := found
      exact fields l t u inside first

theorem conforms_variant_iff {fs : List (String × Option α)} {gs : List (String × Option β)} :
    Conforms subtyping (variant (fs.map fun (l, p) => (l, p.map f)))
        (variant (gs.map fun (l, q) => (l, q.map g))) ↔
      (∀ l p, (l, p) ∈ fs → ∃ q, gs.lookup l = some q ∧ q.isSome = p.isSome) ∧
        ∀ l t u, (l, some t) ∈ fs → gs.lookup l = some (some u) → Conforms subtyping (f t) (g u) := by
  constructor
  · intro h
    cases h with
    | wildcard h => contradiction
    | variant present payloads =>
      refine ⟨fun l p member => ?_, fun l t u member found => ?_⟩
      · obtain ⟨_, found, carried⟩ := present l (p.map f) (mem_map_snd.mpr ⟨p, member, rfl⟩)
        rw [lookup_map_snd, Option.map_eq_some_iff] at found
        obtain ⟨q, found, rfl⟩ := found
        exact ⟨q, found, by simpa using carried⟩
      · refine payloads l (f t) (g u) (mem_map_snd.mpr ⟨some t, member, rfl⟩) ?_
        rw [lookup_map_snd, found]
        rfl
  · rintro ⟨present, payloads⟩
    refine .variant (fun l p member => ?_) fun l t u member found => ?_
    · obtain ⟨p, inside, rfl⟩ := mem_map_snd.mp member
      obtain ⟨q, found, carried⟩ := present l p inside
      exact ⟨q.map g, by rw [lookup_map_snd, found]; rfl, by simpa using carried⟩
    · obtain ⟨p, inside, carried⟩ := mem_map_snd.mp member
      obtain ⟨t, rfl, rfl⟩ := Option.map_eq_some_iff.mp carried
      rw [lookup_map_snd, Option.map_eq_some_iff] at found
      obtain ⟨q, first, wanted⟩ := found
      obtain ⟨u, rfl, rfl⟩ := Option.map_eq_some_iff.mp wanted
      exact payloads l t u inside first

variable {b c l l' r r' t u : Form}

theorem conforms_forAll_iff {m n : Nat} :
    Conforms subtyping (forAll m b) (forAll n c) ↔ m = n ∧ Conforms subtyping b c := by
  constructor
  · intro h
    cases h with
    | wildcard h => contradiction
    | forAll n bodies => exact ⟨rfl, bodies⟩
  · rintro ⟨rfl, bodies⟩
    exact .forAll m bodies

theorem conforms_recursive_iff :
    Conforms subtyping (recursive b) (recursive c) ↔ Conforms subtyping b c := by
  constructor
  · intro h
    cases h with
    | wildcard h => contradiction
    | recursive bodies => exact bodies
  · exact .recursive

theorem conforms_sum_iff : Conforms subtyping (sum l r) (sum l' r') ↔
    Conforms subtyping l l' ∧ Conforms subtyping r r' := by
  constructor
  · intro h
    cases h with
    | wildcard h => contradiction
    | sum left right => exact ⟨left, right⟩
  · exact fun ⟨left, right⟩ => .sum left right

theorem conforms_list_iff : Conforms subtyping (list t) (list u) ↔ Conforms subtyping t u := by
  constructor
  · intro h
    cases h with
    | wildcard h => contradiction
    | list element => exact element
  · exact .list

theorem conforms_ref_iff : Conforms subtyping (ref t) (ref u) ↔
    Conforms subtyping t u ∧ Conforms subtyping u t := by
  constructor
  · intro h
    cases h with
    | wildcard h => contradiction
    | ref there back => exact ⟨there, back⟩
  · exact fun ⟨there, back⟩ => .ref there back

end Inversion

variable {subtyping : Bool}

theorem isWildcard_replace (σ : Nat → Var → Form) (d : Nat) {f : Form} (h : f.isWildcard = true) :
    (f.replace σ d).isWildcard = true := by
  cases f <;> simp_all [isWildcard, replace]

theorem wildcard_replace {σ : Nat → Var → Form} {d : Nat} {f g : Form} (τ : Nat → Var → Form)
    (h : (f.isWildcard || g.isWildcard) = true) :
    ((f.replace σ d).isWildcard || (g.replace τ d).isWildcard) = true := by
  rw [Bool.or_eq_true_iff] at h ⊢
  exact h.imp (isWildcard_replace σ d) (isWildcard_replace τ d)

/-- Conformance is kept by replacing variables, if what is put in conforms to itself. -/
theorem Conforms.replace {σ : Nat → Var → Form} (self : ∀ d v, Conforms subtyping (σ d v) (σ d v))
    {f g : Form} (h : Conforms subtyping f g) (d : Nat) :
    Conforms subtyping (f.replace σ d) (g.replace σ d) := by
  induction h generalizing d with
  | wildcard h => exact .wildcard (wildcard_replace σ h)
  | toTop h => exact .toTop h
  | fromBottom h => exact .fromBottom h
  | constant c => exact .constant c
  | var v => exact self d v
  | arrow length _ _ params result =>
    rw [replace_arrow, replace_arrow, conforms_arrow_iff]
    exact ⟨length, fun p q member => params p q member d, result d⟩
  | forAll n _ bodies => exact .forAll n (bodies (d + 1))
  | recursive _ bodies => exact .recursive (bodies (d + 1))
  | tuple length _ elements =>
    rw [replace_tuple, replace_tuple, conforms_tuple_iff]
    exact ⟨length, fun t u member => elements t u member d⟩
  | sum _ _ left right => exact .sum (left d) (right d)
  | record width present _ fields =>
    rw [replace_record, replace_record, conforms_record_iff]
    exact ⟨width, present, fun l t u member found => fields l t u member found d⟩
  | variant present _ payloads =>
    rw [replace_variant, replace_variant, conforms_variant_iff]
    exact ⟨present, fun l t u member found => payloads l t u member found d⟩
  | list _ element => exact .list (element d)
  | ref _ _ there back => exact .ref (there d) (back d)

theorem Conforms.close (position : String → Option Nat) {f g : Form} (h : Conforms subtyping f g) :
    Conforms subtyping (f.close position) (g.close position) := by
  refine h.replace (fun d v => ?_) 0
  unfold closing
  repeat' split
  all_goals exact .var _

theorem Conforms.fill (names : Nat → String) {f g : Form} (h : Conforms subtyping f g) :
    Conforms subtyping (f.fill fun i => .var (.free (names i)))
      (g.fill fun i => .var (.free (names i))) := by
  refine h.replace (fun d v => ?_) 0
  unfold filling
  repeat' split
  all_goals exact .var _

end Form

namespace Ty

variable {subtyping : Bool}

section Alignment

/-- The positions of names of which some are still to be aligned. The first `k` are done. -/
def positions (xs : List String) (k : Nat) (done : String → Option Nat) (x : String) : Option Nat :=
  match places xs x with
  | some i => some (k + i)
  | none => done x

theorem positions_zero (xs : List String) : positions xs 0 (fun _ => none) = places xs := by
  funext x
  unfold positions
  cases places xs x <;> simp

theorem positions_cons_self (x : String) (xs : List String) (k : Nat) (done : String → Option Nat) :
    positions (x :: xs) k done x = some k := by
  simp [positions, places_cons]

theorem positions_of_not_mem {xs : List String} {x : String} (absent : x ∉ xs) (k : Nat)
    (done : String → Option Nat) : positions xs k done x = done x := by
  rw [positions, places_eq_none.mpr absent]

theorem positions_cons_of_ne {x w : String} (other : w ≠ x) (xs : List String) (k : Nat)
    (done : String → Option Nat) : positions (x :: xs) k done w = positions xs (k + 1) done w := by
  unfold positions
  rw [places_cons, if_neg (Ne.symm other)]
  cases places xs w with
  | none => rfl
  | some i => simp only [Option.map_some, Option.some.injEq]; omega

theorem positions_congr {xs : List String} {k : Nat} {done done' : String → Option Nat} {w : String}
    (same : done w = done' w) : positions xs k done w = positions xs k done' w := by
  simp only [positions, same]

/-- The name that the binders of two bodies get, whatever the names free in them. -/
def aligned (avoid : List String) : Ty :=
  var (Fresh.name "'" avoid)

/-- A class of types in which binders can be aligned: the names made for that are no binders that
are still to be aligned, and putting them in is substitution in the form. -/
structure Alignable (P : Ty → Prop) : Prop where
  part : ∀ {t u : Ty}, P t → u.parts ⊆ t.parts → P u
  unused : ∀ {xs : List String} {b : Ty}, P (forAll xs b) → ∀ avoid, Fresh.name "'" avoid ∉ xs.tail
  rename : ∀ {b : Ty}, P b → ∀ x avoid, P (b.substitute x (aligned avoid))
  form_rename : ∀ {b : Ty}, P b → ∀ x avoid,
    (b.substitute x (aligned avoid)).form = b.form.subst x (aligned avoid).form

/-- A name made for aligned binders is no binder that is still to be aligned. -/
theorem tidy_alignable : Alignable Tidy where
  part := .of_parts
  unused := by
    intro xs b tidy avoid member
    have separate : Separate xs := tidy (forAll xs b) (mem_parts_self _)
    exact (separate.2 _ member).1 (Fresh.numbered_name "'" avoid)
  rename := fun tidy x _ => tidy.substitute x (tidy_var _)
  form_rename := fun tidy x _ => form_substitute tidy x _

namespace Alignable

variable {P : Ty → Prop} (alignable : Alignable P)

include alignable

theorem arrow {ps : List Ty} {r : Ty} (within : P (arrow ps r)) : (∀ p ∈ ps, P p) ∧ P r := by
  constructor
  · intro p member
    exact alignable.part within (parts_subset_arrow member)
  · exact alignable.part within (by simp [parts])

theorem tuple {ts : List Ty} (within : P (tuple ts)) : ∀ t ∈ ts, P t := by
  intro t member
  exact alignable.part within (parts_subset_tuple member)

theorem sum {l r : Ty} (within : P (sum l r)) : P l ∧ P r :=
  ⟨alignable.part within (by simp [parts]), alignable.part within (by simp [parts])⟩

theorem record {fs : List (String × Ty)} (within : P (record fs)) : ∀ l t, (l, t) ∈ fs → P t := by
  intro l t member
  exact alignable.part within (parts_subset_record member)

theorem variant {fs : List (String × Option Ty)} (within : P (variant fs)) :
    ∀ l t, (l, some t) ∈ fs → P t := by
  intro l t member
  exact alignable.part within (parts_subset_variant member)

theorem list {t : Ty} (within : P (list t)) : P t :=
  alignable.part within (by simp [parts])

theorem ref {t : Ty} (within : P (ref t)) : P t :=
  alignable.part within (by simp [parts])

theorem forAll {xs : List String} {b : Ty} (within : P (forAll xs b)) : P b :=
  alignable.part within (by simp [parts])

theorem recursive {x : String} {b : Ty} (within : P (recursive x b)) : P b :=
  alignable.part within (by simp [parts])

/-- The name at the head of a list gives its position to a new name. -/
theorem close_positions {x : String} {xs avoid : List String} {b : Ty} (k : Nat)
    (done : String → Option Nat) (within : P b) (new : Fresh.name "'" avoid ∉ b.freeNames)
    (absent : Fresh.name "'" avoid ∉ xs) :
    (b.substitute x (aligned avoid)).form.close
        (positions xs (k + 1) (Function.update done (Fresh.name "'" avoid) (some k))) =
      b.form.close (positions (x :: xs) k done) := by
  rw [alignable.form_rename within]
  refine close_rename new (positions_cons_self x xs k done) ?_ fun w other unused => ?_
  · rw [positions_of_not_mem absent, Function.update_self]
  · rw [positions_cons_of_ne other]
    exact positions_congr (Function.update_of_ne unused _ _)

theorem alignAll_positions {xs ys : List String} (length : xs.length = ys.length) {b c : Ty}
    (within : P b) (within' : P c) (unused : ∀ avoid, Fresh.name "'" avoid ∉ xs.tail)
    (unused' : ∀ avoid, Fresh.name "'" avoid ∉ ys.tail) (k : Nat)
    (done : String → Option Nat) (names : Nat → String)
    (named : ∀ w i, done w = some i → i < k ∧ names i = w) :
    let aligned := alignAll (xs.zip ys) b c
    P aligned.1 ∧ P aligned.2 ∧ ∃ (position : String → Option Nat) (names : Nat → String),
      (∀ w i, position w = some i → names i = w) ∧
        aligned.1.form.close position = b.form.close (positions xs k done) ∧
        aligned.2.form.close position = c.form.close (positions ys k done) := by
  induction xs generalizing ys b c k done names with
  | nil =>
    obtain rfl : ys = [] := List.length_eq_zero_iff.mp length.symm
    exact ⟨within, within', done, names, fun w i placed => (named w i placed).2, rfl, rfl⟩
  | cons x xs ih =>
    cases ys with
    | nil => contradiction
    | cons y ys =>
      have new := Fresh.name_not_mem "'" (b.freeNames ++ c.freeNames)
      rw [List.mem_append, not_or] at new
      have absent : Fresh.name "'" (b.freeNames ++ c.freeNames) ∉ xs := unused _
      have absent' : Fresh.name "'" (b.freeNames ++ c.freeNames) ∉ ys := unused' _
      rw [List.zip_cons_cons, alignAll, List.foldl_cons]
      simp only [align]
      rw [← alignable.close_positions k done within new.1 absent,
        ← alignable.close_positions k done within' new.2 absent']
      refine ih (by simpa using length) (alignable.rename within x _) (alignable.rename within' y _)
        (fun avoid member => unused avoid (List.mem_of_mem_tail member))
        (fun avoid member => unused' avoid (List.mem_of_mem_tail member)) (k + 1) _
        (Function.update names k (Fresh.name "'" (b.freeNames ++ c.freeNames))) ?_
      intro w i placed
      by_cases same : w = Fresh.name "'" (b.freeNames ++ c.freeNames)
      · obtain rfl : k = i := by simpa [same] using placed
        exact ⟨Nat.lt_succ_self k, by simp [same]⟩
      · rw [Function.update_of_ne same] at placed
        obtain ⟨less, first⟩ := named w i placed
        exact ⟨Nat.lt_succ_of_lt less, by rw [Function.update_of_ne (Nat.ne_of_lt less), first]⟩

/-- Two bodies conform after their binders are aligned exactly if they do with no names bound. -/
theorem conforms_aligned_iff {xs ys : List String} (length : xs.length = ys.length) {b c : Ty}
    (within : P b) (within' : P c) (unused : ∀ avoid, Fresh.name "'" avoid ∉ xs.tail)
    (unused' : ∀ avoid, Fresh.name "'" avoid ∉ ys.tail) :
    Form.Conforms subtyping (alignAll (xs.zip ys) b c).1.form (alignAll (xs.zip ys) b c).2.form ↔
      Form.Conforms subtyping (b.form.close (places xs)) (c.form.close (places ys)) := by
  obtain ⟨-, -, position, names, named, first, second⟩ := alignable.alignAll_positions length within
    within' unused unused' 0 (fun _ => none) (fun _ => "") (by simp)
  rw [positions_zero] at first second
  rw [← first, ← second]
  constructor
  · exact fun h => h.close position
  · intro h
    have back (t : Ty) : t.form = (t.form.close position).fill fun i => .var (.free (names i)) :=
      (fill_close fun y _ i placed => by rw [named y i placed]).symm
    rw [back (alignAll _ b c).1, back (alignAll _ b c).2]
    exact h.fill names

theorem of_aligned {xs ys : List String} (length : xs.length = ys.length) {b c : Ty}
    (within : P b) (within' : P c) (unused : ∀ avoid, Fresh.name "'" avoid ∉ xs.tail)
    (unused' : ∀ avoid, Fresh.name "'" avoid ∉ ys.tail) :
    P (alignAll (xs.zip ys) b c).1 ∧ P (alignAll (xs.zip ys) b c).2 := by
  obtain ⟨first, second, -⟩ := alignable.alignAll_positions length within within' unused unused' 0
    (fun _ => none) (fun _ => "") (by simp)
  exact ⟨first, second⟩

end Alignable

end Alignment

section Forms

variable {t : Ty}

theorem isWildcard_form (t : Ty) : t.form.isWildcard = t.isWildcard := by
  cases t <;> rfl

/-- The type without parts that has a form. -/
def ofConstant : Form.Constant → Ty
  | .bool => bool
  | .nat => nat
  | .unit => unit
  | .top => top
  | .bottom => bottom
  | .never => never
  | .unknown => unknown
  | .error => error

theorem form_eq_constant {c : Form.Constant} (h : t.form = .constant c) : t = ofConstant c := by
  cases t with
  | bool | nat | unit | top | bottom | never | unknown | error =>
    cases h
    rfl
  | _ => simp [form] at h

theorem form_eq_var {x : String} (h : t.form = .var (.free x)) : t = var x := by
  cases t <;> simp_all [form]

theorem form_ne_bound {k i : Nat} : t.form ≠ .var (.bound k i) := by
  cases t <;> simp [form]

theorem form_eq_arrow {ps : List Form} {r : Form} (h : t.form = .arrow ps r) :
    ∃ ps' r', t = arrow ps' r' ∧ ps'.map form = ps ∧ r'.form = r := by
  cases t <;> simp_all [form, formAll_eq]

theorem form_eq_forAll {n : Nat} {b : Form} (h : t.form = .forAll n b) :
    ∃ xs b', t = forAll xs b' ∧ xs.length = n ∧ b'.form.close (places xs) = b := by
  cases t <;> simp_all [form]

theorem form_eq_recursive {b : Form} (h : t.form = .recursive b) :
    ∃ x b', t = recursive x b' ∧ b'.form.close (places [x]) = b := by
  cases t <;> simp_all [form]

theorem form_eq_tuple {ts : List Form} (h : t.form = .tuple ts) :
    ∃ ts', t = tuple ts' ∧ ts'.map form = ts := by
  cases t <;> simp_all [form, formAll_eq]

theorem form_eq_sum {l r : Form} (h : t.form = .sum l r) :
    ∃ l' r', t = sum l' r' ∧ l'.form = l ∧ r'.form = r := by
  cases t <;> simp_all [form]

theorem form_eq_record {fs : List (String × Form)} (h : t.form = .record fs) :
    ∃ fs', t = record fs' ∧ fs'.map (fun (l, t) => (l, t.form)) = fs := by
  cases t <;> simp_all [form, formFields_eq]

theorem form_eq_variant {fs : List (String × Option Form)} (h : t.form = .variant fs) :
    ∃ fs', t = variant fs' ∧ fs'.map (fun (l, t) => (l, t.map form)) = fs := by
  cases t <;> simp_all [form, formAlternatives_eq]

theorem form_eq_list {e : Form} (h : t.form = .list e) : ∃ e', t = list e' ∧ e'.form = e := by
  cases t <;> simp_all [form]

theorem form_eq_ref {e : Form} (h : t.form = .ref e) : ∃ e', t = ref e' ∧ e'.form = e := by
  cases t <;> simp_all [form]

end Forms

section Equivalence

variable {P : Ty → Prop} (alignable : Alignable P)

include alignable

theorem Alignable.form_conforms {t u : Ty} (h : Conforms subtyping t u) (within : P t) (within' : P u) :
    Form.Conforms subtyping t.form u.form := by
  induction h with
  | wildcard h => exact .wildcard (by rwa [isWildcard_form, isWildcard_form])
  | toTop h => exact .toTop h
  | fromBottom h => exact .fromBottom h
  | bool => exact .constant .bool
  | nat => exact .constant .nat
  | unit => exact .constant .unit
  | top => exact .constant .top
  | bottom => exact .constant .bottom
  | var x => exact .var (.free x)
  | arrow length _ _ params result =>
    rw [form_arrow, form_arrow, Form.conforms_arrow_iff]
    have before := alignable.arrow within
    have after := alignable.arrow within'
    refine ⟨length, fun p q member => ?_, result before.2 after.2⟩
    obtain ⟨first, second⟩ := List.of_mem_zip member
    exact params p q member (after.1 q second) (before.1 p first)
  | @forAll b c xs ys length _ bodies =>
    have unused := alignable.unused within
    have unused' := alignable.unused within'
    have before := alignable.forAll within
    have after := alignable.forAll within'
    obtain ⟨first, second⟩ := alignable.of_aligned length before after unused unused'
    rw [Ty.form, Ty.form, Form.conforms_forAll_iff]
    refine ⟨length, ?_⟩
    exact (alignable.conforms_aligned_iff length before after unused unused').mp (bodies first second)
  | @recursive b x c y _ bodies =>
    have before := alignable.recursive within
    have after := alignable.recursive within'
    have length : [x].length = [y].length := rfl
    have aligned : Form.Conforms subtyping _ _ ↔ _ :=
      alignable.conforms_aligned_iff length before after (by simp) (by simp)
    obtain ⟨first, second⟩ := alignable.of_aligned length before after (by simp) (by simp)
    rw [Ty.form, Ty.form, Form.conforms_recursive_iff]
    exact aligned.mp (bodies first second)
  | tuple length _ elements =>
    rw [form_tuple, form_tuple, Form.conforms_tuple_iff]
    refine ⟨length, fun t u member => ?_⟩
    obtain ⟨first, second⟩ := List.of_mem_zip member
    exact elements t u member (alignable.tuple within t first) (alignable.tuple within' u second)
  | sum _ _ left right =>
    have before := alignable.sum within
    have after := alignable.sum within'
    exact .sum (left before.1 after.1) (right before.2 after.2)
  | record width present _ fields =>
    rw [form_record, form_record, Form.conforms_record_iff]
    refine ⟨width, present, fun l t u member found => ?_⟩
    exact fields l t u member found (alignable.record within l t (mem_of_lookup found))
      (alignable.record within' l u member)
  | variant present _ payloads =>
    rw [form_variant, form_variant, Form.conforms_variant_iff]
    refine ⟨present, fun l t u member found => ?_⟩
    exact payloads l t u member found (alignable.variant within l t member)
      (alignable.variant within' l u (mem_of_lookup found))
  | list _ element =>
    exact .list (element (alignable.list within) (alignable.list within'))
  | ref _ _ there back =>
    have before := alignable.ref within
    have after := alignable.ref within'
    exact .ref (there before after) (back after before)

/-- By the size of the types: the bodies of binders are aligned, so they are no parts of the types. -/
theorem Alignable.conforms_of_form {t u : Ty} (h : Form.Conforms subtyping t.form u.form) (within : P t)
    (within' : P u) : Conforms subtyping t u := by
  generalize first : t.form = f at h
  generalize second : u.form = g at h
  cases h with
  | wildcard h =>
    subst first second
    exact .wildcard (by rwa [isWildcard_form, isWildcard_form] at h)
  | toTop h =>
    obtain rfl : u = Ty.top := by cases u <;> simp_all [Ty.form]
    exact .toTop h
  | fromBottom h =>
    obtain rfl : t = Ty.bottom := by cases t <;> simp_all [Ty.form]
    exact .fromBottom h
  | constant c =>
    obtain rfl := form_eq_constant first
    obtain rfl := form_eq_constant second
    cases c with
    | bool => exact .bool
    | nat => exact .nat
    | unit => exact .unit
    | top => exact .top
    | bottom => exact .bottom
    | never | unknown | error => exact .wildcard rfl
  | var v =>
    cases v with
    | bound => exact absurd first form_ne_bound
    | free x =>
      obtain rfl := form_eq_var first
      obtain rfl := form_eq_var second
      exact .var x
  | arrow length params result =>
    obtain ⟨ps, r, rfl, rfl, rfl⟩ := form_eq_arrow first
    obtain ⟨qs, s, rfl, rfl, rfl⟩ := form_eq_arrow second
    have before := alignable.arrow within
    have after := alignable.arrow within'
    refine .arrow (by simpa using length) (fun p q member => ?_)
      (conforms_of_form result before.2 after.2)
    obtain ⟨first, second⟩ := List.of_mem_zip member
    have smaller := size_lt_of_mem first
    have smaller' := size_lt_of_mem second
    exact conforms_of_form (params _ _ (Form.mem_zip_map.mpr ⟨p, q, member, rfl, rfl⟩))
      (after.1 q second) (before.1 p first)
  | forAll n bodies =>
    obtain ⟨xs, b, rfl, length, rfl⟩ := form_eq_forAll first
    obtain ⟨ys, c, rfl, length', rfl⟩ := form_eq_forAll second
    have sameLength := length.trans length'.symm
    have unused := alignable.unused within
    have unused' := alignable.unused within'
    have before := alignable.forAll within
    have after := alignable.forAll within'
    obtain ⟨first, second⟩ := alignable.of_aligned sameLength before after unused unused'
    have sameSizes := size_alignAll (xs.zip ys) b c
    refine .forAll sameLength (conforms_of_form ?_ first second)
    exact (alignable.conforms_aligned_iff sameLength before after unused unused').mpr bodies
  | recursive bodies =>
    obtain ⟨x, b, rfl, rfl⟩ := form_eq_recursive first
    obtain ⟨y, c, rfl, rfl⟩ := form_eq_recursive second
    have before := alignable.recursive within
    have after := alignable.recursive within'
    have length : [x].length = [y].length := rfl
    have aligned : Form.Conforms subtyping _ _ ↔ _ :=
      alignable.conforms_aligned_iff length before after (by simp) (by simp)
    obtain ⟨first, second⟩ := alignable.of_aligned length before after (by simp) (by simp)
    have sameSizes := size_align b c x y
    exact .recursive (conforms_of_form (aligned.mpr bodies) first second)
  | tuple length elements =>
    obtain ⟨ts, rfl, rfl⟩ := form_eq_tuple first
    obtain ⟨us, rfl, rfl⟩ := form_eq_tuple second
    refine .tuple (by simpa using length) fun t u member => ?_
    obtain ⟨before, after⟩ := List.of_mem_zip member
    have smaller := size_lt_of_mem before
    have smaller' := size_lt_of_mem after
    exact conforms_of_form (elements _ _ (Form.mem_zip_map.mpr ⟨t, u, member, rfl, rfl⟩))
      (alignable.tuple within t before) (alignable.tuple within' u after)
  | sum left right =>
    obtain ⟨l, r, rfl, rfl, rfl⟩ := form_eq_sum first
    obtain ⟨l', r', rfl, rfl, rfl⟩ := form_eq_sum second
    have before := alignable.sum within
    have after := alignable.sum within'
    exact .sum (conforms_of_form left before.1 after.1)
      (conforms_of_form right before.2 after.2)
  | record width present fields =>
    obtain ⟨fs, rfl, rfl⟩ := form_eq_record first
    obtain ⟨gs, rfl, rfl⟩ := form_eq_record second
    obtain ⟨width, present, fields⟩ := Form.conforms_record_iff.mp (.record width present fields)
    refine .record width present fun l t u member found => ?_
    have smaller := size_lt_of_mem_fields member
    have smaller' := size_lt_of_lookup found
    exact conforms_of_form (fields l t u member found)
      (alignable.record within l t (mem_of_lookup found)) (alignable.record within' l u member)
  | variant present payloads =>
    obtain ⟨fs, rfl, rfl⟩ := form_eq_variant first
    obtain ⟨gs, rfl, rfl⟩ := form_eq_variant second
    obtain ⟨present, payloads⟩ := Form.conforms_variant_iff.mp (.variant present payloads)
    refine .variant present fun l t u member found => ?_
    have smaller := size_lt_of_mem_alternatives member
    have smaller' := size_lt_of_lookup_alternative found
    exact conforms_of_form (payloads l t u member found)
      (alignable.variant within l t member) (alignable.variant within' l u (mem_of_lookup found))
  | list element =>
    obtain ⟨e, rfl, rfl⟩ := form_eq_list first
    obtain ⟨e', rfl, rfl⟩ := form_eq_list second
    exact .list (conforms_of_form element (alignable.list within) (alignable.list within'))
  | ref there back =>
    obtain ⟨e, rfl, rfl⟩ := form_eq_ref first
    obtain ⟨e', rfl, rfl⟩ := form_eq_ref second
    have before := alignable.ref within
    have after := alignable.ref within'
    exact .ref (conforms_of_form there before after) (conforms_of_form back after before)
termination_by t.size + u.size
decreasing_by all_goals (simp_all only [size]; omega)

theorem Alignable.conforms_iff {t u : Ty} (within : P t) (within' : P u) :
    conforms subtyping t u = true ↔ Form.Conforms subtyping t.form u.form := by
  rw [Ty.conforms_iff]
  constructor
  · exact fun h => alignable.form_conforms h within within'
  · exact fun h => alignable.conforms_of_form h within within'

omit alignable in
theorem conforms_iff_form {t u : Ty} (tidy : t.Tidy) (tidy' : u.Tidy) :
    conforms subtyping t u = true ↔ Form.Conforms subtyping t.form u.form :=
  tidy_alignable.conforms_iff tidy tidy'

end Equivalence

end Ty

end StellaLang
