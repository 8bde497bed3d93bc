import Mathlib.Order.Defs.Unbundled
import StellaLang.Proofs.Ty.FormConformance

/-! Conformance is a preorder on types without wildcards in which no label is listed twice and no
bound name looks like one that is made for aligned binders. The three conditions are needed:
a wildcard stands between any two types, of two equal labels only the first is compared,
and a binder may be taken for one that is aligned already.

Forms carry the argument, since in them nothing is bound by name. A type conforms to itself as its
form does; that conformance is transitive is proved along the form in the middle. -/
namespace StellaLang

namespace Form

/-- No part of the form is a wildcard. -/
inductive Known : Form → Prop where
  | constant (c : Constant) (known : (constant c).isWildcard = false) : Known (constant c)
  | var (v : Var) : Known (var v)
  | arrow (params : ∀ p ∈ ps, Known p) (result : Known r) : Known (arrow ps r)
  | forAll (n : Nat) (body : Known b) : Known (forAll n b)
  | tuple (elements : ∀ t ∈ ts, Known t) : Known (tuple ts)
  | sum (left : Known l) (right : Known r) : Known (sum l r)
  | record (fields : ∀ l t, (l, t) ∈ fs → Known t) : Known (record fs)
  | variant (payloads : ∀ l t, (l, some t) ∈ fs → Known t) : Known (variant fs)
  | list (element : Known t) : Known (list t)
  | ref (referent : Known t) : Known (ref t)
  | recursive (body : Known b) : Known (recursive b)

theorem Known.replace {f : Form} (known : Known f) {σ : Nat → Var → Form} (σKnown : ∀ d v, Known (σ d v))
    (d : Nat) : Known (f.replace σ d) := by
  induction known generalizing d with
  | constant c known => exact .constant c known
  | var v => exact σKnown d v
  | arrow _ _ params result =>
    rw [replace_arrow]
    refine .arrow (fun q member => ?_) (result d)
    obtain ⟨p, before, rfl⟩ := List.mem_map.mp member
    exact params p before d
  | forAll n _ body => exact .forAll n (body (d + 1))
  | tuple _ elements =>
    rw [replace_tuple]
    refine .tuple fun u member => ?_
    obtain ⟨t, before, rfl⟩ := List.mem_map.mp member
    exact elements t before d
  | sum _ _ left right => exact .sum (left d) (right d)
  | record _ fields =>
    rw [replace_record]
    refine .record fun l u member => ?_
    obtain ⟨t, before, rfl⟩ := mem_map_snd.mp member
    exact fields l t before d
  | variant _ payloads =>
    rw [replace_variant]
    refine .variant fun l u member => ?_
    obtain ⟨payload, before, carried⟩ := mem_map_snd.mp member
    obtain ⟨t, rfl, rfl⟩ := Option.map_eq_some_iff.mp carried
    exact payloads l t before d
  | list _ element => exact .list (element d)
  | ref _ referent => exact .ref (referent d)
  | recursive _ body => exact .recursive (body (d + 1))

theorem Known.close {f : Form} (known : Known f) (position : String → Option Nat) :
    Known (f.close position) := by
  refine known.replace (fun d v => ?_) 0
  unfold closing
  repeat' split
  all_goals exact .var _

variable {subtyping : Bool}

theorem wildcard_of_left {f g : Form} (h : (f.isWildcard || g.isWildcard) = true)
    (known : g.isWildcard = false) (k : Form) : Conforms subtyping f k := by
  refine .wildcard ?_
  rw [known, Bool.or_false] at h
  rw [h, Bool.true_or]

theorem wildcard_of_right {g k : Form} (h : (g.isWildcard || k.isWildcard) = true)
    (known : g.isWildcard = false) (f : Form) : Conforms subtyping f k := by
  refine .wildcard ?_
  rw [known, Bool.false_or] at h
  rw [h, Bool.or_true]

theorem mem_zip_between {as : List α} {bs : List β} {cs : List γ} (length : as.length = bs.length)
    {a : α} {c : γ} (member : (a, c) ∈ as.zip cs) : ∃ b, (a, b) ∈ as.zip bs ∧ (b, c) ∈ bs.zip cs := by
  obtain ⟨i, found⟩ := List.mem_iff_getElem?.mp member
  obtain ⟨first, last⟩ := List.getElem?_zip_eq_some.mp found
  have bound : i < bs.length := length ▸ (List.getElem?_eq_some_iff.mp first).1
  have middle := List.getElem?_eq_getElem bound
  refine ⟨bs[i], ?_, ?_⟩
  · exact List.mem_iff_getElem?.mpr ⟨i, List.getElem?_zip_eq_some.mpr ⟨first, middle⟩⟩
  · exact List.mem_iff_getElem?.mpr ⟨i, List.getElem?_zip_eq_some.mpr ⟨middle, last⟩⟩

/-- By induction on the form in the middle, since parameters turn the other two around. -/
theorem Conforms.trans {g : Form} (known : Known g) {f k : Form} (first : Conforms subtyping f g)
    (second : Conforms subtyping g k) : Conforms subtyping f k := by
  induction known generalizing f k with
  | constant c known =>
    cases first with
    | wildcard h => exact wildcard_of_left h known k
    | fromBottom h => exact .fromBottom h
    | constant => exact second
    | toTop h =>
      cases second with
      | wildcard h => exact wildcard_of_right h known f
      | toTop | constant => exact .toTop h
  | var v =>
    cases first with
    | wildcard h => exact wildcard_of_left h rfl k
    | fromBottom h => exact .fromBottom h
    | var => exact second
  | @arrow qs s _ _ params result =>
    cases first with
    | wildcard h => exact wildcard_of_left h rfl k
    | fromBottom h => exact .fromBottom h
    | @arrow ps _ r _ length before first =>
      cases second with
      | wildcard h => exact wildcard_of_right h rfl _
      | toTop h => exact .toTop h
      | arrow length' after second =>
        refine .arrow (length.trans length') (fun p k member => ?_) (result first second)
        obtain ⟨q, left, right⟩ := mem_zip_between length member
        exact params q (List.of_mem_zip left).2 (after q k right) (before p q left)
  | forAll n _ body =>
    cases first with
    | wildcard h => exact wildcard_of_left h rfl k
    | fromBottom h => exact .fromBottom h
    | forAll _ first =>
      cases second with
      | wildcard h => exact wildcard_of_right h rfl _
      | toTop h => exact .toTop h
      | forAll _ second => exact .forAll n (body first second)
  | @tuple us _ elements =>
    cases first with
    | wildcard h => exact wildcard_of_left h rfl k
    | fromBottom h => exact .fromBottom h
    | tuple length before =>
      cases second with
      | wildcard h => exact wildcard_of_right h rfl _
      | toTop h => exact .toTop h
      | tuple length' after =>
        refine .tuple (length.trans length') fun t v member => ?_
        obtain ⟨u, left, right⟩ := mem_zip_between length member
        exact elements u (List.of_mem_zip left).2 (before t u left) (after u v right)
  | sum _ _ left right =>
    cases first with
    | wildcard h => exact wildcard_of_left h rfl k
    | fromBottom h => exact .fromBottom h
    | sum first first' =>
      cases second with
      | wildcard h => exact wildcard_of_right h rfl _
      | toTop h => exact .toTop h
      | sum second second' => exact .sum (left first second) (right first' second')
  | @record gs _ fields =>
    cases first with
    | wildcard h => exact wildcard_of_left h rfl k
    | fromBottom h => exact .fromBottom h
    | record width present before =>
      cases second with
      | wildcard h => exact wildcard_of_right h rfl _
      | toTop h => exact .toTop h
      | record width' present' after =>
        have widths := width.elim .inl fun same => width'.imp_right same.trans
        refine .record widths (fun l v member => ?_) fun l t v member found => ?_
        · obtain ⟨u, middle⟩ := present' l v member
          exact present l u (mem_of_lookup middle)
        · obtain ⟨u, middle⟩ := present' l v member
          have inside := mem_of_lookup middle
          exact fields l u inside (before l t u inside found) (after l u v member middle)
  | @variant gs _ payloads =>
    cases first with
    | wildcard h => exact wildcard_of_left h rfl k
    | fromBottom h => exact .fromBottom h
    | variant present before =>
      cases second with
      | wildcard h => exact wildcard_of_right h rfl _
      | toTop h => exact .toTop h
      | variant present' after =>
        refine .variant (fun l p member => ?_) fun l t v member found => ?_
        · obtain ⟨q, middle, carried⟩ := present l p member
          obtain ⟨r, last, carried'⟩ := present' l q (mem_of_lookup middle)
          exact ⟨r, last, carried'.trans carried⟩
        · obtain ⟨q, middle, carried⟩ := present l (some t) member
          obtain ⟨u, rfl⟩ := Option.isSome_iff_exists.mp carried
          have inside := mem_of_lookup middle
          exact payloads l u inside (before l t u member middle) (after l u v inside found)
  | list _ element =>
    cases first with
    | wildcard h => exact wildcard_of_left h rfl k
    | fromBottom h => exact .fromBottom h
    | list first =>
      cases second with
      | wildcard h => exact wildcard_of_right h rfl _
      | toTop h => exact .toTop h
      | list second => exact .list (element first second)
  | ref _ referent =>
    cases first with
    | wildcard h => exact wildcard_of_left h rfl k
    | fromBottom h => exact .fromBottom h
    | ref first first' =>
      cases second with
      | wildcard h => exact wildcard_of_right h rfl _
      | toTop h => exact .toTop h
      | ref second second' => exact .ref (referent first second) (referent second' first')
  | recursive _ body =>
    cases first with
    | wildcard h => exact wildcard_of_left h rfl k
    | fromBottom h => exact .fromBottom h
    | recursive first =>
      cases second with
      | wildcard h => exact wildcard_of_right h rfl _
      | toTop h => exact .toTop h
      | recursive second => exact .recursive (body first second)

end Form

namespace Ty

section Names

/-- Whether a name starts as those do that are made for aligned binders. -/
def Quoted (x : String) : Prop :=
  "'".toList <+: x.toList

instance (x : String) : Decidable (Quoted x) :=
  inferInstanceAs (Decidable (_ <+: _))

theorem quoted_name (avoid : List String) : Quoted (Fresh.name "'" avoid) := by
  obtain ⟨digits, -, named⟩ := Fresh.numbered_name "'" avoid
  rw [Quoted, named]
  exact List.prefix_append _ _

theorem quoted_of_numbered {x y : String} (numbered : Fresh.Numbered x y) (quoted : Quoted y) :
    Quoted x := by
  obtain ⟨digits, all, named⟩ := numbered
  obtain ⟨rest, start⟩ := quoted
  rw [named] at start
  cases spelled : x.toList with
  | nil =>
    rw [spelled, List.nil_append] at start
    have first := all _ (start ▸ List.mem_append_left rest List.mem_cons_self)
    contradiction
  | cons c cs =>
    rw [spelled] at start
    obtain ⟨rfl, -⟩ := List.cons.inj start
    exact ⟨cs, spelled.symm⟩

/-- No name bound in the type looks like one for aligned binders. -/
def Unquoted (t : Ty) : Prop :=
  ∀ u ∈ t.parts, ∀ x ∈ u.bound, ¬Quoted x

instance (t : Ty) : Decidable t.Unquoted :=
  inferInstanceAs (Decidable (∀ u ∈ t.parts, ∀ x ∈ u.bound, ¬Quoted x))

theorem Outline.numbered_bound {t u : Ty} (outline : Outline t u) {y : String} (member : y ∈ u.bound) :
    ∃ x ∈ t.bound, Fresh.Numbered x y := by
  cases u with
  | forAll ys c =>
    obtain ⟨xs, b, rfl, numbered⟩ := outline.forAll ys c rfl
    exact exists_numbered numbered member
  | recursive z c =>
    obtain ⟨x, b, rfl, numbered⟩ := outline.recursive z c rfl
    obtain rfl := List.mem_singleton.mp member
    exact ⟨x, List.mem_singleton.mpr rfl, numbered⟩
  | _ => contradiction

theorem Unquoted.uncaptured {t : Ty} (unquoted : t.Unquoted) (avoid : List String) :
    t.Uncaptured (aligned avoid) := by
  intro u part y member free
  obtain rfl : y = Fresh.name "'" avoid := List.mem_singleton.mp free
  exact unquoted u part _ member (quoted_name avoid)

theorem unquoted_alignable : Alignable Unquoted where
  part := fun unquoted inside u part => unquoted u (inside part)
  unused := by
    intro xs b unquoted avoid member
    exact unquoted (forAll xs b) (mem_parts_self _) _ (List.mem_of_mem_tail member) (quoted_name avoid)
  rename := by
    intro b unquoted x avoid u part y member quoted
    rcases parts_substitute b x (aligned avoid) part with new | ⟨v, first, outline⟩
    · obtain rfl : u = aligned avoid := List.mem_singleton.mp new
      contradiction
    · obtain ⟨z, before, numbered⟩ := outline.numbered_bound member
      exact unquoted v first z before (quoted_of_numbered numbered quoted)
  form_rename := fun unquoted x avoid => form_substitute_of_uncaptured (unquoted.uncaptured avoid) x

end Names

/-- The labels of a record or a variant. -/
def labels : Ty → List String
  | record fs => fs.map (·.1)
  | variant fs => fs.map (·.1)
  | _ => []

/-- Of no part are labels listed twice. -/
def Distinct (t : Ty) : Prop :=
  ∀ u ∈ t.parts, u.labels.Nodup

/-- Types without wildcards, without a label listed twice and without a bound name that starts
with an apostrophe. -/
structure Plain (t : Ty) : Prop where
  known : ∀ u ∈ t.parts, u.isWildcard = false
  distinct : t.Distinct
  unquoted : t.Unquoted

instance (t : Ty) : Decidable t.Plain :=
  decidable_of_iff ((∀ u ∈ t.parts, u.isWildcard = false) ∧ (∀ u ∈ t.parts, u.labels.Nodup) ∧
      ∀ u ∈ t.parts, ∀ x ∈ u.bound, ¬Quoted x)
    ⟨fun ⟨known, distinct, unquoted⟩ => ⟨known, distinct, unquoted⟩,
      fun plain => ⟨plain.known, plain.distinct, plain.unquoted⟩⟩

section Forms

variable {subtyping : Bool}

theorem known_form (t : Ty) (known : ∀ u ∈ t.parts, u.isWildcard = false) : t.form.Known := by
  have whole := known t (mem_parts_self t)
  have child {u : Ty} (inside : u.parts ⊆ t.parts) : ∀ v ∈ u.parts, v.isWildcard = false :=
    fun v part => known v (inside part)
  cases t with
  | bool | nat | unit | top | bottom => exact .constant _ rfl
  | never | unknown | error => contradiction
  | var x => exact .var (.free x)
  | arrow ps r =>
    rw [form_arrow]
    refine .arrow (fun f member => ?_) (known_form r (child (by simp [parts])))
    obtain ⟨p, first, rfl⟩ := List.mem_map.mp member
    have smaller := size_lt_of_mem first
    exact known_form p (child (parts_subset_arrow first))
  | forAll xs b => exact .forAll _ ((known_form b (child (by simp [parts]))).close _)
  | recursive x b => exact .recursive ((known_form b (child (by simp [parts]))).close _)
  | tuple ts =>
    rw [form_tuple]
    refine .tuple fun f member => ?_
    obtain ⟨t, first, rfl⟩ := List.mem_map.mp member
    have smaller := size_lt_of_mem first
    exact known_form t (child (parts_subset_tuple first))
  | sum l r =>
    exact .sum (known_form l (child (by simp [parts]))) (known_form r (child (by simp [parts])))
  | record fs =>
    rw [form_record]
    refine .record fun l f member => ?_
    obtain ⟨t, first, rfl⟩ := mem_map_snd.mp member
    have smaller := size_lt_of_mem_fields first
    exact known_form t (child (parts_subset_record first))
  | variant fs =>
    rw [form_variant]
    refine .variant fun l f member => ?_
    obtain ⟨payload, first, carried⟩ := mem_map_snd.mp member
    obtain ⟨t, rfl, rfl⟩ := Option.map_eq_some_iff.mp carried
    have smaller := size_lt_of_mem_alternatives first
    exact known_form t (child (parts_subset_variant first))
  | list t => exact .list (known_form t (child (by simp [parts])))
  | ref t => exact .ref (known_form t (child (by simp [parts])))
termination_by t.size
decreasing_by all_goals (subst_vars; simp only [size]; omega)

/-- A list is compared with itself member by member. -/
theorem eq_of_mem_zip_self {as : List α} {a b : α} (member : (a, b) ∈ as.zip as) : a = b := by
  obtain ⟨i, found⟩ := List.mem_iff_getElem?.mp member
  obtain ⟨first, second⟩ := List.getElem?_zip_eq_some.mp found
  exact Option.some.inj (first.symm.trans second)

/-- What is looked up in a record is the field itself, as no other one has its label. -/
theorem form_conforms_self (t : Ty) (distinct : t.Distinct) :
    Form.Conforms subtyping t.form t.form := by
  have whole := distinct t (mem_parts_self t)
  have child {u : Ty} (inside : u.parts ⊆ t.parts) : u.Distinct := fun v part => distinct v (inside part)
  cases t with
  | bool | nat | unit | top | bottom | never | unknown | error => exact .constant _
  | var x => exact .var (.free x)
  | arrow ps r =>
    rw [form_arrow, Form.conforms_arrow_iff]
    refine ⟨rfl, fun p q member => ?_, form_conforms_self r (child (by simp [parts]))⟩
    obtain rfl := eq_of_mem_zip_self member
    have inside := (List.of_mem_zip member).1
    have smaller := size_lt_of_mem inside
    exact form_conforms_self p (child (parts_subset_arrow inside))
  | forAll xs b => exact .forAll _ ((form_conforms_self b (child (by simp [parts]))).close _)
  | recursive x b => exact .recursive ((form_conforms_self b (child (by simp [parts]))).close _)
  | tuple ts =>
    rw [form_tuple, Form.conforms_tuple_iff]
    refine ⟨rfl, fun t u member => ?_⟩
    obtain rfl := eq_of_mem_zip_self member
    have inside := (List.of_mem_zip member).1
    have smaller := size_lt_of_mem inside
    exact form_conforms_self t (child (parts_subset_tuple inside))
  | sum l r =>
    exact .sum (form_conforms_self l (child (by simp [parts])))
      (form_conforms_self r (child (by simp [parts])))
  | record fs =>
    rw [form_record, Form.conforms_record_iff]
    refine ⟨.inr rfl, fun l u member => ⟨u, lookup_of_nodup whole member⟩, ?_⟩
    intro l t u member found
    cases (lookup_of_nodup whole member).symm.trans found
    have smaller := size_lt_of_mem_fields member
    exact form_conforms_self t (child (parts_subset_record member))
  | variant fs =>
    rw [form_variant, Form.conforms_variant_iff]
    refine ⟨fun l p member => ⟨p, lookup_of_nodup whole member, rfl⟩, ?_⟩
    intro l t u member found
    cases (lookup_of_nodup whole member).symm.trans found
    have smaller := size_lt_of_mem_alternatives member
    exact form_conforms_self t (child (parts_subset_variant member))
  | list t => exact .list (form_conforms_self t (child (by simp [parts])))
  | ref t =>
    have referent := form_conforms_self t (child (by simp [parts]))
    exact .ref referent referent
termination_by t.size
decreasing_by all_goals (subst_vars; simp only [size]; omega)

end Forms

/-- In either mode, conformance is reflexive and transitive on the types that are plain. -/
theorem conforms_isPreorder (subtyping : Bool) :
    IsPreorder {t : Ty // t.Plain} fun t u => conforms subtyping t u = true where
  refl := by
    intro ⟨t, plain⟩
    exact (unquoted_alignable.conforms_iff plain.unquoted plain.unquoted).mpr
      (form_conforms_self t plain.distinct)
  trans := by
    intro ⟨t, first⟩ ⟨u, middle⟩ ⟨v, last⟩ below above
    have below' := (unquoted_alignable.conforms_iff first.unquoted middle.unquoted).mp below
    have above' := (unquoted_alignable.conforms_iff middle.unquoted last.unquoted).mp above
    have through := Form.Conforms.trans (known_form u middle.known) below' above'
    exact (unquoted_alignable.conforms_iff first.unquoted last.unquoted).mpr through

/-- Binders may be repeated, and inner ones may have the names of outer ones. -/
example : Plain (forAll ["X", "X"] (recursive "X" (arrow [var "X"] (ref (var "Y"))))) := by decide

/-- With a binder that looks aligned, the first type conforms to the second and the second to the
third, but not the first to the third. -/
example :
    let first := forAll ["X", "Y"] (arrow [top] (var "Y"))
    let second := forAll ["X", "'1"] (arrow [top] (var "X"))
    let third := forAll ["X", "Y"] (arrow [var "'1"] (var "X"))
    conforms true first second = true ∧ conforms true second third = true ∧
      conforms true first third = false := by
  decide +kernel

end Ty

end StellaLang
