import Mathlib.Data.List.Perm.Basic
import StellaLang.Proofs.Ty.Preorder

/-! Exact conformance is equality of types, up to the names of what they bind and to the order in
which the fields of records stand. That is so of types without wildcards, which conform to every
type, and without variants, which conform to variants with more alternatives. -/
namespace StellaLang

section Orders

/-- What a list has in another order can be given that order before it is read off. -/
theorem exists_perm_map {as : List α} {bs : List β} (f : α → β) (order : bs.Perm (as.map f)) :
    ∃ as' : List α, bs = as'.map f ∧ as'.Perm as := by
  have composed := congrFun (congrFun (List.eq_map_comp_perm f) bs) as
  exact composed.mpr order

variable {fs : List (String × α)} {gs : List (String × β)}

theorem label_eq_of_mem_zip (labels : fs.map (·.1) = gs.map (·.1)) {l m : String} {t : α} {u : β}
    (member : ((l, t), (m, u)) ∈ fs.zip gs) : l = m := by
  obtain ⟨i, found⟩ := List.mem_iff_getElem?.mp member
  obtain ⟨first, second⟩ := List.getElem?_zip_eq_some.mp found
  have same := congrArg (·[i]?) labels
  simpa [first, second] using same

/-- With the same labels in the same order, each field has a partner. -/
theorem exists_partner (labels : fs.map (·.1) = gs.map (·.1)) {l : String} {u : β}
    (member : (l, u) ∈ gs) : ∃ t, ((l, t), (l, u)) ∈ fs.zip gs := by
  obtain ⟨i, found⟩ := List.mem_iff_getElem?.mp member
  have same := congrArg (·[i]?) labels
  rw [List.getElem?_map, List.getElem?_map, found, Option.map_some, Option.map_eq_some_iff] at same
  obtain ⟨⟨m, t⟩, paired, rfl⟩ := same
  exact ⟨t, List.mem_iff_getElem?.mpr ⟨i, List.getElem?_zip_eq_some.mpr ⟨paired, found⟩⟩⟩

end Orders

namespace Form

/-- Equality of forms up to the order of the fields of records, at any depth. -/
inductive Reordered : Form → Form → Prop where
  | constant (c : Constant) : Reordered (constant c) (constant c)
  | var (v : Var) : Reordered (var v) (var v)
  | arrow (length : ps.length = qs.length) (params : ∀ p q, (p, q) ∈ ps.zip qs → Reordered p q)
      (result : Reordered r s) : Reordered (arrow ps r) (arrow qs s)
  | forAll (n : Nat) (bodies : Reordered b c) : Reordered (forAll n b) (forAll n c)
  | recursive (bodies : Reordered b c) : Reordered (recursive b) (recursive c)
  | tuple (length : ts.length = us.length) (elements : ∀ t u, (t, u) ∈ ts.zip us → Reordered t u) :
      Reordered (tuple ts) (tuple us)
  | sum (left : Reordered l l') (right : Reordered r r') : Reordered (sum l r) (sum l' r')
  | record (labels : fs.map (·.1) = hs.map (·.1))
      (fields : ∀ l t m u, ((l, t), (m, u)) ∈ fs.zip hs → Reordered t u) (order : hs.Perm gs) :
      Reordered (record fs) (record gs)
  | variant (labels : fs.map (·.1) = gs.map (·.1))
      (present : ∀ l p m q, ((l, p), (m, q)) ∈ fs.zip gs → q.isSome = p.isSome)
      (payloads : ∀ l t m u, ((l, some t), (m, some u)) ∈ fs.zip gs → Reordered t u) :
      Reordered (variant fs) (variant gs)
  | list (element : Reordered t u) : Reordered (list t) (list u)
  | ref (referent : Reordered t u) : Reordered (ref t) (ref u)

/-- Records are turned around field by field, after the fields of the first one have been put in
the order of the second one. -/
theorem Reordered.symm {f g : Form} (h : Reordered f g) : Reordered g f := by
  induction h with
  | constant c => exact .constant c
  | var v => exact .var v
  | arrow length _ _ params result =>
    exact .arrow length.symm (fun q p member => params p q (Ty.mem_zip_swap member)) result
  | forAll n _ bodies => exact .forAll n bodies
  | recursive _ bodies => exact .recursive bodies
  | tuple length _ elements =>
    exact .tuple length.symm fun u t member => elements t u (Ty.mem_zip_swap member)
  | sum _ _ left right => exact .sum left right
  | @record fs gs hs labels _ order fields =>
    have lengths : fs.length = hs.length := by simpa using congrArg List.length labels
    have second : (fs.zip hs).map Prod.snd = hs := List.map_snd_zip (Nat.le_of_eq lengths.symm)
    obtain ⟨pairs, rfl, shuffled⟩ := exists_perm_map Prod.snd (second.symm ▸ order.symm)
    have first : (pairs.map Prod.fst).Perm fs := by
      simpa [List.map_fst_zip (Nat.le_of_eq lengths)] using shuffled.map Prod.fst
    have sameLabels : (pairs.map Prod.snd).map (·.1) = (pairs.map Prod.fst).map (·.1) := by
      rw [List.map_map, List.map_map]
      refine List.map_congr_left fun ⟨(l, t), (m, u)⟩ member => ?_
      exact (label_eq_of_mem_zip labels (shuffled.subset member)).symm
    refine .record sameLabels (fun m u l t member => ?_) first
    rw [List.zip_map', List.mem_map] at member
    obtain ⟨⟨field, other⟩, inside, same⟩ := member
    obtain ⟨rfl, rfl⟩ := Prod.mk.inj same
    exact fields l t m u (shuffled.subset inside)
  | variant labels present _ payloads =>
    refine .variant labels.symm (fun m q l p member => ?_) fun m u l t member => ?_
    · exact (present l p m q (Ty.mem_zip_swap member)).symm
    · exact payloads l t m u (Ty.mem_zip_swap member)
  | list _ element => exact .list element
  | ref _ referent => exact .ref referent

/-- Forms that exact conformance tells apart: without wildcards, variants and labels listed
twice. -/
inductive Rigid : Form → Prop where
  | constant (c : Constant) (known : (constant c).isWildcard = false) : Rigid (constant c)
  | var (v : Var) : Rigid (var v)
  | arrow (params : ∀ p ∈ ps, Rigid p) (result : Rigid r) : Rigid (arrow ps r)
  | forAll (n : Nat) (body : Rigid b) : Rigid (forAll n b)
  | tuple (elements : ∀ t ∈ ts, Rigid t) : Rigid (tuple ts)
  | sum (left : Rigid l) (right : Rigid r) : Rigid (sum l r)
  | record (distinct : (fs.map (·.1)).Nodup) (fields : ∀ l t, (l, t) ∈ fs → Rigid t) :
      Rigid (record fs)
  | list (element : Rigid t) : Rigid (list t)
  | ref (referent : Rigid t) : Rigid (ref t)
  | recursive (body : Rigid b) : Rigid (recursive b)

theorem Rigid.isWildcard {f : Form} (rigid : Rigid f) : f.isWildcard = false := by
  cases rigid with
  | constant _ known => exact known
  | _ => rfl

theorem Rigid.replace {f : Form} (rigid : Rigid f) {σ : Nat → Var → Form} (σRigid : ∀ d v, Rigid (σ d v))
    (d : Nat) : Rigid (f.replace σ d) := by
  induction rigid generalizing d with
  | constant c known => exact .constant c known
  | var v => exact σRigid d v
  | arrow _ _ params result =>
    rw [replace_arrow]
    refine .arrow (fun q member => ?_) (result d)
    obtain ⟨p, before, rfl⟩ := List.mem_map.mp member
    exact params p before d
  | forAll n _ body => exact .forAll n (body (d + 1))
  | tuple _ elements =>
    rw [replace_tuple]
    refine .tuple fun u member => ?_
    obtain ⟨t, before, rfl⟩ := List.mem_map.mp member
    exact elements t before d
  | sum _ _ left right => exact .sum (left d) (right d)
  | record distinct _ fields =>
    rw [replace_record]
    refine .record ?_ fun l u member => ?_
    · simpa [List.map_map, Function.comp_def] using distinct
    · obtain ⟨t, before, rfl⟩ := mem_map_snd.mp member
      exact fields l t before d
  | list _ element => exact .list (element d)
  | ref _ referent => exact .ref (referent d)
  | recursive _ body => exact .recursive (body (d + 1))

theorem Rigid.close {f : Form} (rigid : Rigid f) (position : String → Option Nat) :
    Rigid (f.close position) := by
  refine rigid.replace (fun d v => ?_) 0
  unfold closing
  repeat' split
  all_goals exact .var _

/-- Looking up each field of one record in another one of the same length meets every field, as no
label is listed twice. -/
theorem perm_labels {fs : List (String × α)} {gs : List (String × β)} (length : fs.length = gs.length)
    (distinct : (gs.map (·.1)).Nodup) (present : ∀ l u, (l, u) ∈ gs → ∃ t, fs.lookup l = some t) :
    (fs.map (·.1)).Perm (gs.map (·.1)) := by
  have within : gs.map (·.1) ⊆ fs.map (·.1) := by
    intro l member
    obtain ⟨⟨m, u⟩, inside, rfl⟩ := List.mem_map.mp member
    obtain ⟨t, found⟩ := present m u inside
    exact List.mem_map.mpr ⟨(m, t), mem_of_lookup found, rfl⟩
  exact ((List.subperm_of_subset distinct within).perm_of_length_le (by simp [length])).symm

theorem Conforms.reordered {f g : Form} (h : Conforms false f g) (first : Rigid f) (second : Rigid g) :
    Reordered f g := by
  induction h with
  | wildcard h =>
    rw [first.isWildcard, second.isWildcard] at h
    contradiction
  | toTop h => contradiction
  | fromBottom h => contradiction
  | constant c => exact .constant c
  | var v => exact .var v
  | arrow length _ _ params result =>
    cases first with
    | arrow before body =>
      cases second with
      | arrow after body' =>
        refine .arrow length (fun p q member => ?_) (result body body')
        obtain ⟨left, right⟩ := List.of_mem_zip member
        exact (params p q member (after q right) (before p left)).symm
  | forAll n _ bodies =>
    cases first with
    | forAll _ body => cases second with | forAll _ body' => exact .forAll n (bodies body body')
  | recursive _ bodies =>
    cases first with
    | recursive body => cases second with | recursive body' => exact .recursive (bodies body body')
  | tuple length _ elements =>
    cases first with
    | tuple before =>
      cases second with
      | tuple after =>
        refine .tuple length fun t u member => ?_
        obtain ⟨left, right⟩ := List.of_mem_zip member
        exact elements t u member (before t left) (after u right)
  | sum _ _ left right =>
    cases first with
    | sum l r => cases second with | sum l' r' => exact .sum (left l l') (right r r')
  | @record gs fs width present _ fields =>
    cases first with
    | record distinct before =>
      cases second with
      | record distinct' after =>
        have length : fs.length = gs.length := width.resolve_left (by simp)
        obtain ⟨hs, labels, order⟩ := exists_perm_map Prod.fst (perm_labels length distinct' present)
        refine .record labels (fun l t m u member => ?_) order
        obtain rfl := label_eq_of_mem_zip labels member
        obtain ⟨left, right⟩ := List.of_mem_zip member
        have inside := order.subset right
        exact fields l t u inside (lookup_of_nodup distinct left) (before l t left) (after l u inside)
  | variant => cases first
  | list _ element =>
    cases first with
    | list inner => cases second with | list inner' => exact .list (element inner inner')
  | ref _ _ there _ =>
    cases first with
    | ref inner => cases second with | ref inner' => exact .ref (there inner inner')

/-- Records conform if each field of the second has a partner in the first. -/
theorem conforms_record_of_partners {fs gs : List (String × Form)} (length : fs.length = gs.length)
    (distinct : (fs.map (·.1)).Nodup)
    (partners : ∀ l u, (l, u) ∈ gs → ∃ t, (l, t) ∈ fs ∧ Conforms false t u) :
    Conforms false (record fs) (record gs) := by
  refine .record (.inr length) (fun l u member => ?_) fun l t u member found => ?_
  · obtain ⟨t, inside, _⟩ := partners l u member
    exact ⟨t, lookup_of_nodup distinct inside⟩
  · obtain ⟨t', inside, conforms⟩ := partners l u member
    cases (lookup_of_nodup distinct inside).symm.trans found
    exact conforms

/-- Both directions are shown at once, as parameters and referents need both. -/
theorem Reordered.conforms {f g : Form} (h : Reordered f g) (first : Rigid f) (second : Rigid g) :
    Conforms false f g ∧ Conforms false g f := by
  induction h with
  | constant c => exact ⟨.constant c, .constant c⟩
  | var v => exact ⟨.var v, .var v⟩
  | arrow length _ _ params result =>
    cases first with
    | arrow before body =>
      cases second with
      | arrow after body' =>
        obtain ⟨there, back⟩ := result body body'
        have both p q (member : (p, q) ∈ _) :=
          params p q member (before p (List.of_mem_zip member).1) (after q (List.of_mem_zip member).2)
        constructor
        · exact .arrow length (fun p q member => (both p q member).2) there
        · exact .arrow length.symm (fun q p member => (both p q (Ty.mem_zip_swap member)).1) back
  | forAll n _ bodies =>
    cases first with
    | forAll _ body =>
      cases second with
      | forAll _ body' =>
        obtain ⟨there, back⟩ := bodies body body'
        exact ⟨.forAll n there, .forAll n back⟩
  | recursive _ bodies =>
    cases first with
    | recursive body =>
      cases second with
      | recursive body' =>
        obtain ⟨there, back⟩ := bodies body body'
        exact ⟨.recursive there, .recursive back⟩
  | tuple length _ elements =>
    cases first with
    | tuple before =>
      cases second with
      | tuple after =>
        have both t u (member : (t, u) ∈ _) :=
          elements t u member (before t (List.of_mem_zip member).1) (after u (List.of_mem_zip member).2)
        constructor
        · exact .tuple length fun t u member => (both t u member).1
        · exact .tuple length.symm fun u t member => (both t u (Ty.mem_zip_swap member)).2
  | sum _ _ left right =>
    cases first with
    | sum l r =>
      cases second with
      | sum l' r' =>
        obtain ⟨there, back⟩ := left l l'
        obtain ⟨there', back'⟩ := right r r'
        exact ⟨.sum there there', .sum back back'⟩
  | @record fs gs hs labels _ order fields =>
    cases first with
    | record distinct before =>
      cases second with
      | record distinct' after =>
        have length : fs.length = gs.length := by
          rw [← order.length_eq]
          simpa using congrArg List.length labels
        have both l t u (member : ((l, t), (l, u)) ∈ fs.zip hs) :=
          fields l t l u member (before l t (List.of_mem_zip member).1)
            (after l u (order.subset (List.of_mem_zip member).2))
        constructor
        · refine conforms_record_of_partners length distinct fun l u member => ?_
          obtain ⟨t, paired⟩ := exists_partner labels (order.symm.subset member)
          exact ⟨t, (List.of_mem_zip paired).1, (both l t u paired).1⟩
        · refine conforms_record_of_partners length.symm distinct' fun l t member => ?_
          obtain ⟨u, paired⟩ := exists_partner labels.symm member
          have swapped := Ty.mem_zip_swap paired
          exact ⟨u, order.subset (List.of_mem_zip paired).1, (both l t u swapped).2⟩
  | variant => cases first
  | list _ element =>
    cases first with
    | list inner =>
      cases second with
      | list inner' =>
        obtain ⟨there, back⟩ := element inner inner'
        exact ⟨.list there, .list back⟩
  | ref _ referent =>
    cases first with
    | ref inner =>
      cases second with
      | ref inner' =>
        obtain ⟨there, back⟩ := referent inner inner'
        exact ⟨.ref there back, .ref back there⟩

end Form

namespace Ty

def isVariant : Ty → Bool
  | variant _ => true
  | _ => false

/-- Plain types without variants. -/
structure Exact (t : Ty) : Prop extends t.Plain where
  variantless : ∀ u ∈ t.parts, u.isVariant = false

instance (t : Ty) : Decidable t.Exact :=
  decidable_of_iff (t.Plain ∧ ∀ u ∈ t.parts, u.isVariant = false)
    ⟨fun ⟨plain, variantless⟩ => ⟨plain, variantless⟩, fun exact => ⟨exact.toPlain, exact.variantless⟩⟩

theorem Exact.part {t u : Ty} (exact : t.Exact) (inside : u.parts ⊆ t.parts) : u.Exact where
  known v part := exact.known v (inside part)
  distinct v part := exact.distinct v (inside part)
  unquoted v part := exact.unquoted v (inside part)
  variantless v part := exact.variantless v (inside part)

theorem rigid_form (t : Ty) (exact : t.Exact) : t.form.Rigid := by
  cases t with
  | bool | nat | unit | top | bottom => exact .constant _ rfl
  | never | unknown | error =>
    have whole := exact.known _ (mem_parts_self _)
    contradiction
  | var x => exact .var (.free x)
  | arrow ps r =>
    rw [form_arrow]
    refine .arrow (fun f member => ?_) (rigid_form r (exact.part (by simp [parts])))
    obtain ⟨p, first, rfl⟩ := List.mem_map.mp member
    have smaller := size_lt_of_mem first
    exact rigid_form p (exact.part (parts_subset_arrow first))
  | forAll xs b => exact .forAll _ ((rigid_form b (exact.part (by simp [parts]))).close _)
  | recursive x b => exact .recursive ((rigid_form b (exact.part (by simp [parts]))).close _)
  | tuple ts =>
    rw [form_tuple]
    refine .tuple fun f member => ?_
    obtain ⟨t, first, rfl⟩ := List.mem_map.mp member
    have smaller := size_lt_of_mem first
    exact rigid_form t (exact.part (parts_subset_tuple first))
  | sum l r =>
    exact .sum (rigid_form l (exact.part (by simp [parts]))) (rigid_form r (exact.part (by simp [parts])))
  | record fs =>
    rw [form_record]
    refine .record ?_ fun l f member => ?_
    · have whole : (fs.map (·.1)).Nodup := exact.distinct _ (mem_parts_self _)
      simpa [List.map_map, Function.comp_def] using whole
    · obtain ⟨t, first, rfl⟩ := mem_map_snd.mp member
      have smaller := size_lt_of_mem_fields first
      exact rigid_form t (exact.part (parts_subset_record first))
  | variant fs =>
    have whole := exact.variantless _ (mem_parts_self _)
    contradiction
  | list t => exact .list (rigid_form t (exact.part (by simp [parts])))
  | ref t => exact .ref (rigid_form t (exact.part (by simp [parts])))
termination_by t.size
decreasing_by all_goals (subst_vars; simp only [size]; omega)

theorem conforms_exactly_iff {t u : Ty} (first : t.Exact) (second : u.Exact) :
    conforms false t u = true ↔ Form.Reordered t.form u.form := by
  rw [unquoted_alignable.conforms_iff first.unquoted second.unquoted]
  constructor
  · intro h
    exact h.reordered (rigid_form t first) (rigid_form u second)
  · intro h
    exact (h.conforms (rigid_form t first) (rigid_form u second)).1

/-- Without subtyping, types conform exactly if they are equal up to bound names and the order of
record fields, so it does not matter which of them is the expected one. -/
theorem conforms_iff_reordered {t u : Ty} (first : t.Exact) (second : u.Exact) :
    (conforms false t u = true ↔ Form.Reordered t.form u.form) ∧
      conforms false t u = conforms false u t := by
  have there := conforms_exactly_iff first second
  have back := conforms_exactly_iff second first
  refine ⟨there, Bool.eq_iff_iff.mpr ?_⟩
  rw [there, back]
  exact ⟨.symm, .symm⟩

theorem conforms_reordered_binders :
    let first := forAll ["X", "Y"] (record [("a", ref (var "X")), ("b", recursive "Z" (list (var "Z")))])
    let second := forAll ["Y", "X"] (record [("b", recursive "X" (list (var "X"))), ("a", ref (var "Y"))])
    first.Exact ∧ second.Exact ∧ Form.Reordered first.form second.form ∧
      conforms false first second = conforms false second first := by
  intro first second
  have exact : first.Exact := by decide
  have exact' : second.Exact := by decide
  have equal := conforms_iff_reordered exact exact'
  exact ⟨exact, exact', equal.1.mp (by decide +kernel), equal.2⟩

end Ty

end StellaLang
