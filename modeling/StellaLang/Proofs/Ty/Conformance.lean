import Mathlib.Data.List.Zip
import StellaLang.Ty.Conformance

/-! The rules of conformance, without the order in which `Ty.conforms` tries them.
`conforms_iff` says that the function decides the rules; what holds of all
conforming types is proved by induction on the rules. -/
namespace StellaLang

theorem mem_of_lookup {entries : List (String × α)} {l : String} {a : α}
    (found : entries.lookup l = some a) : (l, a) ∈ entries := by
  obtain ⟨before, after, rfl, -⟩ := List.lookup_eq_some_iff.mp found
  simp

theorem lookup_of_nodup {entries : List (String × α)} (distinct : (entries.map (·.1)).Nodup)
    {l : String} {a : α} (member : (l, a) ∈ entries) : entries.lookup l = some a := by
  induction entries with
  | nil => contradiction
  | cons entry entries ih =>
    obtain ⟨m, b⟩ := entry
    obtain ⟨new, distinct⟩ := List.nodup_cons.mp distinct
    rw [List.lookup_cons]
    rcases List.mem_cons.mp member with same | later
    · cases same
      simp
    · have other : (l == m) = false := by
        rw [beq_eq_false_iff_ne]
        rintro rfl
        exact new (List.mem_map.mpr ⟨(l, a), later, rfl⟩)
      rw [other]
      exact ih distinct later

theorem lookup_map_snd (g : α → β) (entries : List (String × α)) (l : String) :
    (entries.map fun (l, a) => (l, g a)).lookup l = (entries.lookup l).map g := by
  induction entries with
  | nil => rfl
  | cons entry entries ih =>
    obtain ⟨m, a⟩ := entry
    simp only [List.map_cons, List.lookup_cons]
    split
    · rfl
    · exact ih

theorem mem_map_snd {g : α → β} {entries : List (String × α)} {l : String} {b : β} :
    (l, b) ∈ entries.map (fun (l, a) => (l, g a)) ↔ ∃ a, (l, a) ∈ entries ∧ g a = b := by
  rw [List.mem_map]
  constructor
  · rintro ⟨⟨m, a⟩, member, same⟩
    obtain ⟨rfl, rfl⟩ := Prod.mk.inj same
    exact ⟨a, member, rfl⟩
  · rintro ⟨a, member, rfl⟩
    exact ⟨(l, a), member, rfl⟩

namespace Ty

/-- Conformance by rules. Parameters are compared the other way round, referents both
ways, and bodies after their binders have one name. -/
inductive Conforms (subtyping : Bool) : Ty → Ty → Prop where
  | wildcard (h : (t.isWildcard || u.isWildcard) = true) : Conforms subtyping t u
  | toTop (h : subtyping = true) : Conforms subtyping t top
  | fromBottom (h : subtyping = true) : Conforms subtyping bottom u
  | bool : Conforms subtyping bool bool
  | nat : Conforms subtyping nat nat
  | unit : Conforms subtyping unit unit
  | top : Conforms subtyping top top
  | bottom : Conforms subtyping bottom bottom
  | var (x : String) : Conforms subtyping (var x) (var x)
  | arrow (length : ps.length = qs.length)
      (params : ∀ p q, (p, q) ∈ ps.zip qs → Conforms subtyping q p)
      (result : Conforms subtyping r s) : Conforms subtyping (arrow ps r) (arrow qs s)
  | forAll (length : xs.length = ys.length)
      (bodies : Conforms subtyping (alignAll (xs.zip ys) b c).1 (alignAll (xs.zip ys) b c).2) :
      Conforms subtyping (forAll xs b) (forAll ys c)
  | recursive (bodies : Conforms subtyping (align b x c y).1 (align b x c y).2) :
      Conforms subtyping (recursive x b) (recursive y c)
  | tuple (length : ts.length = us.length)
      (elements : ∀ t u, (t, u) ∈ ts.zip us → Conforms subtyping t u) :
      Conforms subtyping (tuple ts) (tuple us)
  | sum (left : Conforms subtyping l l') (right : Conforms subtyping r r') :
      Conforms subtyping (sum l r) (sum l' r')
  | record (width : subtyping = true ∨ fs.length = gs.length)
      (present : ∀ l u, (l, u) ∈ gs → ∃ t, fs.lookup l = some t)
      (fields : ∀ l t u, (l, u) ∈ gs → fs.lookup l = some t → Conforms subtyping t u) :
      Conforms subtyping (record fs) (record gs)
  | variant (present : ∀ l p, (l, p) ∈ fs → ∃ q, gs.lookup l = some q ∧ q.isSome = p.isSome)
      (payloads : ∀ l t u, (l, some t) ∈ fs → gs.lookup l = some (some u) →
        Conforms subtyping t u) :
      Conforms subtyping (variant fs) (variant gs)
  | list (element : Conforms subtyping t u) : Conforms subtyping (list t) (list u)
  | ref (there : Conforms subtyping t u) (back : Conforms subtyping u t) :
      Conforms subtyping (ref t) (ref u)

theorem mem_zip_swap {as : List α} {bs : List β} {a : α} {b : β} (member : (a, b) ∈ as.zip bs) :
    (b, a) ∈ bs.zip as := by
  rw [← List.zip_swap]
  exact List.mem_map.mpr ⟨(a, b), member, rfl⟩

variable {subtyping : Bool}

theorem conformsAll_iff {ts us : List Ty} : conformsAll subtyping ts us = true ↔
    ts.length = us.length ∧ ∀ t u, (t, u) ∈ ts.zip us → conforms subtyping t u = true := by
  induction ts generalizing us with
  | nil => cases us <;> simp [conformsAll]
  | cons t ts ih =>
    cases us with
    | nil => simp [conformsAll]
    | cons u us =>
      simp only [conformsAll, Bool.and_eq_true, ih, List.length_cons, Nat.add_right_cancel_iff,
        List.zip_cons_cons, List.mem_cons, Prod.mk.injEq]
      constructor
      · rintro ⟨first, length, rest⟩
        refine ⟨length, ?_⟩
        rintro t' u' (⟨rfl, rfl⟩ | member)
        · exact first
        · exact rest t' u' member
      · rintro ⟨length, all⟩
        exact ⟨all t u (.inl ⟨rfl, rfl⟩), length, fun t' u' member => all t' u' (.inr member)⟩

theorem conformsFields_iff {fs gs : List (String × Ty)} : conformsFields subtyping fs gs = true ↔
    ∀ l u, (l, u) ∈ gs → ∃ t, fs.lookup l = some t ∧ conforms subtyping t u = true := by
  induction gs with
  | nil => simp [conformsFields]
  | cons g gs ih =>
    obtain ⟨m, w⟩ := g
    simp only [conformsFields, Bool.and_eq_true, ih, List.mem_cons, Prod.mk.injEq]
    constructor
    · rintro ⟨first, rest⟩ l u (⟨rfl, rfl⟩ | member)
      · split at first
        · exact ⟨_, ‹_›, first⟩
        · contradiction
      · exact rest l u member
    · intro all
      obtain ⟨t, found, conforming⟩ := all m w (.inl ⟨rfl, rfl⟩)
      refine ⟨?_, fun l u member => all l u (.inr member)⟩
      split <;> simp_all

/-- Conformance of what two alternatives with one label carry. -/
def conformsPayload (subtyping : Bool) : Option Ty → Option Ty → Bool
  | none, none => true
  | some t, some u => conforms subtyping t u
  | _, _ => false

theorem conformsAlternatives_iff {fs gs : List (String × Option Ty)} :
    conformsAlternatives subtyping fs gs = true ↔
      ∀ l p, (l, p) ∈ fs → ∃ q, gs.lookup l = some q ∧ conformsPayload subtyping p q = true := by
  induction fs with
  | nil => simp [conformsAlternatives]
  | cons f fs ih =>
    obtain ⟨m, p⟩ := f
    have head : conformsAlternatives subtyping ((m, p) :: fs) gs = true ↔
        (∃ q, gs.lookup m = some q ∧ conformsPayload subtyping p q = true) ∧
          conformsAlternatives subtyping fs gs = true := by
      cases p <;> simp only [conformsAlternatives, Bool.and_eq_true] <;>
        refine and_congr_left fun _ => ?_
      all_goals
        split
        · simp_all [conformsPayload]
        · refine ⟨fun h => by contradiction, ?_⟩
          rintro ⟨q, found, conforming⟩
          cases q <;> simp_all [conformsPayload]
    rw [head, ih]
    simp only [List.mem_cons, Prod.mk.injEq]
    constructor
    · rintro ⟨first, rest⟩ l q (⟨rfl, rfl⟩ | member)
      · exact first
      · exact rest l q member
    · intro all
      exact ⟨all m p (.inl ⟨rfl, rfl⟩), fun l q member => all l q (.inr member)⟩

section Shapes

theorem conforms_of_wildcard {t u : Ty} (h : (t.isWildcard || u.isWildcard) = true) :
    conforms subtyping t u = true := by
  rw [conforms.eq_def, if_pos h]

@[simp] theorem conforms_arrow (ps qs : List Ty) (r s : Ty) :
    conforms subtyping (arrow ps r) (arrow qs s) =
      (conformsAll subtyping qs ps && conforms subtyping r s) := by
  rw [conforms.eq_def]
  cases subtyping <;> rfl

@[simp] theorem conforms_forAll (xs ys : List String) (b c : Ty) :
    conforms subtyping (forAll xs b) (forAll ys c) =
      (xs.length == ys.length &&
        conforms subtyping (alignAll (xs.zip ys) b c).1 (alignAll (xs.zip ys) b c).2) := by
  rw [conforms.eq_def]
  cases subtyping <;> rfl

@[simp] theorem conforms_recursive (x y : String) (b c : Ty) :
    conforms subtyping (recursive x b) (recursive y c) =
      conforms subtyping (align b x c y).1 (align b x c y).2 := by
  rw [conforms.eq_def]
  cases subtyping <;> rfl

@[simp] theorem conforms_tuple (ts us : List Ty) :
    conforms subtyping (tuple ts) (tuple us) = conformsAll subtyping ts us := by
  rw [conforms.eq_def]
  cases subtyping <;> rfl

@[simp] theorem conforms_sum (l r l' r' : Ty) :
    conforms subtyping (sum l r) (sum l' r') =
      (conforms subtyping l l' && conforms subtyping r r') := by
  rw [conforms.eq_def]
  cases subtyping <;> rfl

@[simp] theorem conforms_record (fs gs : List (String × Ty)) :
    conforms subtyping (record fs) (record gs) =
      ((subtyping || fs.length == gs.length) && conformsFields subtyping fs gs) := by
  rw [conforms.eq_def]
  cases subtyping <;> rfl

@[simp] theorem conforms_variant (fs gs : List (String × Option Ty)) :
    conforms subtyping (variant fs) (variant gs) = conformsAlternatives subtyping fs gs := by
  rw [conforms.eq_def]
  cases subtyping <;> rfl

@[simp] theorem conforms_list (t u : Ty) :
    conforms subtyping (list t) (list u) = conforms subtyping t u := by
  rw [conforms.eq_def]
  cases subtyping <;> rfl

@[simp] theorem conforms_ref (t u : Ty) :
    conforms subtyping (ref t) (ref u) =
      (conforms subtyping t u && conforms subtyping u t) := by
  rw [conforms.eq_def]
  cases subtyping <;> rfl

end Shapes

theorem size_lt_of_mem {ts : List Ty} {t : Ty} (member : t ∈ ts) : t.size < sizes ts := by
  obtain ⟨column, found⟩ := List.mem_iff_getElem?.mp member
  exact size_lt_of_getElem? found

theorem size_lt_of_mem_fields {fs : List (String × Ty)} {l : String} {t : Ty}
    (member : (l, t) ∈ fs) : t.size < fieldSizes fs := by
  rw [← sizes_map_snd]
  exact size_lt_of_mem (List.mem_map.mpr ⟨_, member, rfl⟩)

theorem size_lt_of_mem_alternatives {fs : List (String × Option Ty)} {l : String} {t : Ty}
    (member : (l, some t) ∈ fs) : t.size < alternativeSizes fs := by
  induction fs with
  | nil => contradiction
  | cons f fs ih =>
    obtain ⟨m, p⟩ := f
    rcases List.mem_cons.mp member with same | member
    · cases same
      simp only [alternativeSizes]
      omega
    · have := ih member
      cases p <;> simp only [alternativeSizes] <;> omega

theorem Conforms.of_conforms {t u : Ty} (h : Ty.conforms subtyping t u = true) :
    Conforms subtyping t u := by
  rw [conforms.eq_def] at h
  split at h
  · exact .wildcard ‹_›
  split at h
  · rename_i extreme
    cases t <;> cases u <;> simp_all [isTop, isBottom, Conforms.toTop, Conforms.fromBottom]
  split at h
  case h_1 => exact .bool
  case h_2 => exact .nat
  case h_3 => exact .unit
  case h_4 => exact .top
  case h_5 => exact .bottom
  case h_6 x y _ _ =>
    obtain rfl : x = y := by simpa using h
    exact .var x
  case h_7 ps r qs s _ _ =>
    simp only [Bool.and_eq_true, conformsAll_iff] at h
    refine .arrow h.1.1.symm (fun p q member => ?_) (of_conforms h.2)
    have := size_lt_of_mem (List.of_mem_zip member).1
    have := size_lt_of_mem (List.of_mem_zip member).2
    exact of_conforms (h.1.2 q p (mem_zip_swap member))
  case h_8 xs b ys c _ _ =>
    have := size_alignAll (xs.zip ys) b c
    simp only [Bool.and_eq_true, beq_iff_eq] at h
    exact .forAll h.1 (of_conforms h.2)
  case h_9 x b y c _ _ =>
    have := size_align b c x y
    exact .recursive (of_conforms h)
  case h_10 ts us _ _ =>
    rw [conformsAll_iff] at h
    refine .tuple h.1 fun t u member => ?_
    have := size_lt_of_mem (List.of_mem_zip member).1
    have := size_lt_of_mem (List.of_mem_zip member).2
    exact of_conforms (h.2 t u member)
  case h_11 =>
    simp only [Bool.and_eq_true] at h
    exact .sum (of_conforms h.1) (of_conforms h.2)
  case h_12 fs gs _ _ =>
    simp only [Bool.and_eq_true, Bool.or_eq_true, beq_iff_eq, conformsFields_iff] at h
    refine .record h.1 (fun l u member => ?_) fun l t u member found => ?_
    · obtain ⟨t, found, _⟩ := h.2 l u member
      exact ⟨t, found⟩
    · obtain ⟨t', found', conforming⟩ := h.2 l u member
      obtain rfl := Option.some.inj (found.symm.trans found')
      have := size_lt_of_lookup found
      have := size_lt_of_mem_fields member
      exact of_conforms conforming
  case h_13 fs gs _ _ =>
    rw [conformsAlternatives_iff] at h
    refine .variant (fun l p member => ?_) fun l t u member found => ?_
    · obtain ⟨q, found, conforming⟩ := h l p member
      refine ⟨q, found, ?_⟩
      cases p <;> cases q <;> simp_all [conformsPayload]
    · obtain ⟨q, found', conforming⟩ := h l _ member
      obtain rfl := Option.some.inj (found.symm.trans found')
      have := size_lt_of_mem_alternatives member
      have := size_lt_of_lookup_alternative found
      exact of_conforms conforming
  case h_14 => exact .list (of_conforms h)
  case h_15 =>
    simp only [Bool.and_eq_true] at h
    exact .ref (of_conforms h.1) (of_conforms h.2)
  case h_16 => contradiction
termination_by t.size + u.size
decreasing_by all_goals (simp_all only [size]; omega)

theorem Conforms.conforms {t u : Ty} (h : Conforms subtyping t u) :
    Ty.conforms subtyping t u = true := by
  induction h with
  | wildcard h => exact conforms_of_wildcard h
  | toTop h => rw [conforms.eq_def]; simp [h, isTop]
  | fromBottom h => rw [conforms.eq_def]; simp [h, isBottom]
  | bool | nat | unit | top | bottom | var => simp [Ty.conforms, isWildcard]
  | arrow length _ _ params result =>
    simp only [conforms_arrow, Bool.and_eq_true, conformsAll_iff]
    exact ⟨⟨length.symm, fun q p member => params p q (mem_zip_swap member)⟩, result⟩
  | forAll length _ bodies => simp [length, bodies]
  | recursive _ bodies => simp [bodies]
  | tuple length _ elements => simp only [conforms_tuple, conformsAll_iff]; exact ⟨length, elements⟩
  | sum _ _ left right => simp [left, right]
  | record width present _ fields =>
    simp only [conforms_record, Bool.and_eq_true, conformsFields_iff]
    refine ⟨by simpa using width, fun l u member => ?_⟩
    obtain ⟨t, found⟩ := present l u member
    exact ⟨t, found, fields l t u member found⟩
  | variant present _ payloads =>
    simp only [conforms_variant, conformsAlternatives_iff]
    intro l p member
    obtain ⟨q, found, same⟩ := present l p member
    refine ⟨q, found, ?_⟩
    cases p <;> cases q <;> simp_all [conformsPayload]
    exact payloads l _ _ member found
  | list _ element => simp [element]
  | ref _ _ there back => simp [there, back]

theorem conforms_iff {t u : Ty} : conforms subtyping t u = true ↔ Conforms subtyping t u :=
  ⟨Conforms.of_conforms, Conforms.conforms⟩

/-- Subtyping asks for less. -/
theorem Conforms.with_subtyping {t u : Ty} (h : Conforms subtyping t u) : Conforms true t u := by
  induction h with
  | wildcard h => exact .wildcard h
  | toTop => exact .toTop rfl
  | fromBottom => exact .fromBottom rfl
  | bool => exact .bool
  | nat => exact .nat
  | unit => exact .unit
  | top => exact .top
  | bottom => exact .bottom
  | var x => exact .var x
  | arrow length _ _ params result => exact .arrow length params result
  | forAll length _ bodies => exact .forAll length bodies
  | recursive _ bodies => exact .recursive bodies
  | tuple length _ elements => exact .tuple length elements
  | sum _ _ left right => exact .sum left right
  | record _ present _ fields => exact .record (.inl rfl) present fields
  | variant present _ payloads => exact .variant present payloads
  | list _ element => exact .list element
  | ref _ _ there back => exact .ref there back

theorem conforms_with_subtyping {t u : Ty} (h : conforms subtyping t u = true) :
    conforms true t u = true :=
  (Conforms.of_conforms h).with_subtyping.conforms

end Ty

end StellaLang
