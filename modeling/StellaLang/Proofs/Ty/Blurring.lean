import StellaLang.Proofs.Ty.Preorder
import StellaLang.Proofs.Ty.Renaming

/-! Types with constants in place of some parts. With wildcards in place of them, at any depth and
on both sides, what conforms still conforms: a wildcard is put where two parts are compared or
not compared at all, and the names it makes disappear are only those that binders avoid.

Forms carry the argument, since in them the fresh names for aligned binders do not occur. -/
namespace StellaLang

open Ty (Labelled)

section Lists

theorem exists_of_mem_right {R : α → β → Prop} {as : List α} {bs : List β}
    (related : List.Forall₂ R as bs) {b : β} (member : b ∈ bs) : ∃ a ∈ as, R a b := by
  induction related with
  | nil => cases member
  | @cons a c as bs first _ ih =>
    rcases List.mem_cons.mp member with rfl | later
    · exact ⟨a, List.mem_cons_self, first⟩
    · obtain ⟨d, inside, related⟩ := ih later
      exact ⟨d, List.mem_cons_of_mem a inside, related⟩

/-- Entries of two lists side by side come from entries of related lists side by side. -/
theorem exists_of_mem_zip {R : α → γ → Prop} {S : β → δ → Prop} {as : List α} {cs : List γ}
    (first : List.Forall₂ R as cs) {bs : List β} {ds : List δ} (second : List.Forall₂ S bs ds)
    {c : γ} {d : δ} (member : (c, d) ∈ cs.zip ds) : ∃ a b, (a, b) ∈ as.zip bs ∧ R a c ∧ S b d := by
  induction first generalizing bs ds with
  | nil => cases member
  | @cons a c' as cs one _ ih =>
    cases second with
    | nil => cases member
    | @cons b d' bs ds other rest =>
      rw [List.zip_cons_cons, List.mem_cons] at member
      rcases member with here | later
      · obtain ⟨rfl, rfl⟩ := Prod.mk.inj here
        exact ⟨a, b, List.mem_cons_self, one, other⟩
      · obtain ⟨a', b', inside, related⟩ := ih rest later
        exact ⟨a', b', List.mem_cons_of_mem _ inside, related⟩

theorem forall₂_labelled_iff {R : α → β → Prop} {fs : List (String × α)} {gs : List (String × β)} :
    List.Forall₂ (Labelled R) fs gs ↔
      fs.map (·.1) = gs.map (·.1) ∧ List.Forall₂ R (fs.map (·.2)) (gs.map (·.2)) := by
  induction fs generalizing gs with
  | nil => cases gs <;> simp
  | cons f fs ih =>
    cases gs with
    | nil => simp
    | cons g gs =>
      simp only [List.forall₂_cons, ih, Labelled, List.map_cons, List.cons.injEq]
      tauto

theorem exists_getElem?_right {R : α → β → Prop} {as : List α} {bs : List β}
    (related : List.Forall₂ R as bs) {i : Nat} {a : α} (found : as[i]? = some a) :
    ∃ b, bs[i]? = some b ∧ R a b := by
  have one := Ty.rel_getElem? related i
  rw [found] at one
  generalize bs[i]? = other at one ⊢
  cases one with
  | some one => exact ⟨_, rfl, one⟩

variable {R : α → β → Prop} {fs : List (String × α)} {gs : List (String × β)}

theorem exists_lookup_right (related : List.Forall₂ (Labelled R) fs gs) {l : String} {a : α}
    (found : fs.lookup l = some a) : ∃ b, gs.lookup l = some b ∧ R a b := by
  have shared := Ty.rel_lookup related l
  rw [found] at shared
  generalize gs.lookup l = other at shared ⊢
  cases shared with
  | some one => exact ⟨_, rfl, one⟩

theorem exists_lookup_left (related : List.Forall₂ (Labelled R) fs gs) {l : String} {b : β}
    (found : gs.lookup l = some b) : ∃ a, fs.lookup l = some a ∧ R a b := by
  have shared := Ty.rel_lookup related l
  rw [found] at shared
  generalize fs.lookup l = other at shared ⊢
  cases shared with
  | some one => exact ⟨_, rfl, one⟩

theorem forall₂_labelled_iff_zip : List.Forall₂ (Labelled R) fs gs ↔
    fs.map (·.1) = gs.map (·.1) ∧ ∀ l t m u, ((l, t), (m, u)) ∈ fs.zip gs → R t u := by
  rw [forall₂_labelled_iff, List.forall₂_iff_zip, List.zip_map]
  simp only [List.mem_map, Prod.exists, Prod.map_apply, Prod.mk.injEq, List.length_map]
  constructor
  · rintro ⟨labels, -, values⟩
    exact ⟨labels, fun l t m u member => values ⟨l, t, m, u, member, rfl, rfl⟩⟩
  · rintro ⟨labels, fields⟩
    refine ⟨labels, by simpa using congrArg List.length labels, ?_⟩
    rintro _ _ ⟨l, t, m, u, member, rfl, rfl⟩
    exact fields l t m u member

theorem rel_iff {p : Option α} {q : Option β} :
    Option.Rel R p q ↔ q.isSome = p.isSome ∧ ∀ t u, p = some t → q = some u → R t u := by
  cases p <;> cases q <;> simp

theorem forall₂_alternatives_iff {fs : List (String × Option α)} {gs : List (String × Option β)} :
    List.Forall₂ (Labelled (Option.Rel R)) fs gs ↔
      fs.map (·.1) = gs.map (·.1) ∧ (∀ l p m q, ((l, p), (m, q)) ∈ fs.zip gs → q.isSome = p.isSome) ∧
        ∀ l t m u, ((l, some t), (m, some u)) ∈ fs.zip gs → R t u := by
  simp only [forall₂_labelled_iff_zip, rel_iff]
  constructor
  · rintro ⟨labels, payloads⟩
    refine ⟨labels, fun l p m q member => (payloads l p m q member).1, fun l t m u member => ?_⟩
    exact (payloads l _ m _ member).2 t u rfl rfl
  · rintro ⟨labels, present, payloads⟩
    refine ⟨labels, fun l p m q member => ⟨present l p m q member, ?_⟩⟩
    rintro t u rfl rfl
    exact payloads l t m u member

theorem forall₂_map_fields {S : γ → δ → Prop} {f : α → γ} {g : β → δ}
    (fields : List.Forall₂ (Labelled fun a b => S (f a) (g b)) fs gs) :
    List.Forall₂ (Labelled S) (fs.map fun (l, a) => (l, f a)) (gs.map fun (l, b) => (l, g b)) := by
  rw [List.forall₂_map_left_iff, List.forall₂_map_right_iff]
  exact fields

theorem forall₂_map_payloads {S : γ → δ → Prop} {f : α → γ} {g : β → δ} {fs : List (String × Option α)}
    {gs : List (String × Option β)}
    (payloads : List.Forall₂ (Labelled (Option.Rel fun a b => S (f a) (g b))) fs gs) :
    List.Forall₂ (Labelled (Option.Rel S)) (fs.map fun (l, p) => (l, p.map f))
      (gs.map fun (l, q) => (l, q.map g)) := by
  rw [List.forall₂_map_left_iff, List.forall₂_map_right_iff]
  refine payloads.imp ?_
  rintro ⟨l, p⟩ ⟨m, q⟩ ⟨same, payload⟩
  refine ⟨same, ?_⟩
  cases payload with
  | none => exact .none
  | some one => exact .some one

end Lists

namespace Form

/-- The second form is the first one with constants that hide in place of some parts. -/
inductive Blurred (hides : Constant → Prop) : Form → Form → Prop where
  | hidden (f : Form) (chosen : hides c) : Blurred hides f (constant c)
  | constant (c : Constant) : Blurred hides (constant c) (constant c)
  | var (v : Var) : Blurred hides (var v) (var v)
  | arrow (length : ps.length = qs.length) (params : ∀ p q, (p, q) ∈ ps.zip qs → Blurred hides p q)
      (result : Blurred hides r s) : Blurred hides (arrow ps r) (arrow qs s)
  | forAll (n : Nat) (bodies : Blurred hides b c) : Blurred hides (forAll n b) (forAll n c)
  | tuple (length : ts.length = us.length) (elements : ∀ t u, (t, u) ∈ ts.zip us → Blurred hides t u) :
      Blurred hides (tuple ts) (tuple us)
  | sum (left : Blurred hides l l') (right : Blurred hides r r') :
      Blurred hides (sum l r) (sum l' r')
  | record (labels : fs.map (·.1) = gs.map (·.1))
      (fields : ∀ l t m u, ((l, t), (m, u)) ∈ fs.zip gs → Blurred hides t u) :
      Blurred hides (record fs) (record gs)
  | variant (labels : fs.map (·.1) = gs.map (·.1))
      (present : ∀ l p m q, ((l, p), (m, q)) ∈ fs.zip gs → q.isSome = p.isSome)
      (payloads : ∀ l t m u, ((l, some t), (m, some u)) ∈ fs.zip gs → Blurred hides t u) :
      Blurred hides (variant fs) (variant gs)
  | list (element : Blurred hides t u) : Blurred hides (list t) (list u)
  | ref (referent : Blurred hides t u) : Blurred hides (ref t) (ref u)
  | recursive (bodies : Blurred hides b c) : Blurred hides (recursive b) (recursive c)

namespace Blurred

variable {hides : Constant → Prop}

section Images

variable {φ : α → Form} {ψ : β → Form}

theorem of_params {ps : List α} {qs : List β} {r s : Form} (length : ps.length = qs.length)
    (params : ∀ p q, (p, q) ∈ ps.zip qs → Blurred hides (φ p) (ψ q)) (result : Blurred hides r s) :
    Blurred hides (Form.arrow (ps.map φ) r) (Form.arrow (qs.map ψ) s) := by
  refine arrow (by simpa using length) (fun p q member => ?_) result
  obtain ⟨a, b, inside, rfl, rfl⟩ := mem_zip_map.mp member
  exact params a b inside

theorem of_elements {ts : List α} {us : List β} (length : ts.length = us.length)
    (elements : ∀ t u, (t, u) ∈ ts.zip us → Blurred hides (φ t) (ψ u)) :
    Blurred hides (Form.tuple (ts.map φ)) (Form.tuple (us.map ψ)) := by
  refine tuple (by simpa using length) fun t u member => ?_
  obtain ⟨a, b, inside, rfl, rfl⟩ := mem_zip_map.mp member
  exact elements a b inside

theorem of_fields {fs : List (String × α)} {gs : List (String × β)}
    (labels : fs.map (·.1) = gs.map (·.1))
    (fields : ∀ l t m u, ((l, t), (m, u)) ∈ fs.zip gs → Blurred hides (φ t) (ψ u)) :
    Blurred hides (Form.record (fs.map fun (l, t) => (l, φ t)))
      (Form.record (gs.map fun (l, u) => (l, ψ u))) := by
  have each := forall₂_labelled_iff_zip.mpr ⟨labels, fields⟩
  obtain ⟨labels, fields⟩ := forall₂_labelled_iff_zip.mp (forall₂_map_fields each)
  exact record labels fields

theorem of_payloads {fs : List (String × Option α)} {gs : List (String × Option β)}
    (labels : fs.map (·.1) = gs.map (·.1))
    (present : ∀ l p m q, ((l, p), (m, q)) ∈ fs.zip gs → q.isSome = p.isSome)
    (payloads : ∀ l t m u, ((l, some t), (m, some u)) ∈ fs.zip gs → Blurred hides (φ t) (ψ u)) :
    Blurred hides (Form.variant (fs.map fun (l, p) => (l, p.map φ)))
      (Form.variant (gs.map fun (l, q) => (l, q.map ψ))) := by
  have each := forall₂_alternatives_iff.mpr ⟨labels, present, payloads⟩
  obtain ⟨labels, present, payloads⟩ := forall₂_alternatives_iff.mp (forall₂_map_payloads each)
  exact variant labels present payloads

end Images

variable {f g : Form}

theorem refl (f : Form) : Blurred hides f f := by
  induction f using induct with
  | constant c => exact constant c
  | var v => exact var v
  | arrow ps r params result =>
    refine arrow rfl (fun p q member => ?_) result
    obtain rfl := Ty.eq_of_mem_zip_self member
    exact params p (List.of_mem_zip member).1
  | forAll n b body => exact forAll n body
  | tuple ts elements =>
    refine tuple rfl fun t u member => ?_
    obtain rfl := Ty.eq_of_mem_zip_self member
    exact elements t (List.of_mem_zip member).1
  | sum l r left right => exact sum left right
  | record fs fields =>
    refine record rfl fun l t m u member => ?_
    cases Ty.eq_of_mem_zip_self member
    exact fields l t (List.of_mem_zip member).1
  | variant fs payloads =>
    refine variant rfl (fun l p m q member => ?_) fun l t m u member => ?_
    · cases Ty.eq_of_mem_zip_self member
      rfl
    · cases Ty.eq_of_mem_zip_self member
      exact payloads l t (List.of_mem_zip member).1
  | list t element => exact list element
  | ref t referent => exact ref referent
  | recursive b body => exact recursive body

/-- Variables are replaced on both sides. -/
theorem replace {σ τ : Nat → Var → Form} (put : ∀ d v, Blurred hides (σ d v) (τ d v))
    (h : Blurred hides f g) (d : Nat) : Blurred hides (f.replace σ d) (g.replace τ d) := by
  induction h generalizing d with
  | hidden f chosen => exact hidden _ chosen
  | constant c => exact constant c
  | var v => exact put d v
  | arrow length _ _ params result =>
    rw [replace_arrow, replace_arrow]
    exact of_params length (fun p q member => params p q member d) (result d)
  | forAll n _ bodies => exact forAll n (bodies (d + 1))
  | tuple length _ elements =>
    rw [replace_tuple, replace_tuple]
    exact of_elements length fun t u member => elements t u member d
  | sum _ _ left right => exact sum (left d) (right d)
  | record labels _ fields =>
    rw [replace_record, replace_record]
    exact of_fields labels fun l t m u member => fields l t m u member d
  | variant labels present _ payloads =>
    rw [replace_variant, replace_variant]
    exact of_payloads labels present fun l t m u member => payloads l t m u member d
  | list _ element => exact list (element d)
  | ref _ referent => exact ref (referent d)
  | recursive _ bodies => exact recursive (bodies (d + 1))

theorem close (position : String → Option Nat) (h : Blurred hides f g) :
    Blurred hides (f.close position) (g.close position) :=
  h.replace (fun _ _ => refl _) 0

theorem isWildcard (wild : ∀ c, hides c → (Form.constant c).isWildcard = true) (h : Blurred hides f g)
    (wildcard : f.isWildcard = true) : g.isWildcard = true := by
  cases h with
  | hidden _ chosen => exact wild _ chosen
  | constant => exact wildcard
  | _ => cases wildcard

end Blurred

/-- What conforms still conforms with wildcards in place of some parts. -/
theorem Conforms.blurred {subtyping : Bool} {hides : Constant → Prop}
    (wild : ∀ c, hides c → (Form.constant c).isWildcard = true) {f g f' g' : Form}
    (h : Conforms subtyping f g) (first : Blurred hides f f') (second : Blurred hides g g') :
    Conforms subtyping f' g' := by
  have left {c : Constant} (chosen : hides c) (g : Form) : Conforms subtyping (Form.constant c) g :=
    .wildcard (by rw [wild c chosen, Bool.true_or])
  have right (f : Form) {c : Constant} (chosen : hides c) : Conforms subtyping f (Form.constant c) :=
    .wildcard (by rw [wild c chosen, Bool.or_true])
  induction h generalizing f' g' with
  | wildcard h =>
    rw [Bool.or_eq_true_iff] at h
    exact .wildcard (Bool.or_eq_true_iff.mpr (h.imp (first.isWildcard wild) (second.isWildcard wild)))
  | toTop mode =>
    cases second with
    | hidden _ chosen => exact right _ chosen
    | constant => exact .toTop mode
  | fromBottom mode =>
    cases first with
    | hidden _ chosen => exact left chosen _
    | constant => exact .fromBottom mode
  | constant c =>
    cases first with
    | hidden _ chosen => exact left chosen _
    | constant =>
      cases second with
      | hidden _ chosen => exact right _ chosen
      | constant => exact .constant c
  | var v =>
    cases first with
    | hidden _ chosen => exact left chosen _
    | var =>
      cases second with
      | hidden _ chosen => exact right _ chosen
      | var => exact .var v
  | arrow length _ _ params result =>
    cases first with
    | hidden _ chosen => exact left chosen _
    | arrow length₁ ps r =>
      cases second with
      | hidden _ chosen => exact right _ chosen
      | arrow length₂ qs s =>
        refine .arrow (length₁.symm.trans (length.trans length₂)) (fun p q member => ?_) (result r s)
        obtain ⟨p', q', inside, one, other⟩ := exists_of_mem_zip (List.forall₂_iff_zip.mpr ⟨length₁, ps _ _⟩)
          (List.forall₂_iff_zip.mpr ⟨length₂, qs _ _⟩) member
        exact params p' q' inside other one
  | forAll n _ bodies =>
    cases first with
    | hidden _ chosen => exact left chosen _
    | forAll _ b =>
      cases second with
      | hidden _ chosen => exact right _ chosen
      | forAll _ c => exact .forAll n (bodies b c)
  | recursive _ bodies =>
    cases first with
    | hidden _ chosen => exact left chosen _
    | recursive b =>
      cases second with
      | hidden _ chosen => exact right _ chosen
      | recursive c => exact .recursive (bodies b c)
  | tuple length _ elements =>
    cases first with
    | hidden _ chosen => exact left chosen _
    | tuple length₁ ts =>
      cases second with
      | hidden _ chosen => exact right _ chosen
      | tuple length₂ us =>
        refine .tuple (length₁.symm.trans (length.trans length₂)) fun t u member => ?_
        obtain ⟨t', u', inside, one, other⟩ := exists_of_mem_zip (List.forall₂_iff_zip.mpr ⟨length₁, ts _ _⟩)
          (List.forall₂_iff_zip.mpr ⟨length₂, us _ _⟩) member
        exact elements t' u' inside one other
  | sum _ _ before after =>
    cases first with
    | hidden _ chosen => exact left chosen _
    | sum l r =>
      cases second with
      | hidden _ chosen => exact right _ chosen
      | sum l' r' => exact .sum (before l l') (after r r')
  | record width present _ fields =>
    cases first with
    | hidden _ chosen => exact left chosen _
    | record labels values =>
      cases second with
      | hidden _ chosen => exact right _ chosen
      | record labels' values' =>
        have entries := forall₂_labelled_iff_zip.mpr ⟨labels, values⟩
        have entries' := forall₂_labelled_iff_zip.mpr ⟨labels', values'⟩
        refine .record (by rwa [← entries.length_eq, ← entries'.length_eq]) (fun l u member => ?_)
          fun l t u member found => ?_
        · obtain ⟨⟨_, u'⟩, inside, rfl, -⟩ := exists_of_mem_right entries' member
          obtain ⟨t, found⟩ := present _ u' inside
          obtain ⟨t', found', -⟩ := exists_lookup_right entries found
          exact ⟨t', found'⟩
        · obtain ⟨⟨_, u'⟩, inside, rfl, other⟩ := exists_of_mem_right entries' member
          obtain ⟨t', found', one⟩ := exists_lookup_left entries found
          exact fields _ t' u' inside found' one other
  | variant present _ payloads =>
    cases first with
    | hidden _ chosen => exact left chosen _
    | variant labels shapes values =>
      cases second with
      | hidden _ chosen => exact right _ chosen
      | variant labels' shapes' values' =>
        have entries := forall₂_alternatives_iff.mpr ⟨labels, shapes, values⟩
        have entries' := forall₂_alternatives_iff.mpr ⟨labels', shapes', values'⟩
        refine .variant (fun l p member => ?_) fun l t u member found => ?_
        · obtain ⟨⟨_, p'⟩, inside, rfl, one⟩ := exists_of_mem_right entries member
          obtain ⟨q', found, carried⟩ := present _ p' inside
          obtain ⟨q, found', other⟩ := exists_lookup_right entries' found
          have kept : q.isSome = q'.isSome := (rel_iff.mp other).1
          exact ⟨q, found', kept.trans (carried.trans (rel_iff.mp one).1.symm)⟩
        · obtain ⟨⟨_, p'⟩, inside, rfl, one⟩ := exists_of_mem_right entries member
          obtain ⟨q', found', other⟩ := exists_lookup_left entries' found
          cases one with
          | some one =>
            cases other with
            | some other => exact payloads _ _ _ inside found' one other
  | list _ element =>
    cases first with
    | hidden _ chosen => exact left chosen _
    | list t =>
      cases second with
      | hidden _ chosen => exact right _ chosen
      | list u => exact .list (element t u)
  | ref _ _ there back =>
    cases first with
    | hidden _ chosen => exact left chosen _
    | ref t =>
      cases second with
      | hidden _ chosen => exact right _ chosen
      | ref u => exact .ref (there t u) (back u t)

end Form

namespace Ty

/-- The second type is the first one with wildcards in place of some parts, at any depth. -/
inductive Blurred : Ty → Ty → Prop where
  | hidden (t : Ty) (wildcard : u.isWildcard = true) : Blurred t u
  | kept (t : Ty) : Blurred t t
  | arrow (length : ps.length = qs.length) (params : ∀ p q, (p, q) ∈ ps.zip qs → Blurred p q)
      (result : Blurred r s) : Blurred (arrow ps r) (arrow qs s)
  | forAll (xs : List String) (bodies : Blurred b c) : Blurred (forAll xs b) (forAll xs c)
  | tuple (length : ts.length = us.length) (elements : ∀ t u, (t, u) ∈ ts.zip us → Blurred t u) :
      Blurred (tuple ts) (tuple us)
  | sum (left : Blurred l l') (right : Blurred r r') : Blurred (sum l r) (sum l' r')
  | record (labels : fs.map (·.1) = gs.map (·.1))
      (fields : ∀ l t m u, ((l, t), (m, u)) ∈ fs.zip gs → Blurred t u) :
      Blurred (record fs) (record gs)
  | variant (labels : fs.map (·.1) = gs.map (·.1))
      (present : ∀ l p m q, ((l, p), (m, q)) ∈ fs.zip gs → q.isSome = p.isSome)
      (payloads : ∀ l t m u, ((l, some t), (m, some u)) ∈ fs.zip gs → Blurred t u) :
      Blurred (variant fs) (variant gs)
  | list {t u : Ty} (element : Blurred t u) : Blurred (list t) (list u)
  | ref {t u : Ty} (referent : Blurred t u) : Blurred (ref t) (ref u)
  | recursive (x : String) (bodies : Blurred b c) : Blurred (recursive x b) (recursive x c)

theorem Unquoted.of_components {t u : Ty} (unquoted : t.Unquoted) (none : u.scopeless = true)
    (each : List.Forall₂ (fun c d => c.Unquoted → d.Unquoted) t.components u.components) :
    u.Unquoted := by
  intro v part
  rcases (mem_parts_iff none).mp part with rfl | ⟨d, member, inside⟩
  · cases v with
    | forAll | recursive => contradiction
    | _ => simp [bound]
  · obtain ⟨c, before, kept⟩ := exists_of_mem_right each member
    exact kept (fun w inner => unquoted w (parts_subset_of_mem_components before inner)) v inside

theorem unquoted_forAll_iff {xs : List String} {b : Ty} :
    (forAll xs b).Unquoted ↔ (∀ x ∈ xs, ¬Quoted x) ∧ b.Unquoted := by
  simp only [Unquoted, parts, List.forall_mem_cons, bound]

theorem unquoted_recursive_iff {x : String} {b : Ty} :
    (recursive x b).Unquoted ↔ ¬Quoted x ∧ b.Unquoted := by
  simp [Unquoted, parts, bound]

namespace Blurred

variable {t u : Ty}

/-- A blurred type binds nothing that the whole one does not bind. -/
theorem unquoted (h : Blurred t u) (unquoted : t.Unquoted) : u.Unquoted := by
  induction h with
  | @hidden u t wildcard =>
    cases u with
    | never | unknown | error =>
      intro v part
      obtain rfl := List.mem_singleton.mp part
      exact fun x member => nomatch member
    | _ => cases wildcard
  | kept => exact unquoted
  | arrow length _ _ params result =>
    have each := List.forall₂_iff_zip.mpr ⟨length, params _ _⟩
    exact unquoted.of_components rfl (.cons result each)
  | forAll xs _ body =>
    obtain ⟨names, inside⟩ := unquoted_forAll_iff.mp unquoted
    exact unquoted_forAll_iff.mpr ⟨names, body inside⟩
  | recursive x _ body =>
    obtain ⟨name, inside⟩ := unquoted_recursive_iff.mp unquoted
    exact unquoted_recursive_iff.mpr ⟨name, body inside⟩
  | tuple length _ elements =>
    have each := List.forall₂_iff_zip.mpr ⟨length, elements _ _⟩
    exact unquoted.of_components rfl each
  | sum _ _ left right => exact unquoted.of_components rfl (.cons left (.cons right .nil))
  | record labels _ fields =>
    have each := forall₂_labelled_iff_zip.mpr ⟨labels, fields⟩
    exact unquoted.of_components rfl (forall₂_labelled_iff.mp each).2
  | variant labels present _ payloads =>
    have each := forall₂_alternatives_iff.mpr ⟨labels, present, payloads⟩
    exact unquoted.of_components rfl (List.rel_filterMap (fun _ _ one => one.2) each)
  | list _ element => exact unquoted.of_components rfl (.cons element .nil)
  | ref _ referent => exact unquoted.of_components rfl (.cons referent .nil)

theorem form (h : Blurred t u) :
    Form.Blurred (fun c => (Form.constant c).isWildcard = true) t.form u.form := by
  induction h with
  | @hidden u t wildcard =>
    cases u with
    | never | unknown | error => exact .hidden _ rfl
    | _ => cases wildcard
  | kept t => exact .refl t.form
  | arrow length _ _ params result =>
    rw [form_arrow, form_arrow]
    exact .of_params length params result
  | forAll xs _ body => exact .forAll _ (body.close _)
  | recursive x _ body => exact .recursive (body.close _)
  | tuple length _ elements =>
    rw [form_tuple, form_tuple]
    exact .of_elements length elements
  | sum _ _ left right => exact .sum left right
  | record labels _ fields =>
    rw [form_record, form_record]
    exact .of_fields labels fields
  | variant labels present _ payloads =>
    rw [form_variant, form_variant]
    exact .of_payloads labels present payloads
  | list _ element => exact .list element
  | ref _ referent => exact .ref referent

end Blurred

/-- Wildcards only make conformance easier. Parts that are replaced may stand under binders, on
both sides of references and among the parameters of functions, where the two types change places. -/
theorem conforms_blurred {subtyping : Bool} {t u t' u' : Ty} (unquoted : t.Unquoted)
    (unquoted' : u.Unquoted) (first : Blurred t t') (second : Blurred u u')
    (h : conforms subtyping t u = true) : conforms subtyping t' u' = true := by
  rw [unquoted_alignable.conforms_iff unquoted unquoted'] at h
  rw [unquoted_alignable.conforms_iff (first.unquoted unquoted) (second.unquoted unquoted')]
  exact h.blurred (fun _ wild => wild) first.form second.form

/-- Of the first type a referent is hidden. Of the second one a field of the parameter and the whole result
are, so that it no longer mentions the name that it binds. -/
theorem conforms_blurred_below_binders :
    let pair a b := record [("a", a), ("b", b)]
    let first := forAll ["X"] (arrow [record [("a", nat)]] (ref (var "X")))
    let second := forAll ["Y"] (arrow [pair nat bool] (ref (var "Y")))
    let first' := forAll ["X"] (arrow [record [("a", nat)]] (ref unknown))
    let second' := forAll ["Y"] (arrow [pair never bool] error)
    first.Unquoted ∧ second.Unquoted ∧ Blurred first first' ∧ Blurred second second' ∧
      conforms true first second = true ∧ conforms true first' second' = true := by
  intro pair first second first' second'
  have conforming : conforms true first second = true := by decide +kernel
  have left : Blurred first first' := by
    have result : Blurred (ref (var "X")) (ref unknown) := .ref (.hidden _ rfl)
    refine .forAll _ (.arrow rfl (fun p q member => ?_) result)
    cases List.mem_singleton.mp member
    exact .kept _
  have right : Blurred second second' := by
    have argument : Blurred (pair nat bool) (pair never bool) := by
      refine .record rfl fun l t m u member => ?_
      rcases List.mem_pair.mp member with same | same
      · cases same
        exact .hidden _ rfl
      · cases same
        exact .kept _
    refine .forAll _ (.arrow rfl (fun p q member => ?_) (.hidden _ rfl))
    cases List.mem_singleton.mp member
    exact argument
  have unquoted : first.Unquoted := by decide
  have unquoted' : second.Unquoted := by decide
  exact ⟨unquoted, unquoted', left, right, conforming,
    conforms_blurred unquoted unquoted' left right conforming⟩

/-- The condition on bound names is needed. Where `'1` is hidden it is a fresh name for the first binder, and
the second binder has that name. -/
example :
    let first := forAll ["'", "'1"] (tuple [var "'1", var "'"])
    let first' := forAll ["'", "'1"] (tuple [unknown, var "'"])
    let second := forAll ["X", "Y"] (tuple [var "Y", var "X"])
    conforms false first second = true ∧ conforms false first' second = false := by
  decide +kernel

end Ty

end StellaLang
