import Mathlib.Logic.Relation
import StellaLang.Proofs.Coverage.Resemblance

/-! What a match leaves out does not depend on how its cases are written down. -/
namespace StellaLang

namespace Syntax.Pattern

/-- That a step is taken at one place of a pattern, at any depth. -/
inductive Inside (step : Located Pattern → Located Pattern → Prop) :
    Located Pattern → Located Pattern → Prop where
  | here (taken : step p q) : Inside step p q
  | castAs (inner : Inside step p q) : Inside step ⟨.castAs p type, position⟩ ⟨.castAs q type, position⟩
  | ascribed (inner : Inside step p q) :
      Inside step ⟨.ascribed p type, position⟩ ⟨.ascribed q type, position⟩
  | payload (inner : Inside step p q) :
      Inside step ⟨.variant l (some p), position⟩ ⟨.variant l (some q), position⟩
  | inl (inner : Inside step p q) : Inside step ⟨.inl p, position⟩ ⟨.inl q, position⟩
  | inr (inner : Inside step p q) : Inside step ⟨.inr p, position⟩ ⟨.inr q, position⟩
  | component (before after : List (Located Pattern)) (inner : Inside step p q) :
      Inside step ⟨.tuple (before ++ p :: after), position⟩ ⟨.tuple (before ++ q :: after), position⟩
  | field (before after : List (String × Located Pattern)) (inner : Inside step p q) :
      Inside step ⟨.record (before ++ (l, p) :: after), position⟩
        ⟨.record (before ++ (l, q) :: after), position⟩
  | element (before after : List (Located Pattern)) (inner : Inside step p q) :
      Inside step ⟨.list (before ++ p :: after), position⟩ ⟨.list (before ++ q :: after), position⟩
  | head (inner : Inside step p q) : Inside step ⟨.cons p tail, position⟩ ⟨.cons q tail, position⟩
  | tail (inner : Inside step p q) : Inside step ⟨.cons h p, position⟩ ⟨.cons h q, position⟩
  | succ (inner : Inside step p q) : Inside step ⟨.succ p, position⟩ ⟨.succ q, position⟩

theorem allIrrefutable_eq_all (ps : List (Located Pattern)) : allIrrefutable ps = ps.all isIrrefutable := by
  induction ps with
  | nil => rfl
  | cons p ps ih => rw [allIrrefutable, ih, List.all_cons]

theorem allFieldsIrrefutable_eq_all (fs : List (String × Located Pattern)) :
    allFieldsIrrefutable fs = fs.all fun f => isIrrefutable f.2 := by
  induction fs with
  | nil => rfl
  | cons f fs ih => rw [allFieldsIrrefutable, ih, List.all_cons]

end Syntax.Pattern

namespace Coverage

open Syntax (Pattern TypeExpr)
open Syntax.Pattern

section Steps

variable {step : Located Pattern → Located Pattern → Prop}

/-- A pattern, or what it becomes by a step at one place. -/
abbrev Rewritten (step : Located Pattern → Located Pattern → Prop) :
    Located Pattern → Located Pattern → Prop :=
  Relation.ReflGen (Inside step)

theorem rel_refl {R : α → α → Prop} (refl : ∀ a, R a a) (o : Option α) : Option.Rel R o o := by
  cases o with
  | none => exact .none
  | some a => exact .some (refl a)

theorem relatedRows_refl (row : Row) : RelatedRows (Rewritten step) row row :=
  List.forall₂_same.mpr fun cell _ => rel_refl (fun _ => .refl) cell

theorem Resembles.refl (p : Located Pattern) : Resembles (Rewritten step) p p where
  inl? := rel_refl (fun _ => .refl) _
  inr? := rel_refl (fun _ => .refl) _
  payload? _ := rel_refl (rel_refl fun _ => .refl) _
  tuple _ := rel_refl relatedRows_refl _
  record _ := rel_refl relatedRows_refl _

theorem lookup_append_cons (before after : List (String × Located Pattern)) (l m : String)
    (p : Located Pattern) : (before ++ (m, p) :: after).lookup l =
      (before.lookup l).or (if l = m then some p else after.lookup l) := by
  rw [List.lookup_append, List.lookup_cons]
  by_cases same : l = m
  · simp [same]
  · have other : (l == m) = false := by simpa using same
    simp only [other, if_neg same]

/-- A step taken somewhere in a pattern is a step taken in one of its parts, or in none. -/
theorem Resembles.of_inside (base : ∀ p q, step p q → Resembles (Rewritten step) p q)
    {p q : Located Pattern} (inside : Inside step p q) : Resembles (Rewritten step) p q := by
  induction inside with
  | here taken => exact base _ _ taken
  | castAs => exact {}
  | ascribed inner ih => exact ⟨ih.1, ih.2, ih.3, ih.4, ih.5, ih.6, ih.7, ih.8, ih.9, ih.10⟩
  | @payload p q l position inner ih =>
    refine { payload? := fun m => ?_ }
    change Option.Rel _ (if l = m then some (some p) else none) (if l = m then some (some q) else none)
    split
    · exact .some (.some (.single inner))
    · exact .none
  | inl inner => exact { inl? := .some (.single inner) }
  | inr inner => exact { inr? := .some (.single inner) }
  | @component p q position before after inner ih =>
    have irrefutable : allIrrefutable (before ++ p :: after) = allIrrefutable (before ++ q :: after) := by
      simp [allIrrefutable_eq_all, ih.irrefutable]
    refine { irrefutable := irrefutable, shape := ?_, tuple := fun width => ?_ }
    · change (if allIrrefutable _ = true then _ else _) = if allIrrefutable _ = true then _ else _
      rw [irrefutable]
    · simp only [Row.ofTuple?, strip, strip.stripNode, List.length_append, List.length_cons]
      split
      · refine .some ?_
        rw [List.map_append, List.map_append, List.map_cons, List.map_cons]
        exact List.rel_append (relatedRows_refl _) (.cons (.some (.single inner)) (relatedRows_refl _))
      · exact .none
  | @field p q l position before after inner ih =>
    have irrefutable : allFieldsIrrefutable (before ++ (l, p) :: after) =
        allFieldsIrrefutable (before ++ (l, q) :: after) := by
      simp [allFieldsIrrefutable_eq_all, ih.irrefutable]
    refine { irrefutable := irrefutable, shape := ?_, record := fun labels => .some ?_ }
    · change (if allFieldsIrrefutable _ = true then _ else _) =
        if allFieldsIrrefutable _ = true then _ else _
      rw [irrefutable]
    · refine List.forall₂_map_left_iff.mpr (List.forall₂_map_right_iff.mpr ?_)
      refine List.forall₂_same.mpr fun m _ => ?_
      rw [lookup_append_cons, lookup_append_cons]
      cases before.lookup m with
      | some r => exact .some .refl
      | none =>
        dsimp only [Option.none_or]
        split
        · exact .some (.single inner)
        · exact rel_refl (fun _ => .refl) _
  | @element p q position before after inner ih =>
    have nonempty (r : Located Pattern) : Pattern.isNil ⟨.list (before ++ r :: after), position⟩ = false := by
      cases before <;> rfl
    exact { isNil := (nonempty p).trans (nonempty q).symm }
  | @head p q tail position inner ih =>
    exact { isAnyCons := congrArg (· && isIrrefutable tail) ih.irrefutable }
  | @tail p q h position inner ih =>
    exact { isAnyCons := congrArg (isIrrefutable h && ·) ih.irrefutable }
  | succ inner ih => exact { shape := congrArg (Option.map NatShape.succ) ih.shape }

theorem indistinct_of_base (base : ∀ p q, step p q → Resembles (Rewritten step) p q) :
    Indistinct (Rewritten step) := by
  rintro p q (_ | inside)
  · exact .refl p
  · exact .of_inside base inside

end Steps

/-- A pattern is what it becomes when an ascription is put around it. -/
inductive Ascribing : Located Pattern → Located Pattern → Prop where
  | wrap (p : Located Pattern) (type : Located TypeExpr) (position : Option Position) :
      Ascribing p ⟨.ascribed p type, position⟩

/-- Another way to write down a list of cases: in another order, with one of them repeated, or with
an ascription put around a part of one. -/
inductive Rewrites : List (Located Pattern) → List (Located Pattern) → Prop where
  | reordered (permuted : ps.Perm qs) : Rewrites ps qs
  | repeated (member : p ∈ ps) : Rewrites ps (p :: ps)
  | ascribed (before after : List (Located Pattern)) (inner : Inside Ascribing p q) :
      Rewrites (before ++ p :: after) (before ++ q :: after)

theorem Resembles.ascribing {p q : Located Pattern} (taken : Ascribing p q) :
    Resembles (Rewritten Ascribing) p q := by
  cases taken with
  | wrap type position =>
  have same : Resembles (Rewritten Ascribing) p p := .refl p
  obtain ⟨_, _, _, _, _, inl, inr, payload, tuple, record⟩ := same
  exact ⟨rfl, rfl, rfl, rfl, rfl, inl, inr, payload, tuple, record⟩

theorem Matched.of_perm {R : α → α → Prop} (refl : ∀ a, R a a) {xs ys : List α} (permuted : xs.Perm ys) :
    Matched R xs ys where
  left x member := ⟨x, permuted.subset member, refl x⟩
  right y member := ⟨y, permuted.symm.subset member, refl y⟩

theorem Matched.replace {R : α → α → Prop} (refl : ∀ a, R a a) (before after : List α) (related : R x y) :
    Matched R (before ++ x :: after) (before ++ y :: after) where
  left z member := by
    simp only [List.mem_append, List.mem_cons] at member ⊢
    rcases member with here | rfl | here
    · exact ⟨z, .inl here, refl z⟩
    · exact ⟨y, .inr (.inl rfl), related⟩
    · exact ⟨z, .inr (.inr here), refl z⟩
  right z member := by
    simp only [List.mem_append, List.mem_cons] at member ⊢
    rcases member with here | rfl | here
    · exact ⟨z, .inl here, refl z⟩
    · exact ⟨x, .inr (.inl rfl), related⟩
    · exact ⟨z, .inr (.inr here), refl z⟩

theorem Rewrites.matched {ps qs : List (Located Pattern)} (rewritten : Rewrites ps qs) :
    Matched (Rewritten Ascribing) ps qs := by
  cases rewritten with
  | reordered permuted => exact .of_perm (fun _ => .refl) permuted
  | repeated member =>
    exact ⟨fun x here => ⟨x, List.mem_cons_of_mem _ here, .refl⟩, fun y here =>
      ⟨y, (List.mem_cons.mp here).elim (fun same => same ▸ member) id, .refl⟩⟩
  | ascribed before after inner => exact .replace (fun _ => .refl) before after (.single inner)

/-- What a match leaves out does not depend on how its cases are written down: it is the same list
when they are reordered or repeated, and when parts of them are put into ascriptions or taken out of
them, any number of times. -/
theorem missing_rewritten (t : Ty) {ps qs : List (Located Pattern)}
    (rewritten : Relation.EqvGen Rewrites ps qs) : missing t ps = missing t qs := by
  induction rewritten with
  | rel ps qs one => exact missing_eq (indistinct_of_base fun _ _ => .ascribing) t one.matched
  | refl => rfl
  | symm _ _ _ ih => exact ih.symm
  | trans _ _ _ _ _ first second => exact first.trans second

theorem missing_rewritten_sum :
    Relation.EqvGen Rewrites
        [⟨.inl ⟨.bool true, none⟩, none⟩, ⟨.inr ⟨.succ ⟨.var "n", none⟩, none⟩, none⟩]
        [⟨.inr ⟨.succ ⟨.ascribed ⟨.var "n", none⟩ ⟨.nat, none⟩, none⟩, none⟩, none⟩,
          ⟨.inl ⟨.bool true, none⟩, none⟩, ⟨.inl ⟨.bool true, none⟩, none⟩] ∧
      missing (.sum .bool .nat)
          [⟨.inl ⟨.bool true, none⟩, none⟩, ⟨.inr ⟨.succ ⟨.var "n", none⟩, none⟩, none⟩] =
        missing (.sum .bool .nat)
          [⟨.inr ⟨.succ ⟨.ascribed ⟨.var "n", none⟩ ⟨.nat, none⟩, none⟩, none⟩, none⟩,
            ⟨.inl ⟨.bool true, none⟩, none⟩, ⟨.inl ⟨.bool true, none⟩, none⟩] := by
  have wrapped : Rewrites
      [⟨.inl ⟨.bool true, none⟩, none⟩, ⟨.inr ⟨.succ ⟨.var "n", none⟩, none⟩, none⟩]
      [⟨.inl ⟨.bool true, none⟩, none⟩,
        ⟨.inr ⟨.succ ⟨.ascribed ⟨.var "n", none⟩ ⟨.nat, none⟩, none⟩, none⟩, none⟩] :=
    .ascribed [_] [] (.inr (.succ (.here (.wrap _ _ _))))
  have rewritten := (((Relation.EqvGen.rel _ _ wrapped).trans _ _ _
    (.rel _ _ (.repeated List.mem_cons_self))).trans _ _ _
      (.rel _ _ (.reordered (List.perm_append_singleton _ [_, _]))))
  exact ⟨rewritten, missing_rewritten _ rewritten⟩

end Coverage

end StellaLang
