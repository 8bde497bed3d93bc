import StellaLang.Proofs.Coverage.Accepted
import StellaLang.Proofs.Coverage.Gaps
import StellaLang.Proofs.Coverage.Rewriting

/-! The fields of record patterns. Three parts of the checker read them: the check of the pattern takes
them as they stand, a pattern is irrefutable if all of them are, and the columns of a record type look
them up by their labels. As long as no label is repeated, these agree on what a pattern asks for, and
the order of the fields does not matter. -/
namespace StellaLang

open Syntax (Pattern TypeExpr)
open Syntax.Pattern

namespace Syntax.Pattern

/-- The types of the ascriptions around a pattern, from the outside in. -/
def ascribedTypes : Located Pattern → List (Located TypeExpr)
  | ⟨p, _⟩ => ofNode p
where
  ofNode : Pattern → List (Located TypeExpr)
    | ascribed p type => type :: ascribedTypes p
    | _ => []

end Syntax.Pattern

namespace Coverage

/-- A record pattern becomes one with its fields in another order. Of fields with one label, the first
one stays the first. -/
inductive Permuting : Located Pattern → Located Pattern → Prop where
  | fields (permuted : fs.Perm gs) (firsts : ∀ l, fs.lookup l = gs.lookup l) :
      Permuting ⟨.record fs, position⟩ ⟨.record gs, position⟩

/-- One pattern of a list has the fields of one record pattern in it permuted. -/
inductive Permutes : List (Located Pattern) → List (Located Pattern) → Prop where
  | inside (before after : List (Located Pattern)) (inner : Inside Permuting p q) :
      Permutes (before ++ p :: after) (before ++ q :: after)

theorem lookup_perm {fs gs : List (String × α)} (distinct : (fs.map (·.1)).Nodup) (permuted : fs.Perm gs)
    (l : String) : fs.lookup l = gs.lookup l := by
  refine Option.ext fun a => ⟨fun found => ?_, fun found => ?_⟩
  · have distinct' := (permuted.map (·.1)).nodup_iff.mp distinct
    exact lookup_of_nodup distinct' (permuted.subset (mem_of_lookup found))
  · exact lookup_of_nodup distinct (permuted.symm.subset (mem_of_lookup found))

theorem Permuting.of_distinct {fs gs : List (String × Located Pattern)}
    (distinct : (fs.map (·.1)).Nodup) (permuted : fs.Perm gs) (position : Option Position) :
    Permuting ⟨.record fs, position⟩ ⟨.record gs, position⟩ :=
  .fields permuted (lookup_perm distinct permuted)

theorem Permuting.resembles {p q : Located Pattern} (taken : Permuting p q) :
    Resembles (Rewritten Permuting) p q := by
  cases taken with
  | @fields fs position gs permuted firsts =>
  have irrefutable : allFieldsIrrefutable fs = allFieldsIrrefutable gs := by
    rw [allFieldsIrrefutable_eq_all, allFieldsIrrefutable_eq_all]
    exact permuted.all_eq
  refine { irrefutable := irrefutable, shape := ?_, record := fun labels => .some ?_ }
  · change (if allFieldsIrrefutable _ = true then _ else _) = if allFieldsIrrefutable _ = true then _ else _
    rw [irrefutable]
  · simp only [firsts]
    exact relatedRows_refl _

theorem Permutes.missing_eq {ps qs : List (Located Pattern)} (permuted : Permutes ps qs) (t : Ty) :
    missing t ps = missing t qs := by
  cases permuted with
  | inside before after inner =>
    exact Coverage.missing_eq (indistinct_of_base fun _ _ => Permuting.resembles) t
      (.replace (fun _ => .refl) before after (.single inner))

end Coverage

namespace Typing

open Coverage

/-- A type that has no labels other than these to offer to a pattern. -/
inductive Offers (labels : List String) : Ty → Prop where
  | top : Offers labels .top
  | record (among : ∀ l t, (l, t) ∈ gs → l ∈ labels) : Offers labels (.record gs)

theorem Offers.of_conforms {labels : List String} {subtyping : Bool} {t u : Ty} (offers : Offers labels t)
    (conforms : Ty.Conforms subtyping t u) (plain : u.isWildcard = false) : Offers labels u := by
  cases offers with
  | top =>
    cases conforms with
    | wildcard either =>
      rw [plain] at either
      contradiction
    | toTop => exact .top
    | top => exact .top
  | record among =>
    cases conforms with
    | wildcard either =>
      rw [plain] at either
      contradiction
    | toTop => exact .top
    | record width present fields =>
      refine .record fun l u member => ?_
      obtain ⟨t, found⟩ := present l u member
      exact among l t (mem_of_lookup found)

theorem labels_of_quietFields {ctx : Context} {p : Progress} {gs : List (String × Ty)}
    {position : Option Position} {fs : List (String × Located Pattern)}
    (quiet : Quiet (bindingsFields ctx gs position fs) p)
    (l : String) (q : Located Pattern) (member : (l, q) ∈ fs) : ∃ t, gs.lookup l = some t := by
  induction fs generalizing p with
  | nil => contradiction
  | cons f fs ih =>
    obtain ⟨m, r⟩ := f
    rw [bindingsFields_cons] at quiet
    cases listed : gs.lookup m with
    | none =>
      rw [listed] at quiet
      exact absurd (quiet.bind (.report _ _) fun _ =>
        (bindingsFields_follows ctx gs position fs).built).1 Quiet.not_report
    | some t =>
      rw [listed] at quiet
      have others := ((quiet.bind (bindings_built ctx t r) fun _ =>
        .bind (bindingsFields_follows ctx gs position fs).built fun _ => .answer _).2.bind
          (bindingsFields_follows ctx gs position fs).built fun _ => .answer _).1
      rcases List.mem_cons.mp member with same | later
      · cases same
        exact ⟨t, listed⟩
      · exact ih others later

section Labels

variable {ctx : Context} {labels : List String} {fs : List (String × Located Pattern)} {l : String}
  {r : Located Pattern}

mutual

/-- A record pattern that no ascription hides is only accepted if its labels are offered. -/
theorem labels_of_quiet {t : Ty} {q : Located Pattern} {p : Progress} (shape : strip q = .record fs)
    (quiet : Quiet (bindings ctx t q) p)
    (plain : ∀ type ∈ ascribedTypes q, (denote ctx [] type).isWildcard = false)
    (offers : Offers labels t) (member : (l, r) ∈ fs) : l ∈ labels := by
  obtain ⟨q, position⟩ := q
  exact labels_of_quietNode shape quiet.guarded plain offers member
termination_by structural q

theorem labels_of_quietNode {t : Ty} {q : Pattern} {position : Option Position} {p : Progress}
    (shape : strip.stripNode q = .record fs) (quiet : Quiet (bindingsNode ctx t position q) p)
    (plain : ∀ type ∈ ascribedTypes.ofNode q, (denote ctx [] type).isWildcard = false)
    (offers : Offers labels t) (member : (l, r) ∈ fs) : l ∈ labels := by
  cases q with
  | ascribed q type =>
    rw [bindingsNode] at quiet
    obtain ⟨-, rest⟩ := quiet.bind (meaning_follows ctx type).built fun ascribed =>
      .bind (require_follows ctx t ascribed position).built fun _ => bindings_built ctx ascribed q
    obtain ⟨required, body⟩ := rest.bind (require_follows ctx t _ position).built fun _ =>
      bindings_built ctx _ q
    have here := plain type List.mem_cons_self
    rw [← meaning_answer ctx type quiet.sound] at here
    exact labels_of_quiet (q := q) shape body (fun u inner => plain u (List.mem_cons_of_mem type inner))
      (offers.of_conforms (.of_conforms required.conforms_of_require) here) member
  | record gs =>
    cases shape
    cases offers with
    | top => exact absurd quiet Quiet.not_reported
    | record among =>
      obtain ⟨t, found⟩ := labels_of_quietFields quiet l r member
      exact among l t (mem_of_lookup found)
  | _ => cases shape
termination_by structural q

end

end Labels

/-- The row of a record pattern for the columns of a type has each of its fields, and asks for something
just if one of them does. -/
theorem row_of_distinct {labels : List String} {q : Located Pattern}
    {fs : List (String × Located Pattern)} (shape : strip q = .record fs)
    (distinct : (fs.map (·.1)).Nodup) (among : ∀ l p, (l, p) ∈ fs → l ∈ labels) :
    ∃ row, Row.ofRecord? labels q = some row ∧
      (∀ l p, (l, p) ∈ fs → ∃ column, labels[column]? = some l ∧ row.cell column = some p) ∧
      (refutableColumns labels.length [row] = [] ↔ isIrrefutable q = true) := by
  generalize columns : (labels.map fun l => fs.lookup l : Row) = row
  have cell (column : Nat) : Row.cell row column = labels[column]?.bind fun l => fs.lookup l := by
    subst columns
    rw [Row.cell, List.getD_eq_getElem?_getD, List.getElem?_map]
    cases labels[column]? <;> rfl
  have placed : ∀ l p, (l, p) ∈ fs → ∃ column, labels[column]? = some l ∧ Row.cell row column = some p := by
    intro l p member
    obtain ⟨column, found⟩ := List.mem_iff_getElem?.mp (among l p member)
    exact ⟨column, found, by rw [cell, found, Option.bind_some, lookup_of_nodup distinct member]⟩
  refine ⟨row, by rw [Row.ofRecord?, shape, ← columns], placed, ?_⟩
  rw [isIrrefutable_strip, shape, isIrrefutableNode, allFieldsIrrefutable_eq_all, List.all_eq_true,
    refutableColumns, List.filter_eq_nil_iff]
  constructor
  · rintro none ⟨l, p⟩ member
    obtain ⟨column, found, stands⟩ := placed l p member
    have inside : column ∈ List.range labels.length :=
      List.mem_range.mpr (List.getElem?_eq_some_iff.mp found).1
    simpa [Row.isRefutableAt, stands] using none column inside
  · intro all column inside
    simp only [List.any_cons, List.any_nil, Bool.or_false, Row.isRefutableAt, cell]
    cases asked : labels[column]?.bind fun l => fs.lookup l with
    | none => simp
    | some p =>
      obtain ⟨l, -, found⟩ := Option.bind_eq_some_iff.mp asked
      simp [all (l, p) (mem_of_lookup found)]

/-- The order of the fields in record patterns does not matter where no label is repeated: however
often the fields of record patterns are permuted, at any depth, the match leaves out the same. And no
field is ignored: in a record pattern that the checker accepts, each field stands in the column of its
label, so some column may fail to match just if the pattern may. -/
theorem record_patterns_unordered (t : Ty) {ps qs : List (Located Pattern)}
    (permuted : Relation.ReflTransGen Permutes ps qs) :
    missing t ps = missing t qs ∧
    (∀ {fs gs : List (String × Located Pattern)} (position : Option Position),
      (fs.map (·.1)).Nodup → fs.Perm gs → Permuting ⟨.record fs, position⟩ ⟨.record gs, position⟩) ∧
    ∀ {ctx : Context} {gs : List (String × Ty)} {q : Located Pattern}
      {fs : List (String × Located Pattern)}, Accepted ctx (.record gs) q → strip q = .record fs →
      (fs.map (·.1)).Nodup →
      (∀ type ∈ ascribedTypes q, (denote ctx [] type).isWildcard = false) →
      ∃ row, Row.ofRecord? (gs.map (·.1)) q = some row ∧
        (∀ l p, (l, p) ∈ fs →
          ∃ column, (gs.map (·.1))[column]? = some l ∧ row.cell column = some p) ∧
        (refutableColumns gs.length [row] = [] ↔ isIrrefutable q = true) := by
  refine ⟨?_, fun position distinct permuted => .of_distinct distinct permuted position, ?_⟩
  · induction permuted with
    | refl => rfl
    | tail _ one ih => exact ih.trans (one.missing_eq t)
  · rintro ctx gs q fs ⟨p, reached, active, errors⟩ shape distinct plain
    have offers : Offers (gs.map (·.1)) (.record gs) :=
      .record fun l t member => List.mem_map.mpr ⟨(l, t), member, rfl⟩
    have among : ∀ l r, (l, r) ∈ fs → l ∈ gs.map (·.1) := fun l r member =>
      labels_of_quiet shape ⟨active, reached.cacheSound, errors⟩ plain offers member
    simpa only [List.length_map] using row_of_distinct shape distinct among

/-- A switch with a name. -/
def named : Ty := .record [("on", .bool), ("name", .nat)]

theorem named_unordered :
    let p : Located Pattern := ⟨.record [("name", ⟨.var "n", none⟩), ("on", ⟨.bool true, none⟩)], none⟩
    let q : Located Pattern := ⟨.record [("on", ⟨.bool true, none⟩), ("name", ⟨.var "n", none⟩)], none⟩
    Accepted {} named p ∧ missing named [p] = missing named [q] ∧
      ∃ row, Row.ofRecord? ["on", "name"] p = some row ∧
        (∃ column, ["on", "name"][column]? = some "on" ∧ row.cell column = some ⟨.bool true, none⟩) ∧
        (refutableColumns 2 [row] = [] ↔ Pattern.isIrrefutable p = true) := by
  intro p q
  have accepted : Accepted {} named p := ⟨{}, .start {}, rfl, by decide +kernel⟩
  have swapped : Permuting p q := .of_distinct (by decide) (.swap _ _ _) none
  obtain ⟨same, -, kept⟩ :=
    record_patterns_unordered named (.single (.inside [] [] (.here swapped)))
  obtain ⟨row, stands, placed, agree⟩ := kept accepted rfl (by decide) (by decide +kernel)
  exact ⟨accepted, same, row, stands, placed "on" _ (by simp), agree⟩

/-- Of two fields with one label only the first is looked at. -/
theorem repeated_field_ignored :
    ¬∀ (ctx : Context) (t : Ty) (fs gs : List (String × Located Pattern)), fs.Perm gs →
      Accepted ctx t ⟨.record fs, none⟩ → Accepted ctx t ⟨.record gs, none⟩ →
      missing t [⟨.record fs, none⟩] = missing t [⟨.record gs, none⟩] := by
  intro unordered
  let fs : List (String × Located Pattern) := [("x", ⟨.var "a", none⟩), ("x", ⟨.bool true, none⟩)]
  let gs : List (String × Located Pattern) := [("x", ⟨.bool true, none⟩), ("x", ⟨.var "a", none⟩)]
  have same := unordered {} (.record [("x", .bool)]) fs gs (.swap _ _ _)
    ⟨{}, .start {}, rfl, by decide +kernel⟩ ⟨{}, .start {}, rfl, by decide +kernel⟩
  have covered : missing (.record [("x", .bool)]) [⟨.record fs, none⟩] = [] := by decide +kernel
  have open_ : (missing (.record [("x", .bool)]) [⟨.record gs, none⟩]).isEmpty = false := by
    decide +kernel
  rw [← same, covered] at open_
  contradiction

end Typing

end StellaLang
