import StellaLang.Proofs.Ty.Conformance
import StellaLang.Typing.Progress

/-! When the type of two alternatives is an upper bound of theirs. The merge of two types keeps
the first where they differ, in parameters too, so it is a bound of both just if what it
keeps is. -/
namespace StellaLang

namespace Ty

/-- On which side of two types a third one is asked to be. -/
inductive Side where
  | above
  | below
deriving DecidableEq, Repr

def Side.flip : Side → Side
  | above => below
  | below => above

/-- Whether a type is a bound of two others on a side. -/
def bounds (subtyping : Bool) (side : Side) (m t u : Ty) : Bool :=
  match side with
  | .above => conforms subtyping t m && conforms subtyping u m
  | .below => conforms subtyping m t && conforms subtyping m u

/-- The same for the elements of lists. -/
def boundsAll (subtyping : Bool) (side : Side) (ms ts us : List Ty) : Bool :=
  match side with
  | .above => conformsAll subtyping ts ms && conformsAll subtyping us ms
  | .below => conformsAll subtyping ms ts && conformsAll subtyping ms us

/-- Whether the alternatives of two variants, of which those of the first count, are a
bound of both: above, the second may only add labels to the first and must agree on
the shared ones; below, it may not even add labels. -/
def keepsAlternatives (subtyping : Bool) (side : Side) (fs gs : List (String × Option Ty)) : Bool :=
  match side with
  | .above => conformsAlternatives subtyping (fs ++ gs) (fs ++ gs)
  | .below =>
    gs.all (fun g => fs.any (·.1 == g.1)) && conformsAlternatives subtyping fs fs &&
      conformsAlternatives subtyping fs gs

mutual

/-- Whether the parts of the first type that a merge keeps are bounds of both types. -/
def keeps (subtyping : Bool) (side : Side) (t u : Ty) : Bool :=
  if t.isError || u.isError then true
  else if t.isWildcard then conforms subtyping u u
  else if u.isWildcard then conforms subtyping t t
  else
    match t, u with
    | sum l r, sum l' r' => keeps subtyping side l l' && keeps subtyping side r r'
    | list t, list u => keeps subtyping side t u
    | ref t, ref u => keeps subtyping .above t u && keeps subtyping .below t u
    | tuple ts, tuple us => keepsAll subtyping side ts us
    | arrow ps r, arrow qs s => keepsAll subtyping side.flip ps qs && keeps subtyping side r s
    | variant fs, variant gs => keepsAlternatives subtyping side fs gs
    | t, u => bounds subtyping side t t u
termination_by structural t

def keepsAll (subtyping : Bool) (side : Side) (ts us : List Ty) : Bool :=
  match ts, us with
  | [], [] => true
  | t :: ts, u :: us => keeps subtyping side t u && keepsAll subtyping side ts us
  | _, _ => false
termination_by structural ts

end

section Merging

variable {subtyping : Bool}

theorem bounds_sum (side : Side) (a b l r l' r' : Ty) :
    bounds subtyping side (sum a b) (sum l r) (sum l' r') =
      (bounds subtyping side a l l' && bounds subtyping side b r r') := by
  cases side <;> simp only [bounds, conforms_sum] <;> ac_rfl

theorem bounds_list (side : Side) (m t u : Ty) :
    bounds subtyping side (list m) (list t) (list u) = bounds subtyping side m t u := by
  cases side <;> simp only [bounds, conforms_list]

theorem bounds_ref (side : Side) (m t u : Ty) :
    bounds subtyping side (ref m) (ref t) (ref u) =
      (bounds subtyping .above m t u && bounds subtyping .below m t u) := by
  cases side <;> simp only [bounds, conforms_ref] <;> ac_rfl

theorem bounds_tuple (side : Side) (ms ts us : List Ty) :
    bounds subtyping side (tuple ms) (tuple ts) (tuple us) = boundsAll subtyping side ms ts us := by
  cases side <;> simp only [bounds, boundsAll, conforms_tuple]

theorem bounds_arrow (side : Side) (ms ps qs : List Ty) (m r s : Ty) :
    bounds subtyping side (arrow ms m) (arrow ps r) (arrow qs s) =
      (boundsAll subtyping side.flip ms ps qs && bounds subtyping side m r s) := by
  cases side <;> simp only [bounds, boundsAll, Side.flip, conforms_arrow] <;> ac_rfl

theorem boundsAll_cons (side : Side) (m t u : Ty) (ms ts us : List Ty) :
    boundsAll subtyping side (m :: ms) (t :: ts) (u :: us) =
      (bounds subtyping side m t u && boundsAll subtyping side ms ts us) := by
  cases side <;> simp only [boundsAll, bounds, conformsAll] <;> ac_rfl

theorem conformsAll_of_length_ne {ts us : List Ty} (different : ts.length ≠ us.length) :
    conformsAll subtyping ts us = false := by
  rw [Bool.eq_false_iff]
  exact fun h => different (conformsAll_iff.mp h).1

theorem boundsAll_of_length_ne (side : Side) {ms ts us : List Ty} (different : ts.length ≠ us.length) :
    boundsAll subtyping side ms ts us = false := by
  by_cases first : ts.length = ms.length
  · have second : us.length ≠ ms.length := fun same => different (first.trans same.symm)
    cases side <;>
      simp [boundsAll, conformsAll_of_length_ne second, conformsAll_of_length_ne (Ne.symm second)]
  · cases side <;>
      simp [boundsAll, conformsAll_of_length_ne first, conformsAll_of_length_ne (Ne.symm first)]

theorem keepsAll_of_length_ne (side : Side) {ts us : List Ty} (different : ts.length ≠ us.length) :
    keepsAll subtyping side ts us = false := by
  induction ts generalizing us with
  | nil =>
    cases us with
    | nil => exact absurd rfl different
    | cons => rfl
  | cons t ts ih =>
    cases us with
    | nil => rfl
    | cons u us => rw [keepsAll, ih (fun same => different (congrArg (· + 1) same)), Bool.and_false]

/-- The first alternative with a label counts, also after the merge. -/
theorem lookup_mergeAlternatives (fs gs : List (String × Option Ty)) (l : String) :
    (mergeAlternatives fs gs).lookup l = (fs ++ gs).lookup l := by
  unfold mergeAlternatives
  induction gs generalizing fs with
  | nil => simp
  | cons g gs ih =>
    obtain ⟨m, q⟩ := g
    rw [List.foldl_cons, ih]
    split
    · rename_i known
      obtain ⟨f, member, same⟩ := List.any_eq_true.mp known
      rw [List.lookup_append, List.lookup_append, List.lookup_cons]
      cases found : fs.lookup l with
      | some => rfl
      | none =>
        have other : (l == f.1) = false := by
          simpa using List.lookup_eq_none_iff.mp found f member
        rw [eq_of_beq same] at other
        simp [other]
    · rw [List.append_assoc, List.singleton_append]

theorem mergeAlternatives_of_known {fs gs : List (String × Option Ty)}
    (known : gs.all (fun g => fs.any (·.1 == g.1)) = true) : mergeAlternatives fs gs = fs := by
  unfold mergeAlternatives
  induction gs with
  | nil => rfl
  | cons g gs ih =>
    rw [List.all_cons, Bool.and_eq_true] at known
    rw [List.foldl_cons, if_pos known.1, ih known.2]

theorem conformsAlternatives_congr (fs : List (String × Option Ty)) {gs hs : List (String × Option Ty)}
    (same : ∀ l, gs.lookup l = hs.lookup l) :
    conformsAlternatives subtyping fs gs = conformsAlternatives subtyping fs hs := by
  rw [Bool.eq_iff_iff, conformsAlternatives_iff, conformsAlternatives_iff]
  simp only [same]

theorem conformsAlternatives_append (fs gs hs : List (String × Option Ty)) :
    conformsAlternatives subtyping (fs ++ gs) hs =
      (conformsAlternatives subtyping fs hs && conformsAlternatives subtyping gs hs) := by
  rw [Bool.eq_iff_iff, Bool.and_eq_true, conformsAlternatives_iff, conformsAlternatives_iff,
    conformsAlternatives_iff]
  simp only [List.mem_append]
  exact ⟨fun all => ⟨fun l p member => all l p (.inl member), fun l p member => all l p (.inr member)⟩,
    fun both l p member => member.elim (both.1 l p) (both.2 l p)⟩

theorem bounds_variant (side : Side) (fs gs : List (String × Option Ty)) :
    bounds subtyping side (variant (mergeAlternatives fs gs)) (variant fs) (variant gs) =
      keepsAlternatives subtyping side fs gs := by
  cases side with
  | above =>
    simp only [bounds, keepsAlternatives, conforms_variant, conformsAlternatives_append]
    rw [conformsAlternatives_congr fs (lookup_mergeAlternatives fs gs),
      conformsAlternatives_congr gs (lookup_mergeAlternatives fs gs)]
  | below =>
    simp only [bounds, keepsAlternatives, conforms_variant]
    cases known : gs.all fun g => fs.any (·.1 == g.1) with
    | true => rw [mergeAlternatives_of_known known, Bool.true_and]
    | false =>
      obtain ⟨g, member, new⟩ := List.all_eq_false.mp known
      have listed : ((mergeAlternatives fs gs).lookup g.1).isSome = true := by
        rw [lookup_mergeAlternatives, List.lookup_isSome_iff]
        exact ⟨g, List.mem_append_right fs member, beq_self_eq_true g.1⟩
      obtain ⟨p, found⟩ := Option.isSome_iff_exists.mp listed
      obtain ⟨l₁, l₂, same, -⟩ := List.lookup_eq_some_iff.mp found
      have refused : conformsAlternatives subtyping (mergeAlternatives fs gs) fs = false := by
        rw [Bool.eq_false_iff]
        intro conforming
        obtain ⟨q, known, -⟩ := conformsAlternatives_iff.mp conforming g.1 p (by simp [same])
        obtain ⟨f, there, label⟩ := List.lookup_isSome_iff.mp (Option.isSome_of_eq_some known)
        exact new (List.any_eq_true.mpr ⟨f, there, beq_iff_eq.mpr (eq_of_beq label).symm⟩)
      simp [refused]

mutual

/-- The merge is a bound just if what it keeps is. -/
theorem bounds_merge (side : Side) (t u : Ty) :
    bounds subtyping side (merge t u) t u = keeps subtyping side t u := by
  rw [merge.eq_def, keeps.eq_def]
  split
  · cases side <;> simp [bounds, conforms_of_wildcard, isWildcard]
  split
  · rename_i wild
    cases side <;> simp [bounds, conforms_of_wildcard, wild]
  split
  · rename_i wild
    cases side <;> simp [bounds, conforms_of_wildcard, wild]
  cases t with
  | sum l r =>
    cases u with
    | sum l' r' => exact (bounds_sum ..).trans (congrArg₂ _ (bounds_merge side l l') (bounds_merge side r r'))
    | _ => rfl
  | list t =>
    cases u with
    | list u => exact (bounds_list ..).trans (bounds_merge side t u)
    | _ => rfl
  | ref t =>
    cases u with
    | ref u => exact (bounds_ref ..).trans (congrArg₂ _ (bounds_merge .above t u) (bounds_merge .below t u))
    | _ => rfl
  | tuple ts =>
    cases u with
    | tuple us =>
      dsimp only
      split
      · exact (bounds_tuple ..).trans (boundsAll_mergeAll side ts us)
      · rename_i different
        rw [bounds_tuple, boundsAll_of_length_ne side different, keepsAll_of_length_ne side different]
    | _ => rfl
  | arrow ps r =>
    cases u with
    | arrow qs s =>
      dsimp only
      split
      · rw [bounds_arrow, boundsAll_mergeAll side.flip ps qs, bounds_merge side r s]
      · rename_i different
        rw [bounds_arrow, boundsAll_of_length_ne side.flip different,
          keepsAll_of_length_ne side.flip different, Bool.false_and, Bool.false_and]
    | _ => rfl
  | variant fs =>
    cases u with
    | variant gs => exact bounds_variant side fs gs
    | _ => rfl
  | _ => rfl
termination_by structural t

theorem boundsAll_mergeAll (side : Side) (ts us : List Ty) :
    boundsAll subtyping side (mergeAll ts us) ts us = keepsAll subtyping side ts us := by
  match ts, us with
  | [], [] => cases side <;> simp [boundsAll, mergeAll, keepsAll, conformsAll]
  | t :: ts, u :: us =>
    rw [mergeAll, boundsAll_cons, keepsAll, bounds_merge side t u, boundsAll_mergeAll side ts us]
  | [], _ :: _ => exact boundsAll_of_length_ne side (by simp)
  | _ :: _, [] => exact boundsAll_of_length_ne side (by simp)
termination_by structural ts

end

end Merging

end Ty

namespace Typing

open Check

theorem conforms_of_isError (ctx : Context) (t : Ty) {u : Ty} (failed : u.isError = true) :
    ctx.conforms t u = true := by
  cases u with
  | error => exact Ty.conforms_of_wildcard (by simp [Ty.isWildcard])
  | _ => contradiction

/-- The type given to two alternatives is an upper bound of theirs if it is `error`, and
else just if what the merge keeps of the first is. -/
theorem join_upper_bound_iff (ctx : Context) (t u : Ty) (position : Option Position) (p : Progress) :
    (ctx.conforms t (Check.join ctx t u position p).1 = true ∧
        ctx.conforms u (Check.join ctx t u position p).1 = true) ↔
      ((Check.join ctx t u position p).1.isError = true ∨
        Ty.keeps ctx.subtyping .above t u = true) := by
  constructor
  · rintro ⟨first, second⟩
    by_cases fits : Check.compatible ctx t u = true
    · right
      rw [Check.join, if_pos fits] at first second
      rw [← Ty.bounds_merge, Ty.bounds, Bool.and_eq_true]
      exact ⟨first, second⟩
    · left
      rw [Check.join, if_neg fits]
      rfl
  · rintro (failed | kept)
    · exact ⟨conforms_of_isError ctx t failed, conforms_of_isError ctx u failed⟩
    · by_cases fits : Check.compatible ctx t u = true
      · rw [Check.join, if_pos fits]
        rw [← Ty.bounds_merge, Ty.bounds, Bool.and_eq_true] at kept
        exact kept
      · rw [Check.join, if_neg fits]
        exact ⟨conforms_of_isError ctx t rfl, conforms_of_isError ctx u rfl⟩

/-- Of two records the first is kept, be it the narrower one. -/
theorem join_not_upper_bound :
    ¬∀ (ctx : Context) (t u : Ty) (position : Option Position) (p : Progress),
      (Check.join ctx t u position p).2.errors = p.errors →
        ctx.conforms t (Check.join ctx t u position p).1 = true ∧
          ctx.conforms u (Check.join ctx t u position p).1 = true := by
  intro bounded
  have quiet : (Check.join { subtyping := true } (.record [("x", .nat), ("y", .nat)])
      (.record [("x", .nat)]) none {}).2.errors = [] := by decide +kernel
  have missed : Context.conforms { subtyping := true } (.record [("x", .nat)])
      (Check.join { subtyping := true } (.record [("x", .nat), ("y", .nat)])
        (.record [("x", .nat)]) none {}).1 = false := by decide +kernel
  rw [(bounded _ _ _ _ _ quiet).2] at missed
  contradiction

end Typing

end StellaLang
