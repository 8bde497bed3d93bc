import Mathlib.Data.List.Basic

/-! Types up to the names of what they bind. In a form a bound variable points to its binder, so
two types that differ in bound names have one form, and what is put in for a variable is
never captured. -/
namespace StellaLang

namespace Form

/-- Types that have no parts. -/
inductive Constant where
  | bool
  | nat
  | unit
  | top
  | bottom
  | never
  | unknown
  | error
deriving DecidableEq

/-- A variable of a form. -/
inductive Var where
  | free (name : String)
  /-- The binder with so many binders in between, and which of its variables. -/
  | bound (depth position : Nat)
deriving DecidableEq

end Form

inductive Form where
  | constant (c : Form.Constant)
  | var (v : Form.Var)
  | arrow (params : List Form) (result : Form)
  | forAll (vars : Nat) (body : Form)
  | tuple (elements : List Form)
  | sum (left right : Form)
  | record (fields : List (String × Form))
  | variant (fields : List (String × Option Form))
  | list (element : Form)
  | ref (referent : Form)
  | recursive (body : Form)

namespace Form

section Induction

variable {motive : Form → Prop} (constant : ∀ c, motive (constant c)) (var : ∀ v, motive (var v))
  (arrow : ∀ ps r, (∀ p ∈ ps, motive p) → motive r → motive (arrow ps r))
  (forAll : ∀ n b, motive b → motive (forAll n b))
  (tuple : ∀ ts, (∀ t ∈ ts, motive t) → motive (tuple ts))
  (sum : ∀ l r, motive l → motive r → motive (sum l r))
  (record : ∀ fs, (∀ l t, (l, t) ∈ fs → motive t) → motive (record fs))
  (variant : ∀ fs, (∀ l t, (l, some t) ∈ fs → motive t) → motive (variant fs))
  (list : ∀ t, motive t → motive (list t)) (ref : ∀ t, motive t → motive (ref t))
  (recursive : ∀ b, motive b → motive (recursive b))

include constant var arrow forAll tuple sum record variant list ref recursive in
/-- Induction on forms, with what is known of all members of a list at once. -/
theorem induct (f : Form) : motive f := by
  cases f with
  | constant c => exact constant c
  | var v => exact var v
  | arrow ps r => exact arrow ps r (fun p member => induct p) (induct r)
  | forAll n b => exact forAll n b (induct b)
  | tuple ts => exact tuple ts fun t member => induct t
  | sum l r => exact sum l r (induct l) (induct r)
  | record fs => exact record fs fun l t member => induct t
  | variant fs => exact variant fs fun l t member => induct t
  | list t => exact list t (induct t)
  | ref t => exact ref t (induct t)
  | recursive b => exact recursive b (induct b)
termination_by sizeOf f
decreasing_by
  all_goals simp_wf
  all_goals try omega
  -- Left are the members of lists, the last two of them behind a label.
  all_goals have smaller := List.sizeOf_lt_of_mem member
  · omega
  · omega
  · rw [Prod.mk.sizeOf_spec] at smaller
    omega
  · rw [Prod.mk.sizeOf_spec, Option.some.sizeOf_spec] at smaller
    omega

end Induction

section Replacement

mutual

/-- The form with another one in place of each variable, which may depend on the number of
binders around the variable. -/
def replace (σ : Nat → Var → Form) (d : Nat) : Form → Form
  | constant c => constant c
  | var v => σ d v
  | arrow ps r => arrow (replaceAll σ d ps) (r.replace σ d)
  | forAll n b => forAll n (b.replace σ (d + 1))
  | tuple ts => tuple (replaceAll σ d ts)
  | sum l r => sum (l.replace σ d) (r.replace σ d)
  | record fs => record (replaceFields σ d fs)
  | variant fs => variant (replaceAlternatives σ d fs)
  | list t => list (t.replace σ d)
  | ref t => ref (t.replace σ d)
  | recursive b => recursive (b.replace σ (d + 1))

def replaceAll (σ : Nat → Var → Form) (d : Nat) : List Form → List Form
  | [] => []
  | t :: ts => t.replace σ d :: replaceAll σ d ts

def replaceFields (σ : Nat → Var → Form) (d : Nat) : List (String × Form) → List (String × Form)
  | [] => []
  | (l, t) :: fs => (l, t.replace σ d) :: replaceFields σ d fs

def replaceAlternatives (σ : Nat → Var → Form) (d : Nat) :
    List (String × Option Form) → List (String × Option Form)
  | [] => []
  | (l, none) :: fs => (l, none) :: replaceAlternatives σ d fs
  | (l, some t) :: fs => (l, some (t.replace σ d)) :: replaceAlternatives σ d fs

end

mutual

/-- The variables of a form, each with the number of binders around it. -/
def vars (d : Nat) : Form → List (Nat × Var)
  | constant _ => []
  | var v => [(d, v)]
  | arrow ps r => varsAll d ps ++ r.vars d
  | forAll _ b => b.vars (d + 1)
  | tuple ts => varsAll d ts
  | sum l r => l.vars d ++ r.vars d
  | record fs => varsFields d fs
  | variant fs => varsAlternatives d fs
  | list t => t.vars d
  | ref t => t.vars d
  | recursive b => b.vars (d + 1)

def varsAll (d : Nat) : List Form → List (Nat × Var)
  | [] => []
  | t :: ts => t.vars d ++ varsAll d ts

def varsFields (d : Nat) : List (String × Form) → List (Nat × Var)
  | [] => []
  | (_, t) :: fs => t.vars d ++ varsFields d fs

def varsAlternatives (d : Nat) : List (String × Option Form) → List (Nat × Var)
  | [] => []
  | (_, none) :: fs => varsAlternatives d fs
  | (_, some t) :: fs => t.vars d ++ varsAlternatives d fs

end

variable (σ τ : Nat → Var → Form) (d : Nat)

theorem replaceAll_eq (ts : List Form) : replaceAll σ d ts = ts.map (·.replace σ d) := by
  induction ts with
  | nil => rfl
  | cons t ts ih => exact congrArg (t.replace σ d :: ·) ih

theorem replaceFields_eq (fs : List (String × Form)) :
    replaceFields σ d fs = fs.map fun (l, t) => (l, t.replace σ d) := by
  induction fs with
  | nil => rfl
  | cons f fs ih => exact congrArg ((f.1, f.2.replace σ d) :: ·) ih

theorem replaceAlternatives_eq (fs : List (String × Option Form)) :
    replaceAlternatives σ d fs = fs.map fun (l, t) => (l, t.map (·.replace σ d)) := by
  induction fs with
  | nil => rfl
  | cons f fs ih =>
    obtain ⟨l, _ | t⟩ := f
    · exact congrArg ((l, none) :: ·) ih
    · exact congrArg ((l, some (t.replace σ d)) :: ·) ih

@[simp] theorem replace_constant (c : Constant) : (constant c).replace σ d = constant c := rfl

@[simp] theorem replace_var (v : Var) : (var v).replace σ d = σ d v := rfl

@[simp] theorem replace_arrow (ps : List Form) (r : Form) :
    (arrow ps r).replace σ d = arrow (ps.map (·.replace σ d)) (r.replace σ d) :=
  congrArg (arrow · (r.replace σ d)) (replaceAll_eq σ d ps)

@[simp] theorem replace_forAll (n : Nat) (b : Form) :
    (forAll n b).replace σ d = forAll n (b.replace σ (d + 1)) := rfl

@[simp] theorem replace_tuple (ts : List Form) :
    (tuple ts).replace σ d = tuple (ts.map (·.replace σ d)) :=
  congrArg tuple (replaceAll_eq σ d ts)

@[simp] theorem replace_sum (l r : Form) :
    (sum l r).replace σ d = sum (l.replace σ d) (r.replace σ d) := rfl

@[simp] theorem replace_record (fs : List (String × Form)) :
    (record fs).replace σ d = record (fs.map fun (l, t) => (l, t.replace σ d)) :=
  congrArg record (replaceFields_eq σ d fs)

@[simp] theorem replace_variant (fs : List (String × Option Form)) :
    (variant fs).replace σ d = variant (fs.map fun (l, t) => (l, t.map (·.replace σ d))) :=
  congrArg variant (replaceAlternatives_eq σ d fs)

@[simp] theorem replace_list (t : Form) : (list t).replace σ d = list (t.replace σ d) := rfl

@[simp] theorem replace_ref (t : Form) : (ref t).replace σ d = ref (t.replace σ d) := rfl

@[simp] theorem replace_recursive (b : Form) :
    (recursive b).replace σ d = recursive (b.replace σ (d + 1)) := rfl

theorem varsAll_eq (d : Nat) (ts : List Form) : varsAll d ts = ts.flatMap (·.vars d) := by
  induction ts with
  | nil => rfl
  | cons t ts ih => exact congrArg (t.vars d ++ ·) ih

theorem varsFields_eq (d : Nat) (fs : List (String × Form)) : varsFields d fs = fs.flatMap (·.2.vars d) := by
  induction fs with
  | nil => rfl
  | cons f fs ih => exact congrArg (f.2.vars d ++ ·) ih

theorem varsAlternatives_eq (d : Nat) (fs : List (String × Option Form)) :
    varsAlternatives d fs = fs.flatMap fun f => f.2.elim [] (·.vars d) := by
  induction fs with
  | nil => rfl
  | cons f fs ih =>
    obtain ⟨l, _ | t⟩ := f
    · exact ih
    · exact congrArg (t.vars d ++ ·) ih

variable {d} {v : Nat × Var}

theorem mem_varsAll {ts : List Form} : v ∈ varsAll d ts ↔ ∃ t ∈ ts, v ∈ t.vars d := by
  rw [varsAll_eq, List.mem_flatMap]

theorem mem_varsFields {fs : List (String × Form)} :
    v ∈ varsFields d fs ↔ ∃ l t, (l, t) ∈ fs ∧ v ∈ t.vars d := by
  rw [varsFields_eq, List.mem_flatMap, Prod.exists]

theorem mem_varsAlternatives {fs : List (String × Option Form)} :
    v ∈ varsAlternatives d fs ↔ ∃ l t, (l, some t) ∈ fs ∧ v ∈ t.vars d := by
  rw [varsAlternatives_eq, List.mem_flatMap]
  constructor
  · rintro ⟨⟨l, _ | t⟩, member, inside⟩
    · exact absurd inside List.not_mem_nil
    · exact ⟨l, t, member, inside⟩
  · rintro ⟨l, t, member, inside⟩
    exact ⟨(l, some t), member, inside⟩

/-- Replacements that agree on the variables of a form give one form. -/
theorem replace_congr {σ τ : Nat → Var → Form} (f : Form) (d : Nat)
    (agree : ∀ k v, (k, v) ∈ f.vars d → σ k v = τ k v) : f.replace σ d = f.replace τ d := by
  induction f using induct generalizing d with
  | constant => rfl
  | var v => exact agree d v (by simp [vars])
  | arrow ps r params result =>
    rw [replace_arrow, replace_arrow]
    have sameParams : ps.map (·.replace σ d) = ps.map (·.replace τ d) := by
      refine List.map_congr_left fun p member => params p member d fun k v inside => agree k v ?_
      exact List.mem_append_left _ (mem_varsAll.mpr ⟨p, member, inside⟩)
    rw [sameParams, result d fun k v inside => agree k v (List.mem_append_right _ inside)]
  | forAll n b body => rw [replace_forAll, replace_forAll, body (d + 1) agree]
  | tuple ts elements =>
    rw [replace_tuple, replace_tuple]
    refine congrArg _ (List.map_congr_left fun t member => elements t member d fun k v inside => ?_)
    exact agree k v (mem_varsAll.mpr ⟨t, member, inside⟩)
  | sum l r left right =>
    rw [replace_sum, replace_sum, left d fun k v inside => agree k v (List.mem_append_left _ inside),
      right d fun k v inside => agree k v (List.mem_append_right _ inside)]
  | record fs fields =>
    rw [replace_record, replace_record]
    refine congrArg _ (List.map_congr_left fun (l, t) member => ?_)
    refine congrArg (l, ·) (fields l t member d fun k v inside => agree k v ?_)
    exact mem_varsFields.mpr ⟨l, t, member, inside⟩
  | variant fs payloads =>
    rw [replace_variant, replace_variant]
    refine congrArg _ (List.map_congr_left fun (l, payload) member => ?_)
    cases payload with
    | none => rfl
    | some t =>
      refine congrArg (fun t => (l, some t)) (payloads l t member d fun k v inside => agree k v ?_)
      exact mem_varsAlternatives.mpr ⟨l, t, member, inside⟩
  | list t element => rw [replace_list, replace_list, element d agree]
  | ref t referent => rw [replace_ref, replace_ref, referent d agree]
  | recursive b body => rw [replace_recursive, replace_recursive, body (d + 1) agree]

/-- Two replacements, one after the other, are one. -/
theorem replace_replace (f : Form) (d : Nat) :
    (f.replace σ d).replace τ d = f.replace (fun k v => (σ k v).replace τ k) d := by
  induction f using induct generalizing d with
  | constant => rfl
  | var => rfl
  | arrow ps r params result =>
    simp only [replace_arrow, List.map_map, result d]
    exact congrArg (arrow · _) (List.map_congr_left fun p member => params p member d)
  | forAll n b body => rw [replace_forAll, replace_forAll, replace_forAll, body]
  | tuple ts elements =>
    simp only [replace_tuple, List.map_map]
    exact congrArg _ (List.map_congr_left fun t member => elements t member d)
  | sum l r left right => rw [replace_sum, replace_sum, replace_sum, left, right]
  | record fs fields =>
    simp only [replace_record, List.map_map]
    exact congrArg _ (List.map_congr_left fun (l, t) member => congrArg (l, ·) (fields l t member d))
  | variant fs payloads =>
    simp only [replace_variant, List.map_map]
    refine congrArg _ (List.map_congr_left fun (l, payload) member => ?_)
    cases payload with
    | none => rfl
    | some t => exact congrArg (fun t => (l, some t)) (payloads l t member d)
  | list t element => rw [replace_list, replace_list, replace_list, element]
  | ref t referent => rw [replace_ref, replace_ref, replace_ref, referent]
  | recursive b body => rw [replace_recursive, replace_recursive, replace_recursive, body]

/-- The variables of a form below one more binder. -/
theorem vars_succ (f : Form) (d : Nat) : f.vars (d + 1) = (f.vars d).map fun v => (v.1 + 1, v.2) := by
  induction f using induct generalizing d with
  | constant => rfl
  | var => rfl
  | arrow ps r params result =>
    rw [vars, vars, List.map_append, result, varsAll_eq, varsAll_eq, List.map_flatMap]
    exact congrArg (· ++ _) (List.flatMap_congr fun p member => params p member d)
  | forAll n b body => exact body (d + 1)
  | tuple ts elements =>
    rw [vars, vars, varsAll_eq, varsAll_eq, List.map_flatMap]
    exact List.flatMap_congr fun t member => elements t member d
  | sum l r left right => rw [vars, vars, List.map_append, left, right]
  | record fs fields =>
    rw [vars, vars, varsFields_eq, varsFields_eq, List.map_flatMap]
    exact List.flatMap_congr fun (l, t) member => fields l t member d
  | variant fs payloads =>
    rw [vars, vars, varsAlternatives_eq, varsAlternatives_eq, List.map_flatMap]
    refine List.flatMap_congr fun (l, payload) member => ?_
    cases payload with
    | none => rfl
    | some t => exact payloads l t member d
  | list t element => exact element d
  | ref t referent => exact referent d
  | recursive b body => exact body (d + 1)

theorem mem_vars_succ {f : Form} {d k : Nat} {v : Var} :
    (k, v) ∈ f.vars (d + 1) ↔ ∃ j, k = j + 1 ∧ (j, v) ∈ f.vars d := by
  rw [vars_succ, List.mem_map]
  constructor
  · rintro ⟨⟨j, w⟩, found, same⟩
    cases same
    exact ⟨j, rfl, found⟩
  · rintro ⟨j, rfl, found⟩
    exact ⟨(j, v), found, rfl⟩

/-- The variables of a form after a replacement are those of what was put in. -/
theorem vars_replace (σ : Nat → Var → Form) (f : Form) (d : Nat) :
    (f.replace σ d).vars d = (f.vars d).flatMap fun v => (σ v.1 v.2).vars v.1 := by
  induction f using induct generalizing d with
  | constant => rfl
  | var => simp [vars]
  | arrow ps r params result =>
    rw [replace_arrow, vars, vars, List.flatMap_append, result, varsAll_eq, varsAll_eq, List.flatMap_map,
      List.flatMap_assoc]
    exact congrArg (· ++ _) (List.flatMap_congr fun p member => params p member d)
  | forAll n b body => exact body (d + 1)
  | tuple ts elements =>
    rw [replace_tuple, vars, vars, varsAll_eq, varsAll_eq, List.flatMap_map, List.flatMap_assoc]
    exact List.flatMap_congr fun t member => elements t member d
  | sum l r left right => rw [replace_sum, vars, vars, List.flatMap_append, left, right]
  | record fs fields =>
    rw [replace_record, vars, vars, varsFields_eq, varsFields_eq, List.flatMap_map, List.flatMap_assoc]
    exact List.flatMap_congr fun (l, t) member => fields l t member d
  | variant fs payloads =>
    rw [replace_variant, vars, vars, varsAlternatives_eq, varsAlternatives_eq, List.flatMap_map,
      List.flatMap_assoc]
    refine List.flatMap_congr fun (l, payload) member => ?_
    cases payload with
    | none => rfl
    | some t => exact payloads l t member d
  | list t element => exact element d
  | ref t referent => exact referent d
  | recursive b body => exact body (d + 1)

theorem mem_vars_replace {f : Form} {d k : Nat} {w : Var} :
    (k, w) ∈ (f.replace σ d).vars d ↔ ∃ j v, (j, v) ∈ f.vars d ∧ (k, w) ∈ (σ j v).vars j := by
  rw [vars_replace, List.mem_flatMap, Prod.exists]

/-- Each variable in its own place changes nothing. -/
theorem replace_self (f : Form) (d : Nat) : f.replace (fun _ v => var v) d = f := by
  induction f using induct generalizing d with
  | constant => rfl
  | var => rfl
  | arrow ps r params result =>
    rw [replace_arrow, result, List.map_congr_left fun p member => params p member d, List.map_id']
  | forAll n b body => rw [replace_forAll, body]
  | tuple ts elements =>
    rw [replace_tuple, List.map_congr_left fun t member => elements t member d, List.map_id']
  | sum l r left right => rw [replace_sum, left, right]
  | record fs fields =>
    rw [replace_record]
    refine congrArg _ ((List.map_congr_left fun (l, t) member => ?_).trans (List.map_id fs))
    exact congrArg (l, ·) (fields l t member d)
  | variant fs payloads =>
    rw [replace_variant]
    refine congrArg _ ((List.map_congr_left fun (l, payload) member => ?_).trans (List.map_id fs))
    cases payload with
    | none => rfl
    | some t => exact congrArg (fun t => (l, some t)) (payloads l t member d)
  | list t element => rw [replace_list, element]
  | ref t referent => rw [replace_ref, referent]
  | recursive b body => rw [replace_recursive, body]

/-- A replacement below more binders. -/
theorem replace_add (f : Form) (d k : Nat) :
    f.replace σ (d + k) = f.replace (fun j v => σ (j + k) v) d := by
  induction f using induct generalizing d with
  | constant => rfl
  | var => rfl
  | arrow ps r params result =>
    simp only [replace_arrow, result d]
    exact congrArg (arrow · _) (List.map_congr_left fun p member => params p member d)
  | forAll n b body => rw [replace_forAll, replace_forAll, Nat.add_right_comm, body]
  | tuple ts elements =>
    simp only [replace_tuple]
    exact congrArg _ (List.map_congr_left fun t member => elements t member d)
  | sum l r left right => rw [replace_sum, replace_sum, left, right]
  | record fs fields =>
    simp only [replace_record]
    exact congrArg _ (List.map_congr_left fun (l, t) member => congrArg (l, ·) (fields l t member d))
  | variant fs payloads =>
    simp only [replace_variant]
    refine congrArg _ (List.map_congr_left fun (l, payload) member => ?_)
    cases payload with
    | none => rfl
    | some t => exact congrArg (fun t => (l, some t)) (payloads l t member d)
  | list t element => rw [replace_list, replace_list, element]
  | ref t referent => rw [replace_ref, replace_ref, referent]
  | recursive b body => rw [replace_recursive, replace_recursive, Nat.add_right_comm, body]

end Replacement

end Form

end StellaLang
