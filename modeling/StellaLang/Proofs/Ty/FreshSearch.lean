import Mathlib.Data.List.Dedup
import StellaLang.Proofs.Ty.Components
import StellaLang.Proofs.Ty.Fresh
import StellaLang.Proofs.Ty.Nameless

/-! The search for a fresh name, as a counter of 32 bits allows it. Candidates with different numbers
are different names, so each name that is taken costs one number at most, and fewer names than
numbers leave one over. Substitution, instantiation and conformance rely on that, each with a test of
its own for the names that are taken. -/
namespace StellaLang

namespace Fresh

/-- The candidates that a counter of 32 bits can number, from one on. What such a counter does after
its last number is left open. -/
def candidates (base : String) : List String :=
  (List.range' 1 (UInt32.size - 1)).map (candidate base)

/-- The first of them that is not taken, asked of one after the other. If there were none, it would
be the base name. -/
def counted (base : String) (isTaken : String → Bool) : String :=
  ((candidates base).find? (!isTaken ·)).getD base

/-- That a search finds a name among the candidates up to a number, and does not fall back to the
base name. -/
structure Finds (base : String) (isTaken : String → Bool) (most : Nat) (name : String) : Prop where
  ends : (candidates base).find? (!isTaken ·) = some name
  /-- All candidates before it are taken. -/
  first : ∃ n, 1 ≤ n ∧ n ≤ most ∧ name = candidate base n ∧
    ∀ m, 1 ≤ m → m < n → isTaken (candidate base m) = true
  free : isTaken name = false

theorem Finds.counted_eq {base : String} {isTaken : String → Bool} {most : Nat} {name : String}
    (finds : Finds base isTaken most name) : counted base isTaken = name := by
  rw [counted, finds.ends, Option.getD_some]

theorem candidate_ne_base (base : String) (n : Nat) : candidate base n ≠ base := by
  intro same
  have lists := congrArg String.toList same
  rw [candidate, String.toList_append, List.append_right_eq_self, Nat.toString_eq_ofList_toDigits,
    String.toList_ofList] at lists
  exact Nat.toDigits_ne_nil lists

section Search

variable (base : String) {avoid : List String}

variable (avoid) in
/-- The search goes from one number to the next until a candidate need not be avoided. -/
theorem exists_first_search (fuel n : Nat) :
    ∃ m, n ≤ m ∧ search base avoid fuel n = candidate base m ∧
      ∀ k, n ≤ k → k < m → candidate base k ∈ avoid := by
  induction fuel generalizing n with
  | zero => exact ⟨n, Nat.le_refl n, rfl, fun k least before => absurd before (by omega)⟩
  | succ fuel ih =>
    rw [search]
    split
    · rename_i taken
      obtain ⟨m, later, found, before⟩ := ih (n + 1)
      refine ⟨m, by omega, found, fun k least smaller => ?_⟩
      rcases Nat.eq_or_lt_of_le least with rfl | greater
      · exact taken
      · exact before k greater smaller
    · exact ⟨n, Nat.le_refl n, rfl, fun k least before => absurd before (by omega)⟩

/-- The names up to a candidate, if all the candidates before it are to be avoided, are the base name
and some of the names to avoid. -/
theorem number_le {n : Nat} (positive : 1 ≤ n)
    (before : ∀ m, 1 ≤ m → m < n → candidate base m ∈ avoid) :
    n ≤ (base :: avoid).dedup.length := by
  have distinct : (base :: (List.range' 1 (n - 1)).map (candidate base)).Nodup := by
    refine List.nodup_cons.mpr ⟨fun member => ?_, .map (candidate_injective base) List.nodup_range'⟩
    obtain ⟨m, -, same⟩ := List.mem_map.mp member
    exact candidate_ne_base base m same
  have inside : base :: (List.range' 1 (n - 1)).map (candidate base) ⊆ (base :: avoid).dedup := by
    intro name member
    rw [List.mem_dedup]
    rcases List.mem_cons.mp member with rfl | member
    · exact List.mem_cons_self
    · obtain ⟨m, range, rfl⟩ := List.mem_map.mp member
      rw [List.mem_range'_1] at range
      exact List.mem_cons_of_mem base (before m range.1 (by omega))
  have short := (List.subperm_of_subset distinct inside).length_le
  rw [List.length_cons, List.length_map, List.length_range'] at short
  omega

theorem length_dedup_cons_le (names : List String) :
    (base :: names).dedup.length ≤ names.dedup.length + 1 := by
  by_cases known : base ∈ names
  · rw [List.dedup_cons_of_mem known]
    exact Nat.le_succ _
  · rw [List.dedup_cons_of_notMem known, List.length_cons]

/-- Names to avoid and a test for them come to the same fresh name, if there are numbers enough. -/
theorem finds_name {isTaken : String → Bool} (tests : ∀ name, isTaken name = true ↔ name ∈ avoid)
    (few : avoid.dedup.length < UInt32.size - 1) :
    Finds base isTaken (base :: avoid).dedup.length (name base avoid) := by
  obtain ⟨n, positive, found, before⟩ := exists_first_search base avoid avoid.length 1
  change name base avoid = candidate base n at found
  have small := number_le base positive before
  have numbers := length_dedup_cons_le base avoid
  have free : isTaken (name base avoid) = false :=
    Bool.eq_false_iff.mpr fun taken => name_not_mem base avoid ((tests _).mp taken)
  have passed (m : Nat) (least : 1 ≤ m) (less : m < n) : isTaken (candidate base m) = true :=
    (tests _).mpr (before m least less)
  refine ⟨?_, ⟨n, positive, small, found, passed⟩, free⟩
  rw [candidates, List.find?_map, found]
  refine congrArg (Option.map (candidate base)) (List.find?_range'_eq_some.mpr ⟨?_, ?_, ?_⟩)
  · simpa [found] using free
  · rw [List.mem_range'_1]
    omega
  · intro m least less
    simpa using passed m least less

end Search

end Fresh

namespace Ty

open Fresh (Finds counted)

/-- Whether a binder of `body` may not get a name when `s` is put in for `x` below it. -/
def refuses (siblings : List String) (body : Ty) (x : String) (s : Ty) (name : String) : Bool :=
  name == x || siblings.contains name || s.mentions name || body.mentions name

/-- Whether a variable of `body` may not get a name when arguments are put in for all of its
`siblings`. -/
def refusesApart (args : List Ty) (siblings : List String) (body : Ty) (name : String) : Bool :=
  args.any (·.mentions name) || body.mentions name || siblings.contains name

/-- Whether the binders of two bodies may not get a name in common. -/
def refusesBoth (b c : Ty) (name : String) : Bool :=
  b.mentions name || c.mentions name

theorem refuses_iff {siblings : List String} {b s : Ty} {x name : String} :
    refuses siblings b x s name = true ↔ name ∈ taken siblings b x s := by
  simp [refuses, taken, mentions, or_assoc]

theorem refusesApart_iff {args : List Ty} {siblings : List String} {body : Ty} {name : String} :
    refusesApart args siblings body name = true ↔
      name ∈ freeNamesAll args ++ body.freeNames ++ siblings := by
  simp [refusesApart, mentions, mem_freeNamesAll, or_assoc]

theorem refusesBoth_iff {b c : Ty} {name : String} :
    refusesBoth b c name = true ↔ name ∈ b.freeNames ++ c.freeNames := by
  simp [refusesBoth, mentions]

/-- Fresh names are always found. Be it for a binder below which a type is put in, for a variable that
is free in the arguments put in, or for two binders that are aligned: if fewer names are mentioned
than there are numbers, the search ends with the first candidate that is not taken, and that is free
in none of the types that were tested. Its number is at most that of the names, the base name being
one of them. So a base name that is mentioned itself, as the first two are, leaves the counter's last
number unused. -/
theorem fresh_names_found :
    (∀ (base : String) (siblings : List String) (b : Ty) (x : String) (s : Ty),
      (taken siblings b x s).dedup.length < UInt32.size - 1 →
      let fresh := counted base (refuses siblings b x s)
      Finds base (refuses siblings b x s) (base :: taken siblings b x s).dedup.length fresh ∧
        s.mentions fresh = false ∧ b.mentions fresh = false ∧
        (captures base b x s = true →
          (siblings = [] → base ≠ x → (recursive base b).substitute x s =
            recursive fresh ((b.substitute base (var fresh)).substitute x s)) ∧
          ∀ ys : List String,
            let rest := (renameBinders siblings ys (b.substitute base (var fresh)) x s).1
            (renameBinders siblings (base :: ys) b x s).1 = (fresh :: rest.1, rest.2))) ∧
    (∀ (base : String) (args : List Ty) (siblings : List String) (body : Ty),
      (freeNamesAll args ++ body.freeNames ++ siblings).dedup.length < UInt32.size - 1 →
      let fresh := counted base (refusesApart args siblings body)
      Finds base (refusesApart args siblings body)
          (base :: (freeNamesAll args ++ body.freeNames ++ siblings)).dedup.length fresh ∧
        (∀ arg ∈ args, arg.mentions fresh = false) ∧ body.mentions fresh = false ∧
        ((freeNamesAll args).contains base = true → ∀ xs : List String,
          let rest := renameApart args siblings xs (body.substitute base (var fresh))
          renameApart args siblings (base :: xs) body = (fresh :: rest.1, rest.2))) ∧
    ∀ (base : String) (b c : Ty), (b.freeNames ++ c.freeNames).dedup.length < UInt32.size - 1 →
      let fresh := counted base (refusesBoth b c)
      Finds base (refusesBoth b c) (base :: (b.freeNames ++ c.freeNames)).dedup.length fresh ∧
        b.mentions fresh = false ∧ c.mentions fresh = false ∧
        (base = "'" → ∀ x y : String,
          align b x c y = (b.substitute x (var fresh), c.substitute y (var fresh))) := by
  refine ⟨?_, ?_, ?_⟩
  · intro base siblings b x s few
    have finds := Fresh.finds_name base (fun _ => refuses_iff) few
    have free := finds.free
    rw [finds.counted_eq]
    simp only [refuses, Bool.or_eq_false_iff] at free
    refine ⟨finds, free.1.2, free.2, fun captured => ⟨?_, fun ys => ?_⟩⟩
    · rintro rfl other
      rw [substitute_recursive, if_neg other, if_pos captured]
    · rw [renameBinders, if_pos captured]
      rfl
  · intro base args siblings body few
    have finds := Fresh.finds_name base (fun _ => refusesApart_iff) few
    have free := finds.free
    rw [finds.counted_eq]
    simp only [refusesApart, Bool.or_eq_false_iff, List.any_eq_false, Bool.not_eq_true] at free
    refine ⟨finds, free.1.1, free.1.2, fun clash xs => ?_⟩
    rw [renameApart, if_pos clash]
  · intro base b c few
    have finds := Fresh.finds_name base (fun _ => refusesBoth_iff) few
    have free := finds.free
    rw [finds.counted_eq]
    simp only [refusesBoth, Bool.or_eq_false_iff] at free
    refine ⟨finds, free.1, free.2, ?_⟩
    rintro rfl x y
    rfl

/-- Here the first candidates are taken: by the body and by what is put in, by a sibling, by an
argument and a sibling, and by one of two bodies. -/
theorem fresh_names_found_behind_taken :
    let named (xs : List String) : Ty := tuple (xs.map var)
    (recursive "a" (named ["a", "a1", "x"])).substitute "x" (named ["a", "a2"]) =
        recursive "a3"
          (((named ["a", "a1", "x"]).substitute "a" (var "a3")).substitute "x" (named ["a", "a2"])) ∧
      (renameBinders ["a", "a1"] ["a"] (named ["a", "x"]) "x" (var "a")).1 =
        (["a2"], (named ["a", "x"]).substitute "a" (var "a2")) ∧
      renameApart [named ["a", "a1"]] ["a", "a2"] ["a"] (named ["a", "a2"]) =
        (["a3"], (named ["a", "a2"]).substitute "a" (var "a3")) ∧
      align (named ["x", "'1"]) "x" (var "y") "y" =
        ((named ["x", "'1"]).substitute "x" (var "'2"), (var "y").substitute "y" (var "'2")) := by
  intro named
  obtain ⟨captured, clashing, aligned⟩ := fresh_names_found
  obtain ⟨-, -, -, below⟩ :=
    captured "a" [] (named ["a", "a1", "x"]) "x" (named ["a", "a2"]) (by decide)
  obtain ⟨-, -, -, among⟩ := captured "a" ["a", "a1"] (named ["a", "x"]) "x" (var "a") (by decide)
  obtain ⟨-, -, -, apart⟩ :=
    clashing "a" [named ["a", "a1"]] ["a", "a2"] (named ["a", "a2"]) (by decide)
  obtain ⟨-, -, -, both⟩ := aligned "'" (named ["x", "'1"]) (var "y") (by decide)
  have first := (among (by decide)).2 []
  rw [renameBinders_nil] at first
  exact ⟨(below (by decide)).1 rfl (by decide), first, apart (by decide) [], both rfl "x" "y"⟩

end Ty

end StellaLang
