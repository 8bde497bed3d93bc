import StellaLang.Coverage.Nat
import StellaLang.Proofs.Coverage.Matching

/-! Numbers that the patterns leave out. A pattern for numbers matches what its shape says,
as long as the count of its `succ` stays below the largest literal, and no number is
missed by the search for the first absent ones. -/
namespace StellaLang.Coverage

open Syntax (Pattern)
open Syntax.Pattern

/-- How many `succ` stand directly below each other, ascriptions aside. -/
def succDepth : Located Pattern → Nat
  | ⟨p, _⟩ => inNode p
where
  inNode : Pattern → Nat
    | .ascribed p _ => succDepth p
    | .succ p => succDepth p + 1
    | _ => 0

namespace NatShape

/-- A pattern that is not written as a number has a shape only if it is irrefutable. -/
theorem of_other {p : Pattern} {s : NatShape} (shape : of?.ofNode? p = some s)
    (other : of?.ofNode? p = if p.isIrrefutableNode then some (atLeast 0) else none) :
    p.isIrrefutableNode = true ∧ s = atLeast 0 := by
  rw [other] at shape
  split at shape
  · exact ⟨‹_›, (Option.some.inj shape).symm⟩
  · contradiction

mutual

/-- A pattern takes on all numbers from one on that is at most the count of its `succ`. -/
theorem le_depth_of_atLeast {p : Located Pattern} {n : Nat} (shape : of? p = some (atLeast n)) :
    n ≤ succDepth p := by
  obtain ⟨p, position⟩ := p
  exact le_depth_of_atLeast_node shape
termination_by structural p

theorem le_depth_of_atLeast_node {p : Pattern} {n : Nat}
    (shape : of?.ofNode? p = some (atLeast n)) : n ≤ succDepth.inNode p := by
  cases p with
  | ascribed q type => exact le_depth_of_atLeast (p := q) shape
  | nat m => cases shape
  | succ q =>
    obtain ⟨inner, found, grown⟩ := Option.map_eq_some_iff.mp shape
    cases inner with
    | exactly m => cases grown
    | atLeast m =>
      cases grown
      have below := le_depth_of_atLeast found
      simp only [nextNumber, succDepth.inNode]
      omega
  | _ =>
    obtain ⟨-, same⟩ := of_other shape rfl
    cases same
    exact Nat.zero_le _
termination_by structural p

end

mutual

/-- A pattern for one number matches it, unless the number is the largest literal, where
counting stops. -/
theorem catches_of_exactly {p : Located Pattern} {n : Nat} (shape : of? p = some (exactly n))
    (small : n < maxLiteral) : catches p (.nat n) = true := by
  obtain ⟨p, position⟩ := p
  exact catches_of_exactly_node shape small
termination_by structural p

theorem catches_of_exactly_node {p : Pattern} {n : Nat} (shape : of?.ofNode? p = some (exactly n))
    (small : n < maxLiteral) : catchesNode p (.nat n) = true := by
  cases p with
  | ascribed q type => exact catches_of_exactly (p := q) shape small
  | nat m =>
    cases shape
    exact beq_self_eq_true n
  | succ q =>
    obtain ⟨inner, found, grown⟩ := Option.map_eq_some_iff.mp shape
    cases inner with
    | atLeast m => cases grown
    | exactly m =>
      have next : nextNumber m = n := by cases grown; rfl
      obtain rfl : m + 1 = n := by simp only [nextNumber] at next; omega
      exact catches_of_exactly found (by omega)
  | _ =>
    obtain ⟨-, same⟩ := of_other shape rfl
    cases same
termination_by structural p

end

mutual

/-- A pattern for all numbers from one on matches each of them, if its `succ` can be
counted. -/
theorem catches_of_atLeast {p : Located Pattern} {least n : Nat}
    (shape : of? p = some (atLeast least)) (depth : succDepth p ≤ maxLiteral) (le : least ≤ n)
    (suits : Suits p (.nat n)) : catches p (.nat n) = true := by
  obtain ⟨p, position⟩ := p
  exact catches_of_atLeast_node shape depth le suits
termination_by structural p

theorem catches_of_atLeast_node {p : Pattern} {least n : Nat}
    (shape : of?.ofNode? p = some (atLeast least)) (depth : succDepth.inNode p ≤ maxLiteral)
    (le : least ≤ n) (suits : SuitsNode p (.nat n)) : catchesNode p (.nat n) = true := by
  cases p with
  | ascribed q type => exact catches_of_atLeast (p := q) shape depth le suits
  | nat m => cases shape
  | succ q =>
    obtain ⟨inner, found, grown⟩ := Option.map_eq_some_iff.mp shape
    cases inner with
    | exactly m => cases grown
    | atLeast m =>
      have next : nextNumber m = least := by cases grown; rfl
      have below := le_depth_of_atLeast found
      simp only [succDepth.inNode] at depth
      simp only [nextNumber] at next
      cases n with
      | zero => omega
      | succ n => exact catches_of_atLeast found (by omega) (by omega) suits
  | _ =>
    obtain ⟨irrefutable, -⟩ := of_other shape rfl
    exact catchesNode_of_irrefutable irrefutable suits
termination_by structural p

end

end NatShape

/-- The search for absent numbers comes back empty only if there are none. -/
theorem mem_of_firstAbsent_eq_nil {present : List Nat} {limit n : Nat}
    (none : firstAbsent present limit = []) (below : n < limit) : n ∈ present := by
  have all : ∀ i < min limit (present.length + natWitnesses), i ∈ present := by
    intro i candidate
    by_contra absent
    have found : i ∈ (List.range (min limit (present.length + natWitnesses))).filter (· ∉ present) := by
      simpa using ⟨by omega, absent⟩
    rw [firstAbsent, List.take_eq_nil_iff] at none
    rcases none with zero | none
    · contradiction
    · rw [none] at found
      contradiction
  by_cases few : limit ≤ present.length + natWitnesses
  · exact all n (by omega)
  · -- Otherwise `present` would hold more different numbers than it has entries.
    have inside : List.range (present.length + natWitnesses) ⊆ present := by
      intro i member
      have bound := List.mem_range.mp member
      exact all i (by omega)
    have short := List.Nodup.length_le_of_subset List.nodup_range inside
    rw [List.length_range, natWitnesses] at short
    omega

/-- Numbers are covered if nothing is found to be missing. -/
theorem missingNat_sound {patterns : List (Located Pattern)} (covered : missingNat patterns = [])
    {n : Nat} (depth : ∀ p ∈ patterns, succDepth p ≤ maxLiteral)
    (suits : ∀ p ∈ patterns, Suits p (.nat n)) : ∃ p ∈ patterns, catches p (.nat n) = true := by
  rw [missingNat] at covered
  dsimp only at covered
  split at covered
  · rename_i threshold found
    obtain ⟨shape, shaped, fromOn⟩ := List.mem_filterMap.mp (List.min?_mem found)
    obtain ⟨p, here, shapeOf⟩ := List.mem_filterMap.mp shaped
    cases shape with
    | exactly => contradiction
    | atLeast least =>
      obtain rfl : least = threshold := Option.some.inj fromOn
      by_cases le : least ≤ n
      · exact ⟨p, here, NatShape.catches_of_atLeast shapeOf (depth p here) le (suits p here)⟩
      · have bound := Nat.le_trans (NatShape.le_depth_of_atLeast shapeOf) (depth p here)
        have present := mem_of_firstAbsent_eq_nil (List.map_eq_nil_iff.mp covered) (Nat.lt_of_not_le le)
        obtain ⟨shape, shaped, single⟩ := List.mem_filterMap.mp present
        obtain ⟨q, there, shapeOf⟩ := List.mem_filterMap.mp shaped
        cases shape with
        | atLeast => contradiction
        | exactly m =>
          obtain rfl : m = n := Option.some.inj single
          exact ⟨q, there, NatShape.catches_of_exactly shapeOf (by omega)⟩
  · simp at covered

end StellaLang.Coverage
