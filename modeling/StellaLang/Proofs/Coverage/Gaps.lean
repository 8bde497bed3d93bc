import StellaLang.Proofs.Coverage.Fitting
import StellaLang.Proofs.Coverage.Plain

/-! Gaps of types that are made of constructors. Every gap found is a real one: it describes a value
of the type that no pattern matches, whatever the patterns are made for. -/
namespace StellaLang

open Syntax (Pattern)
open Syntax.Pattern

namespace Coverage.Gap

mutual

/-- Whether a value has the shape of a gap. -/
def describes : Gap → Value → Bool
  | any, _ => true
  | bool b, .bool c => b == c
  | unit, .unit => true
  | nat m, .nat n => m == n
  | natFrom least, .nat n => decide (least ≤ n)
  | inl g, .inl v => describes g v
  | inr g, .inr v => describes g v
  | nil, .list [] => true
  | cons, .list (_ :: _) => true
  | variant l none, .variant m none => l == m
  | variant l (some g), .variant m (some v) => l == m && describes g v
  | tuple gs, .tuple vs => describesAll gs vs
  | record fs, .record vs => describesFields fs vs
  | _, _ => false
termination_by structural g => g

/-- Each gap against its own value. -/
def describesAll : List Gap → List Value → Bool
  | [], [] => true
  | g :: gs, v :: vs => describes g v && describesAll gs vs
  | _, _ => false
termination_by structural gs => gs

/-- Every field that is listed is there and has the shape. -/
def describesFields : List (String × Gap) → List (String × Value) → Bool
  | [], _ => true
  | (l, g) :: fs, vs => (vs.lookup l).any (describes g) && describesFields fs vs
termination_by structural fs => fs

end

end Coverage.Gap

namespace Syntax.Pattern

mutual

theorem isIrrefutable_strip (p : Located Pattern) : isIrrefutable p = isIrrefutableNode (strip p) := by
  obtain ⟨p, position⟩ := p
  exact isIrrefutableNode_strip p
termination_by structural p

theorem isIrrefutableNode_strip (p : Pattern) :
    isIrrefutableNode p = isIrrefutableNode (strip.stripNode p) := by
  cases p with
  | ascribed p type => exact isIrrefutable_strip p
  | _ => rfl
termination_by structural p

end

section Views

/-! A refutable pattern that matches a value shows the constructor of the value below its
ascriptions. -/

variable {p : Located Pattern} (refutable : isIrrefutable p = false)

include refutable

theorem bool?_of_catches {b : Bool} (caught : catches p (.bool b) = true) : bool? p = some b := by
  rw [isIrrefutable_strip] at refutable
  rw [catches_strip] at caught
  unfold bool?
  generalize stripped : strip p = q at *
  cases q with
  | bool c => exact congrArg some (eq_of_beq caught)
  | ascribed q type => exact absurd stripped (strip_ne_ascribed p q type)
  | variant l payload => cases payload <;> contradiction
  | _ => contradiction

theorem not_catches_unit : catches p .unit = false := by
  by_contra caught
  rw [Bool.not_eq_false, catches_strip] at caught
  rw [isIrrefutable_strip] at refutable
  generalize stripped : strip p = q at *
  cases q with
  | ascribed q type => exact absurd stripped (strip_ne_ascribed p q type)
  | variant l payload => cases payload <;> contradiction
  | _ => contradiction

theorem inl?_of_catches {v : Value} (caught : catches p (.inl v) = true) :
    ∃ q, inl? p = some q ∧ catches q v = true := by
  rw [isIrrefutable_strip] at refutable
  rw [catches_strip] at caught
  unfold inl?
  generalize stripped : strip p = q at *
  cases q with
  | inl q => exact ⟨q, rfl, caught⟩
  | ascribed q type => exact absurd stripped (strip_ne_ascribed p q type)
  | variant l payload => cases payload <;> contradiction
  | _ => contradiction

theorem inr?_of_catches {v : Value} (caught : catches p (.inr v) = true) :
    ∃ q, inr? p = some q ∧ catches q v = true := by
  rw [isIrrefutable_strip] at refutable
  rw [catches_strip] at caught
  unfold inr?
  generalize stripped : strip p = q at *
  cases q with
  | inr q => exact ⟨q, rfl, caught⟩
  | ascribed q type => exact absurd stripped (strip_ne_ascribed p q type)
  | variant l payload => cases payload <;> contradiction
  | _ => contradiction

theorem payload?_of_catches_plain {l : String} (caught : catches p (.variant l none) = true) :
    payload? l p = some none := by
  rw [isIrrefutable_strip] at refutable
  rw [catches_strip] at caught
  unfold payload?
  generalize stripped : strip p = q at *
  cases q with
  | variant m payload =>
    cases payload with
    | none =>
      obtain rfl : m = l := eq_of_beq caught
      exact if_pos rfl
    | some => contradiction
  | ascribed q type => exact absurd stripped (strip_ne_ascribed p q type)
  | _ => contradiction

theorem payload?_of_catches {l : String} {v : Value} (caught : catches p (.variant l (some v)) = true) :
    ∃ q, payload? l p = some (some q) ∧ catches q v = true := by
  rw [isIrrefutable_strip] at refutable
  rw [catches_strip] at caught
  unfold payload?
  generalize stripped : strip p = q at *
  cases q with
  | variant m payload =>
    cases payload with
    | none => contradiction
    | some q =>
      rw [catchesNode, Bool.and_eq_true, beq_iff_eq] at caught
      obtain ⟨rfl, caught⟩ := caught
      exact ⟨q, if_pos rfl, caught⟩
  | ascribed q type => exact absurd stripped (strip_ne_ascribed p q type)
  | _ => contradiction

end Views

end Syntax.Pattern

namespace Coverage

section Numbers

namespace NatShape

/-- Whether a number is of a shape, as far as numbers can be counted. -/
def Admits : Option NatShape → Nat → Prop
  | none, _ => False
  | some (exactly m), n => m = n ∨ maxLiteral ≤ m ∧ maxLiteral ≤ n
  | some (atLeast m), n => m ≤ n

theorem Admits.succ {s : Option NatShape} {n : Nat} (admits : Admits s n) :
    Admits (s.map NatShape.succ) (n + 1) := by
  rcases s with _ | m | m
  · contradiction
  · simp only [Admits, Option.map_some, NatShape.succ, nextNumber] at admits ⊢
    omega
  · simp only [Admits, Option.map_some, NatShape.succ, nextNumber] at admits ⊢
    omega

mutual

/-- A pattern matches no number that is not of its shape. -/
theorem admits_of_catches {p : Located Pattern} {n : Nat} (caught : catches p (.nat n) = true) :
    Admits (of? p) n := by
  obtain ⟨p, position⟩ := p
  exact admits_of_catches_node caught
termination_by structural p

theorem admits_of_catches_node {p : Pattern} {n : Nat} (caught : catchesNode p (.nat n) = true) :
    Admits (of?.ofNode? p) n := by
  cases p with
  | ascribed q type => exact admits_of_catches (p := q) caught
  | nat m => exact .inl (eq_of_beq caught)
  | succ q =>
    cases n with
    | zero => contradiction
    | succ n => exact (admits_of_catches (p := q) caught).succ
  | var x => exact Nat.zero_le n
  | variant l payload => cases payload <;> contradiction
  | _ => contradiction
termination_by structural p

end

mutual

/-- A pattern for single numbers matches none past some number. -/
theorem exists_bound {p : Located Pattern} (single : ∀ m, of? p ≠ some (atLeast m)) :
    ∃ bound, ∀ n, catches p (.nat n) = true → n ≤ bound := by
  obtain ⟨p, position⟩ := p
  exact exists_bound_node single
termination_by structural p

theorem exists_bound_node {p : Pattern} (single : ∀ m, of?.ofNode? p ≠ some (atLeast m)) :
    ∃ bound, ∀ n, catchesNode p (.nat n) = true → n ≤ bound := by
  cases p with
  | ascribed q type => exact exists_bound (p := q) single
  | nat m =>
    refine ⟨m, fun n caught => ?_⟩
    exact Nat.le_of_eq (eq_of_beq caught).symm
  | succ q =>
    have inner : ∀ m, of? q ≠ some (atLeast m) := by
      intro m shape
      exact single (nextNumber m) (congrArg (Option.map NatShape.succ) shape)
    obtain ⟨bound, small⟩ := exists_bound inner
    refine ⟨bound + 1, fun n caught => ?_⟩
    cases n with
    | zero => exact Nat.zero_le _
    | succ n => exact Nat.succ_le_succ (small n caught)
  | var x => exact absurd rfl (single 0)
  | variant l payload => exact ⟨0, fun n caught => by cases payload <;> contradiction⟩
  | _ => exact ⟨0, fun n caught => by contradiction⟩
termination_by structural p

end

mutual

theorem le_maxLiteral_of_atLeast {p : Located Pattern} {n : Nat} (shape : of? p = some (atLeast n)) :
    n ≤ maxLiteral := by
  obtain ⟨p, position⟩ := p
  exact le_maxLiteral_of_atLeast_node shape
termination_by structural p

theorem le_maxLiteral_of_atLeast_node {p : Pattern} {n : Nat}
    (shape : of?.ofNode? p = some (atLeast n)) : n ≤ maxLiteral := by
  cases p with
  | ascribed q type => exact le_maxLiteral_of_atLeast (p := q) shape
  | nat m => cases shape
  | succ q =>
    obtain ⟨inner, -, grown⟩ := Option.map_eq_some_iff.mp shape
    cases inner with
    | exactly m => cases grown
    | atLeast m =>
      cases grown
      exact Nat.min_le_right ..
  | _ =>
    obtain ⟨-, same⟩ := of_other shape rfl
    cases same
    exact Nat.zero_le _
termination_by structural p

end

end NatShape

variable {ps : List (Located Pattern)} {n : Nat}

theorem mem_firstAbsent {present : List Nat} {limit : Nat} (absent : n ∈ firstAbsent present limit) :
    n < limit ∧ n ∉ present := by
  have candidate := List.mem_filter.mp (List.mem_of_mem_take absent)
  have range := List.mem_range.mp candidate.1
  exact ⟨by omega, by simpa using candidate.2⟩

/-- A number that can be counted, is no pattern's own and below all that patterns take on, is
matched by none. -/
theorem not_catches_of_absent (small : n < maxLiteral)
    (absent : n ∉ (ps.filterMap NatShape.of?).filterMap NatShape.literal?)
    (below : ∀ least ∈ (ps.filterMap NatShape.of?).filterMap NatShape.threshold?, n < least) :
    ∀ p ∈ ps, catches p (.nat n) = false := by
  intro p member
  by_contra caught
  have admits := NatShape.admits_of_catches (Bool.not_eq_false _ ▸ caught)
  have listed {s : NatShape} (shape : NatShape.of? p = some s) : s ∈ ps.filterMap NatShape.of? :=
    List.mem_filterMap.mpr ⟨p, member, shape⟩
  rcases shape : NatShape.of? p with _ | m | least
  · rw [shape] at admits
    contradiction
  · rw [shape] at admits
    have own : m = n := by
      rcases admits with same | ⟨-, large⟩
      · exact same
      · omega
    exact absent (List.mem_filterMap.mpr ⟨_, listed shape, congrArg some own⟩)
  · rw [shape] at admits
    have above : least ≤ n := admits
    have := below least (List.mem_filterMap.mpr ⟨_, listed shape, rfl⟩)
    omega

/-- Patterns for single numbers leave out all numbers from some number on. -/
theorem exists_bound_of_single (single : (ps.filterMap NatShape.of?).filterMap NatShape.threshold? = []) :
    ∃ bound, ∀ n, bound < n → ∀ p ∈ ps, catches p (.nat n) = false := by
  induction ps with
  | nil => exact ⟨0, fun _ _ p member => nomatch member⟩
  | cons p ps ih =>
    have each : ∀ q ∈ p :: ps, ∀ m, NatShape.of? q ≠ some (.atLeast m) := by
      intro q member m shape
      have listed : m ∈ ((p :: ps).filterMap NatShape.of?).filterMap NatShape.threshold? :=
        List.mem_filterMap.mpr ⟨_, List.mem_filterMap.mpr ⟨q, member, shape⟩, rfl⟩
      rw [single] at listed
      contradiction
    have rest : (ps.filterMap NatShape.of?).filterMap NatShape.threshold? = [] := by
      refine List.eq_nil_iff_forall_not_mem.mpr fun m listed => ?_
      obtain ⟨s, shaped, fromOn⟩ := List.mem_filterMap.mp listed
      obtain ⟨q, member, shape⟩ := List.mem_filterMap.mp shaped
      cases s with
      | exactly => contradiction
      | atLeast least => exact each q (List.mem_cons_of_mem p member) least shape
    obtain ⟨first, small⟩ := NatShape.exists_bound (each p List.mem_cons_self)
    obtain ⟨others, missed⟩ := ih rest
    refine ⟨max first others, fun n large q member => ?_⟩
    rcases List.mem_cons.mp member with rfl | member
    · by_contra caught
      have := small n (Bool.not_eq_false _ ▸ caught)
      omega
    · exact missed n (by omega) q member

/-- Every gap in the numbers has one in it that no pattern matches. -/
theorem exists_missed_nat {g : Gap} (gap : g ∈ missingNat ps) :
    ∃ n, g.describes (.nat n) = true ∧ ∀ p ∈ ps, catches p (.nat n) = false := by
  rw [missingNat] at gap
  dsimp only at gap
  split at gap
  · rename_i threshold found
    obtain ⟨least, lower⟩ := List.min?_eq_some_iff.mp found
    have countable : threshold ≤ maxLiteral := by
      obtain ⟨s, shaped, fromOn⟩ := List.mem_filterMap.mp least
      obtain ⟨q, -, shape⟩ := List.mem_filterMap.mp shaped
      cases s with
      | exactly => contradiction
      | atLeast m =>
        cases fromOn
        exact NatShape.le_maxLiteral_of_atLeast shape
    obtain ⟨n, absent, rfl⟩ := List.mem_map.mp gap
    obtain ⟨below, new⟩ := mem_firstAbsent absent
    refine ⟨n, beq_self_eq_true n, not_catches_of_absent (by omega) new fun m listed => ?_⟩
    have := lower m listed
    omega
  · rename_i none
    have single := List.min?_eq_none_iff.mp none
    generalize limited : ((ps.filterMap NatShape.of?).filterMap NatShape.literal?).max?.elim 0 nextNumber
      = limit at gap
    rcases List.mem_append.mp gap with gap | gap
    · have countable : limit ≤ maxLiteral := by
        rw [← limited]
        cases ((ps.filterMap NatShape.of?).filterMap NatShape.literal?).max? with
        | none => exact Nat.zero_le _
        | some m => exact Nat.min_le_right ..
      obtain ⟨n, absent, rfl⟩ := List.mem_map.mp gap
      obtain ⟨below, new⟩ := mem_firstAbsent absent
      refine ⟨n, beq_self_eq_true n, not_catches_of_absent (by omega) new fun m listed => ?_⟩
      rw [single] at listed
      contradiction
    · obtain rfl := List.mem_singleton.mp gap
      obtain ⟨bound, missed⟩ := exists_bound_of_single single
      exact ⟨limit + bound + 1, decide_eq_true (by omega), missed _ (by omega)⟩

end Numbers

section Alternatives

variable {ps : List (Located Pattern)}

/-- The gaps in one alternative. -/
def missingAlternative (ps : List (Located Pattern)) : String × Option Ty → List Gap
  | (l, none) => if (ps.filterMap (payload? l)).isEmpty then [.variant l none] else []
  | (l, some t) =>
    let payloads := ps.filterMap (payload? l)
    let inner := payloads.filterMap id
    if payloads.isEmpty then [.variant l (some .any)]
    else if inner.isEmpty then []
    else (missing t inner).map fun g => .variant l (some g)

theorem missingAlternatives_eq_flatMap (fs : List (String × Option Ty)) :
    missingAlternatives fs ps = fs.flatMap (missingAlternative ps) := by
  induction fs with
  | nil => rw [missingAlternatives, List.flatMap_nil]
  | cons f fs ih =>
    obtain ⟨l, payload⟩ := f
    cases payload with
    | none => rw [missingAlternatives, ih, List.flatMap_cons, missingAlternative]
    | some t => rw [missingAlternatives, ih, List.flatMap_cons, missingAlternative]

/-- Without a pattern for the payload the alternative is missing as a whole, or not at all. -/
theorem mem_missingAlternative {l : String} {t : Ty} {g : Gap}
    (gap : g ∈ missingAlternative ps (l, some t)) :
    g ∈ (if ((ps.filterMap (payload? l)).filterMap id).isEmpty then [.variant l (some .any)]
      else (missing t ((ps.filterMap (payload? l)).filterMap id)).map fun g => .variant l (some g)) := by
  rw [missingAlternative] at gap
  split at gap
  · rename_i unnamed
    rw [List.isEmpty_iff.mp unnamed]
    exact gap
  · split at gap
    · contradiction
    · rename_i asked
      rw [if_neg asked]
      exact gap

end Alternatives

/-- That every gap found describes a value of the type which none of the patterns match. -/
def Genuine (t : Ty) : Prop :=
  ∀ (ps : List (Located Pattern)) g, g ∈ missing t ps →
    ∃ v, HasType v t ∧ g.describes v = true ∧ ∀ p ∈ ps, catches p v = false

section Shapes

/-- Next to an irrefutable pattern nothing is missing, so it is enough to look at the shape of the
type if there is none. -/
theorem genuine_of_refutable {t : Ty}
    (genuine : ∀ ps : List (Located Pattern), (t.isWildcard || ps.any isIrrefutable) = false →
      (∀ p ∈ ps, isIrrefutable p = false) → ∀ g ∈ missing t ps,
      ∃ v, HasType v t ∧ g.describes v = true ∧ ∀ p ∈ ps, catches p v = false) : Genuine t := by
  intro ps g gap
  cases settled : t.isWildcard || ps.any isIrrefutable with
  | true =>
    rw [missing.eq_def, if_pos settled] at gap
    contradiction
  | false =>
    refine genuine ps settled (fun p member => ?_) g gap
    exact Bool.eq_false_iff.mpr (List.any_eq_false.mp (Bool.or_eq_false_iff.mp settled).2 p member)

/-- The values of a constructor are missing as a whole if no pattern is for it. -/
theorem Genuine.nested {t : Ty} (genuine : Genuine t) (inhabited : ∃ v, HasType v t)
    {ps : List (Located Pattern)} {wrap : Gap → Gap} {g : Gap}
    (gap : g ∈ (if ps.isEmpty then [wrap .any] else (missing t ps).map wrap)) :
    ∃ inner v, wrap inner = g ∧ HasType v t ∧ inner.describes v = true ∧ ∀ p ∈ ps, catches p v = false := by
  split at gap
  · rename_i empty
    obtain ⟨v, typed⟩ := inhabited
    refine ⟨.any, v, (List.mem_singleton.mp gap).symm, typed, rfl, ?_⟩
    rw [List.isEmpty_iff.mp empty]
    exact fun _ member => nomatch member
  · obtain ⟨inner, below, rfl⟩ := List.mem_map.mp gap
    obtain ⟨v, found⟩ := genuine ps inner below
    exact ⟨inner, v, rfl, found⟩

theorem genuine_bool : Genuine .bool := by
  refine genuine_of_refutable fun ps settled refutable g gap => ?_
  rw [missing, settled] at gap
  have missed {b : Bool} (unnamed : b ∉ ps.filterMap bool?) : ∀ p ∈ ps, catches p (.bool b) = false := by
    intro p member
    by_contra caught
    have named := bool?_of_catches (refutable p member) (Bool.not_eq_false _ ▸ caught)
    exact unnamed (List.mem_filterMap.mpr ⟨p, member, named⟩)
  rcases List.mem_append.mp gap with gap | gap <;> split at gap
  · contradiction
  · rename_i unnamed
    obtain rfl := List.mem_singleton.mp gap
    exact ⟨.bool true, .bool true, rfl, missed (by simpa using unnamed)⟩
  · contradiction
  · rename_i unnamed
    obtain rfl := List.mem_singleton.mp gap
    exact ⟨.bool false, .bool false, rfl, missed (by simpa using unnamed)⟩

theorem genuine_unit : Genuine .unit := by
  refine genuine_of_refutable fun ps settled refutable g gap => ?_
  rw [missing, settled] at gap
  obtain rfl := List.mem_singleton.mp gap
  exact ⟨.unit, .unit, rfl, fun p member => not_catches_unit (refutable p member)⟩

theorem genuine_nat : Genuine .nat := by
  refine genuine_of_refutable fun ps settled refutable g gap => ?_
  rw [missing, settled] at gap
  obtain ⟨n, described, missed⟩ := exists_missed_nat gap
  exact ⟨.nat n, .nat n, described, missed⟩

theorem genuine_sum {l r : Ty} (left : Genuine l) (right : Genuine r) (leftInhabited : ∃ v, HasType v l)
    (rightInhabited : ∃ v, HasType v r) : Genuine (.sum l r) := by
  refine genuine_of_refutable fun ps settled refutable g gap => ?_
  rw [missing, settled] at gap
  rcases List.mem_append.mp gap with gap | gap
  · obtain ⟨inner, v, rfl, typed, described, missed⟩ := left.nested leftInhabited gap
    refine ⟨.inl v, .inl typed, described, fun p member => ?_⟩
    by_contra caught
    obtain ⟨q, shape, caught⟩ := inl?_of_catches (refutable p member) (Bool.not_eq_false _ ▸ caught)
    rw [missed q (List.mem_filterMap.mpr ⟨p, member, shape⟩)] at caught
    contradiction
  · obtain ⟨inner, v, rfl, typed, described, missed⟩ := right.nested rightInhabited gap
    refine ⟨.inr v, .inr typed, described, fun p member => ?_⟩
    by_contra caught
    obtain ⟨q, shape, caught⟩ := inr?_of_catches (refutable p member) (Bool.not_eq_false _ ▸ caught)
    rw [missed q (List.mem_filterMap.mpr ⟨p, member, shape⟩)] at caught
    contradiction

theorem genuine_variant {fs : List (String × Option Ty)} (distinct : (fs.map (·.1)).Nodup)
    (payloads : ∀ l t, (l, some t) ∈ fs → Genuine t ∧ ∃ v, HasType v t) : Genuine (.variant fs) := by
  refine genuine_of_refutable fun ps settled refutable g gap => ?_
  rw [missing, settled] at gap
  change g ∈ missingAlternatives fs ps at gap
  rw [missingAlternatives_eq_flatMap] at gap
  obtain ⟨⟨l, payload⟩, listed, gap⟩ := List.mem_flatMap.mp gap
  have found := lookup_of_nodup distinct listed
  cases payload with
  | none =>
    rw [missingAlternative] at gap
    split at gap
    · rename_i unnamed
      obtain rfl := List.mem_singleton.mp gap
      refine ⟨.variant l none, .plain found, beq_self_eq_true l, fun p member => ?_⟩
      by_contra caught
      have shape := payload?_of_catches_plain (refutable p member) (Bool.not_eq_false _ ▸ caught)
      have named := List.mem_filterMap.mpr ⟨p, member, shape⟩
      rw [List.isEmpty_iff.mp unnamed] at named
      contradiction
    · contradiction
  | some t =>
    obtain ⟨genuine, inhabited⟩ := payloads l t listed
    obtain ⟨inner, v, rfl, typed, described, missed⟩ :=
      genuine.nested inhabited (mem_missingAlternative gap)
    refine ⟨.variant l (some v), .carrying found typed, ?_, fun p member => ?_⟩
    · rw [Gap.describes, beq_self_eq_true, Bool.true_and]
      exact described
    · by_contra caught
      obtain ⟨q, shape, caught⟩ :=
        payload?_of_catches (refutable p member) (Bool.not_eq_false _ ▸ caught)
      have asked : q ∈ (ps.filterMap (payload? l)).filterMap id :=
        List.mem_filterMap.mpr ⟨some q, List.mem_filterMap.mpr ⟨p, member, shape⟩, rfl⟩
      rw [missed q asked] at caught
      contradiction

end Shapes

end Coverage

namespace Ty

mutual

/-- Types built from truth values, the unit value, numbers, sums, and variants that have an
alternative and no label twice. -/
def isConstructed : Ty → Bool
  | bool | unit | nat => true
  | sum l r => l.isConstructed && r.isConstructed
  | variant fs => !fs.isEmpty && decide (fs.map (·.1)).Nodup && allAlternativesConstructed fs
  | _ => false

def allAlternativesConstructed : List (String × Option Ty) → Bool
  | [] => true
  | (_, none) :: fs => allAlternativesConstructed fs
  | (_, some t) :: fs => t.isConstructed && allAlternativesConstructed fs

end

end Ty

namespace Coverage

mutual

/-- Such a type has values, and the search for gaps invents none. -/
theorem genuine_of_constructed {t : Ty} (constructed : t.isConstructed = true) :
    Genuine t ∧ ∃ v, HasType v t := by
  match t with
  | .bool => exact ⟨genuine_bool, .bool true, .bool true⟩
  | .unit => exact ⟨genuine_unit, .unit, .unit⟩
  | .nat => exact ⟨genuine_nat, .nat 0, .nat 0⟩
  | .sum l r =>
    rw [Ty.isConstructed, Bool.and_eq_true] at constructed
    obtain ⟨left, v, typed⟩ := genuine_of_constructed constructed.1
    obtain ⟨right, inhabited⟩ := genuine_of_constructed constructed.2
    exact ⟨genuine_sum left right ⟨v, typed⟩ inhabited, .inl v, .inl typed⟩
  | .variant fs =>
    rw [Ty.isConstructed, Bool.and_eq_true, Bool.and_eq_true, decide_eq_true_eq] at constructed
    obtain ⟨⟨nonempty, distinct⟩, constructed⟩ := constructed
    have payloads := genuine_of_alternatives constructed
    refine ⟨genuine_variant distinct payloads, ?_⟩
    match fs with
    | [] => contradiction
    | (l, none) :: _ => exact ⟨_, .plain List.lookup_cons_self⟩
    | (l, some t) :: _ =>
      obtain ⟨-, v, typed⟩ := payloads l t List.mem_cons_self
      exact ⟨_, .carrying List.lookup_cons_self typed⟩
termination_by structural t

theorem genuine_of_alternatives {fs : List (String × Option Ty)}
    (constructed : Ty.allAlternativesConstructed fs = true) :
    ∀ l t, (l, some t) ∈ fs → Genuine t ∧ ∃ v, HasType v t := by
  match fs with
  | [] => exact fun _ _ member => nomatch member
  | (_, none) :: fs =>
    rw [Ty.allAlternativesConstructed] at constructed
    rintro l u (_ | ⟨_, later⟩)
    exact genuine_of_alternatives constructed l u later
  | (_, some t) :: fs =>
    rw [Ty.allAlternativesConstructed, Bool.and_eq_true] at constructed
    rintro l u (_ | ⟨_, later⟩)
    · exact genuine_of_constructed constructed.1
    · exact genuine_of_alternatives constructed.2 l u later
termination_by structural fs

end

/-- If a gap is found, some value is missed, also by patterns that do not fit the type. A cast may
always fail and counts as missing the value. -/
theorem exists_missed_of_gap {t : Ty} (constructed : t.isConstructed = true)
    {ps : List (Located Pattern)} (gap : missing t ps ≠ []) :
    ∃ v, HasType v t ∧ ∀ p ∈ ps, catches p v = false := by
  obtain ⟨g, found⟩ := List.exists_mem_of_ne_nil _ gap
  obtain ⟨v, typed, -, missed⟩ := (genuine_of_constructed constructed).1 ps g found
  exact ⟨v, typed, missed⟩

/-- A reading that may have failed, as a number or with a reason. -/
def reading : Ty :=
  .sum .nat (.variant [("offline", none), ("saturated", some .bool)])

def readingPatterns : List (Located Pattern) :=
  [⟨.inl ⟨.succ ⟨.succ ⟨.var "n", none⟩, none⟩, none⟩, none⟩, ⟨.inl ⟨.nat 0, none⟩, none⟩,
    ⟨.inr ⟨.variant "offline" none, none⟩, none⟩,
    ⟨.inr ⟨.variant "saturated" (some ⟨.ascribed ⟨.bool true, none⟩ ⟨.bool, none⟩, none⟩), none⟩, none⟩]

theorem reading_missed :
    reading.isConstructed = true ∧ missing reading readingPatterns ≠ [] ∧
      ∃ v, HasType v reading ∧ ∀ p ∈ readingPatterns, catches p v = false := by
  have constructed : reading.isConstructed = true := by decide +kernel
  have gap : missing reading readingPatterns ≠ [] := by decide +kernel
  exact ⟨constructed, gap, exists_missed_of_gap constructed gap⟩

end Coverage

end StellaLang
