import StellaLang.Coverage
import StellaLang.Proofs.Coverage.Nat
import StellaLang.Syntax.Node

/-! Patterns that fit a type suit all its values. What a pattern fits, its parts fit below, so
that the search for gaps may go down with them. -/
namespace StellaLang.Coverage

open Syntax (Node Pattern)
open Syntax.Pattern

/-- No record pattern among these nodes lists a label twice, and the `succ` of each can be
counted. -/
structure Regular (nodes : List Node) : Prop where
  labels : ∀ fs position, Node.pattern ⟨.record fs, position⟩ ∈ nodes → (fs.map (·.1)).Nodup
  depth : ∀ p, Node.pattern p ∈ nodes → succDepth p ≤ maxLiteral

theorem Regular.mono {ns ms : List Node} (regular : Regular ns) (fewer : ms ⊆ ns) : Regular ms where
  labels := fun fs position member => regular.labels fs position (fewer member)
  depth := fun p member => regular.depth p (fewer member)

/-- Whether a node is a pattern that may stand among regular ones. -/
def Regular.check : Node → Bool
  | .pattern ⟨.record fs, _⟩ => decide (fs.map (·.1)).Nodup
  | .pattern p => decide (succDepth p ≤ maxLiteral)
  | _ => true

theorem Regular.of_check {nodes : List Node} (checked : nodes.all check = true) :
    Regular nodes := by
  rw [List.all_eq_true] at checked
  refine ⟨fun fs position member => ?_, fun p member => ?_⟩
  · exact of_decide_eq_true (checked _ member)
  · obtain ⟨p, position⟩ := p
    have passed := checked _ member
    cases p with
    | record => exact Nat.zero_le _
    | _ => exact of_decide_eq_true passed

/-- That a pattern is made for the values of a type. -/
structure Fits (t : Ty) (p : Located Pattern) : Prop where
  suits : ∀ v, HasType v t → Suits p v
  regular : Regular (postOrder p)

section Strip

mutual

/-- Below the ascriptions around it a pattern is the same. -/
theorem suits_strip {p : Located Pattern} {v : Value} (suits : Suits p v) : SuitsNode (strip p) v := by
  obtain ⟨p, position⟩ := p
  exact suitsNode_strip suits
termination_by structural p

theorem suitsNode_strip {p : Pattern} {v : Value} (suits : SuitsNode p v) :
    SuitsNode (strip.stripNode p) v := by
  cases p with
  | ascribed p type => exact suits_strip (p := p) suits
  | _ => exact suits
termination_by structural p

end

mutual

theorem postOrder_strip (p : Located Pattern) :
    ∃ position, postOrder ⟨strip p, position⟩ ⊆ postOrder p := by
  obtain ⟨p, position⟩ := p
  exact postOrder_stripNode p position
termination_by structural p

theorem postOrder_stripNode (p : Pattern) (position : Option Position) :
    ∃ inner, postOrder ⟨strip.stripNode p, inner⟩ ⊆ postOrder ⟨p, position⟩ := by
  cases p with
  | ascribed p type =>
    obtain ⟨inner, within⟩ := postOrder_strip p
    refine ⟨inner, fun n member => ?_⟩
    exact List.mem_append_left _ (List.mem_append_left _ (within member))
  | _ => exact ⟨position, List.Subset.refl _⟩
termination_by structural p

end

end Strip

section Shapes

variable {p q : Located Pattern}

theorem strip_of_bool {b : Bool} (shape : bool? p = some b) : strip p = .bool b := by
  unfold bool? at shape
  split at shape
  · rename_i same
    cases shape
    exact same
  · contradiction

theorem strip_of_inl (shape : inl? p = some q) : strip p = .inl q := by
  unfold inl? at shape
  split at shape
  · rename_i same
    cases shape
    exact same
  · contradiction

theorem strip_of_inr (shape : inr? p = some q) : strip p = .inr q := by
  unfold inr? at shape
  split at shape
  · rename_i same
    cases shape
    exact same
  · contradiction

theorem strip_of_payload {l : String} {payload : Option (Located Pattern)}
    (shape : payload? l p = some payload) : strip p = .variant l payload := by
  unfold payload? at shape
  split at shape
  · rename_i same
    split at shape
    · rename_i label
      cases shape
      exact label ▸ same
    · contradiction
  · contradiction

theorem strip_of_tuple {width : Nat} {row : Row} (shape : Row.ofTuple? width p = some row) :
    ∃ ps, strip p = .tuple ps ∧ ps.length = width ∧ row = ps.map some := by
  unfold Row.ofTuple? at shape
  split at shape
  · rename_i ps same
    split at shape
    · rename_i length
      exact ⟨ps, same, length, (Option.some.inj shape).symm⟩
    · contradiction
  · contradiction

theorem strip_of_record {labels : List String} {row : Row}
    (shape : Row.ofRecord? labels p = some row) :
    ∃ fs, strip p = .record fs ∧ row = labels.map fun l => fs.lookup l := by
  unfold Row.ofRecord? at shape
  split at shape
  · rename_i fs same
    exact ⟨fs, same, (Option.some.inj shape).symm⟩
  · contradiction

theorem strip_of_nil (shape : isNil p = true) : strip p = .list [] := by
  unfold isNil at shape
  split at shape
  · assumption
  · contradiction

theorem strip_of_anyCons (shape : isAnyCons p = true) :
    ∃ h t, strip p = .cons h t ∧ isIrrefutable h = true ∧ isIrrefutable t = true := by
  unfold isAnyCons at shape
  split at shape
  · rename_i h t same
    rw [Bool.and_eq_true] at shape
    exact ⟨h, t, same, shape⟩
  · contradiction

end Shapes

section Lists

theorem suitsAll_getElem? {ps : List (Located Pattern)} {vs : List Value} (suits : SuitsAll ps vs)
    {i : Nat} {p : Located Pattern} {v : Value} (atP : ps[i]? = some p) (atV : vs[i]? = some v) :
    Suits p v := by
  induction ps generalizing vs i with
  | nil => contradiction
  | cons q ps ih =>
    cases vs with
    | nil => contradiction
    | cons w vs =>
      cases i with
      | zero =>
        cases atP
        cases atV
        exact suits.1
      | succ i => exact ih suits.2 atP atV

theorem catchesAll_of_getElem? {ps : List (Located Pattern)} {vs : List Value}
    (length : ps.length = vs.length)
    (each : ∀ (i : Nat) p v, ps[i]? = some p → vs[i]? = some v → catches p v = true) :
    catchesAll ps vs = true := by
  induction ps generalizing vs with
  | nil =>
    cases vs with
    | nil => rfl
    | cons => contradiction
  | cons p ps ih =>
    cases vs with
    | nil => contradiction
    | cons v vs =>
      rw [catchesAll, Bool.and_eq_true]
      exact ⟨each 0 p v rfl rfl, ih (Nat.succ.inj length) fun i => each (i + 1)⟩

theorem suitsFields_mem {fs : List (String × Located Pattern)} {vs : List (String × Value)}
    (suits : SuitsFields fs vs) {l : String} {p : Located Pattern} (member : (l, p) ∈ fs) :
    ∃ v, vs.lookup l = some v ∧ Suits p v := by
  induction fs with
  | nil => contradiction
  | cons f fs ih =>
    obtain ⟨m, q⟩ := f
    obtain ⟨here, rest⟩ := suits
    rcases List.mem_cons.mp member with same | member
    · cases same
      cases found : vs.lookup l with
      | none => simp [found] at here
      | some v =>
        rw [found] at here
        exact ⟨v, rfl, here⟩
    · exact ih rest member

theorem catchesFields_of_mem {fs : List (String × Located Pattern)} {vs : List (String × Value)}
    (each : ∀ l p, (l, p) ∈ fs → ∃ v, vs.lookup l = some v ∧ catches p v = true) :
    catchesFields fs vs = true := by
  induction fs with
  | nil => rfl
  | cons f fs ih =>
    obtain ⟨l, p⟩ := f
    obtain ⟨v, found, caught⟩ := each l p List.mem_cons_self
    rw [catchesFields, found, ih fun m q member => each m q (List.mem_cons_of_mem _ member),
      Bool.and_true]
    exact caught

theorem postOrderAll_of_mem {ps : List (Located Pattern)} {p : Located Pattern} (member : p ∈ ps) :
    postOrder p ⊆ postOrderAll ps := by
  induction ps with
  | nil => contradiction
  | cons q ps ih =>
    intro n inside
    rcases List.mem_cons.mp member with rfl | member
    · exact List.mem_append_left _ inside
    · exact List.mem_append_right _ (ih member inside)

theorem postOrderFields_of_mem {fs : List (String × Located Pattern)} {l : String}
    {p : Located Pattern} (member : (l, p) ∈ fs) : postOrder p ⊆ postOrderFields fs := by
  induction fs with
  | nil => contradiction
  | cons f fs ih =>
    intro n inside
    rcases List.mem_cons.mp member with rfl | member
    · exact List.mem_append_left _ inside
    · exact List.mem_append_right _ (ih member inside)

end Lists

namespace Fits

variable {t u : Ty} {p q : Located Pattern}

theorem depth (fits : Fits t p) : succDepth p ≤ maxLiteral := by
  obtain ⟨p, position⟩ := p
  exact fits.regular.depth _ (by simp [postOrder])

theorem catches (fits : Fits t p) (irrefutable : isIrrefutable p = true) {v : Value}
    (typed : HasType v t) : catches p v = true :=
  catches_of_irrefutable irrefutable (fits.suits v typed)

theorem labels (fits : Fits t p) {fs : List (String × Located Pattern)}
    (shape : strip p = .record fs) : (fs.map (·.1)).Nodup := by
  obtain ⟨position, within⟩ := postOrder_strip p
  refine fits.regular.labels fs position (within ?_)
  simp [postOrder, shape]

/-- A part of a pattern fits a type if the pattern suits the values made of those of that
type. -/
theorem part {r : Pattern} (fits : Fits t p) (shape : strip p = r)
    (below : postOrder q ⊆ Pattern.inside r)
    (suits : ∀ v, HasType v u → ∃ w, HasType w t ∧ (SuitsNode r w → Suits q v)) : Fits u q where
  suits := by
    intro v typed
    obtain ⟨w, whole, down⟩ := suits v typed
    exact down (shape ▸ suits_strip (fits.suits w whole))
  regular := by
    obtain ⟨position, within⟩ := postOrder_strip p
    refine fits.regular.mono fun n member => within (List.mem_append_left _ ?_)
    exact shape ▸ below member

theorem inl {l r : Ty} (fits : Fits (.sum l r) p) (shape : inl? p = some q) : Fits l q :=
  fits.part (strip_of_inl shape) (List.Subset.refl _) fun v typed => ⟨.inl v, .inl typed, id⟩

theorem inr {l r : Ty} (fits : Fits (.sum l r) p) (shape : inr? p = some q) : Fits r q :=
  fits.part (strip_of_inr shape) (List.Subset.refl _) fun v typed => ⟨.inr v, .inr typed, id⟩

theorem payload {fs : List (String × Option Ty)} (fits : Fits (.variant fs) p) {l : String}
    (shape : payload? l p = some (some q)) (found : fs.lookup l = some (some u)) : Fits u q :=
  fits.part (strip_of_payload shape) (List.Subset.refl _) fun v typed =>
    ⟨.variant l (some v), .carrying found typed, fun suits => suits rfl⟩

end Fits

end StellaLang.Coverage
