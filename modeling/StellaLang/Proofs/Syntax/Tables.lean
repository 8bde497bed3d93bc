import Mathlib.Data.Finmap
import Mathlib.Data.List.DropRight
import StellaLang.Memo
import StellaLang.Proofs.Syntax.EqualParts

/-! Tables keyed by trees. Whatever is done with a table, it answers as a finite map does whose keys
are trees without places, and its counters say how often it was asked and how often it knew the
answer. -/
namespace StellaLang

/-- Keys that have a bare form, which is what equal keys have in common. -/
class Bare (κ : Type) [BEq κ] where
  bare : κ → κ
  beq_iff {a b : κ} : (a == b) = true ↔ bare a = bare b

open Bare (bare)

namespace Syntax

instance : Bare (Located TypeExpr) := ⟨TypeExpr.relocate nowhere, TypeExpr.beq_iff⟩

instance : Bare (Located Pattern) := ⟨Pattern.relocate nowhere, Pattern.beq_iff⟩

instance : Bare (Located Expr) := ⟨Expr.relocate nowhere, Expr.beq_iff⟩

instance : Bare (Located Decl) := ⟨Decl.relocate nowhere, Decl.beq_iff⟩

instance : Bare (Located Program) := ⟨Program.relocate nowhere, Program.beq_iff⟩

theorem Node.beq_iff {n m : Node} : (n == m) = true ↔ n.relocate nowhere = m.relocate nowhere := by
  cases n with
  | type t => cases m <;> simp [BEq.beq, same, Node.relocate, ← TypeExpr.beq_iff]
  | pattern p => cases m <;> simp [BEq.beq, same, Node.relocate, ← Pattern.beq_iff]
  | expr e => cases m <;> simp [BEq.beq, same, Node.relocate, ← Expr.beq_iff]
  | decl d => cases m <;> simp [BEq.beq, same, Node.relocate, ← Decl.beq_iff]
  | program p => cases m <;> simp [BEq.beq, same, Node.relocate, ← Program.beq_iff]

instance : Bare Node := ⟨Node.relocate nowhere, Node.beq_iff⟩

end Syntax

namespace Memo

/-- What can be done with a table. -/
inductive Op (κ ν : Type) where
  | lookup (key : κ)
  | insert (key : κ) (value : ν)
  | getOrInsert (key : κ) (compute : Unit → ν)
  | contains (key : κ)
  | size
  | isEmpty
  | clear

inductive Answer (ν : Type) where
  | found (value : Option ν)
  /-- A value, and whether it was computed for the answer. -/
  | fetched (value : ν) (computed : Bool)
  | truth (holds : Bool)
  | number (n : Nat)
  | done

namespace Op

variable {κ ν : Type}

def onTable [BEq κ] (memo : Memo κ ν) : Op κ ν → Answer ν × Memo κ ν
  | lookup key =>
    let (found, memo) := memo.lookup key
    (.found found, memo)
  | insert key value =>
    let (before, memo) := memo.insert key value
    (.found before, memo)
  | getOrInsert key compute =>
    let ((value, computed), memo) := memo.getOrInsert key compute
    (.fetched value computed, memo)
  | contains key => (.truth (memo.contains key), memo)
  | size => (.number memo.size, memo)
  | isEmpty => (.truth memo.isEmpty, memo)
  | clear => (.done, memo.clear)

open Classical in
/-- The same with a finite map, in which only the bare forms of keys are looked up. -/
noncomputable def onMap [BEq κ] [Bare κ] (map : Finmap fun _ : κ => ν) :
    Op κ ν → Answer ν × Finmap fun _ : κ => ν
  | lookup key => (.found (map.lookup (bare key)), map)
  | insert key value => (.found (map.lookup (bare key)), map.insert (bare key) value)
  | getOrInsert key compute =>
    match map.lookup (bare key) with
    | some value => (.fetched value false, map)
    | none => (.fetched (compute ()) true, map.insert (bare key) (compute ()))
  | contains key => (.truth (decide (bare key ∈ map)), map)
  | size => (.number map.keys.card, map)
  | isEmpty => (.truth (decide (map.keys = ∅)), map)
  | clear => (.done, ∅)

/-- Whether the table is asked for the value of a key. -/
def asks : Op κ ν → Bool
  | lookup _ => true
  | getOrInsert _ _ => true
  | _ => false

def isClear : Op κ ν → Bool
  | clear => true
  | _ => false

end Op

/-- A question to which there was an entry. -/
def isHit {κ ν : Type} : Op κ ν × Answer ν → Bool
  | (.lookup _, .found value) => value.isSome
  | (.getOrInsert _ _, .fetched _ computed) => !computed
  | _ => false

section Runs

variable {κ ν σ : Type}

/-- Does one thing after the other, and lists what was answered. -/
def play (step : σ → Op κ ν → Answer ν × σ) (start : σ) (ops : List (Op κ ν)) :
    List (Op κ ν × Answer ν) × σ :=
  ops.foldl (fun (history, state) op => (history ++ [(op, (step state op).1)], (step state op).2)) ([], start)

theorem play_concat (step : σ → Op κ ν → Answer ν × σ) (start : σ) (ops : List (Op κ ν)) (op : Op κ ν) :
    play step start (ops ++ [op]) =
      ((play step start ops).1 ++ [(op, (step (play step start ops).2 op).1)],
        (step (play step start ops).2 op).2) := by
  simp only [play, List.foldl_append, List.foldl_cons, List.foldl_nil]

/-- What was done since the table was last cleared. -/
def sinceClear (history : List (Op κ ν × Answer ν)) : List (Op κ ν × Answer ν) :=
  history.rtakeWhile fun step => !step.1.isClear

end Runs

section Entries

variable {κ ν : Type} [BEq κ] [Bare κ] (memo : Memo κ ν)

theorem beq_congr {a b : κ} (same : (a == b) = true) (key : κ) : (key == a) = (key == b) := by
  rw [Bool.eq_iff_iff, Bare.beq_iff, Bare.beq_iff, Bare.beq_iff.mp same]

theorem get?_congr {a b : κ} (same : (a == b) = true) : memo.get? a = memo.get? b := by
  simp only [get?, beq_congr same]

/-- The value of an entry is replaced where the key is that of the entry, and only there. -/
theorem get?_put_known {key : κ} (known : memo.contains key = true) (value : ν) (k : κ) :
    (memo.put key value).get? k = if k == key then some value else memo.get? k := by
  have keys (entry : κ × ν) : (if entry.1 == key then (entry.1, value) else entry).1 = entry.1 := by
    split <;> rfl
  simp only [get?, put, known, ↓reduceIte, List.find?_map, Function.comp_def, keys]
  split
  · rename_i same
    rw [contains, ← get?_congr memo same, get?, Option.isSome_map, Option.isSome_iff_exists] at known
    obtain ⟨entry, found⟩ := known
    have matching : (entry.1 == k) = true := by simpa using List.find?_some found
    rw [beq_congr same] at matching
    simp [found, matching]
  · rename_i other
    cases found : memo.entries.find? (fun entry => entry.1 == k) with
    | none => rfl
    | some entry =>
      have matching : (entry.1 == k) = true := by simpa using List.find?_some found
      have different : ¬(entry.1 == key) = true := by
        rw [Bare.beq_iff] at matching other ⊢
        exact fun same => other (matching.symm.trans same)
      simp [different]

/-- An entry that is added stands behind those of other keys. -/
theorem get?_put_unknown {key : κ} (unknown : memo.contains key = false) (value : ν) (k : κ) :
    (memo.put key value).get? k = if k == key then some value else memo.get? k := by
  have turned : (key == k) = (k == key) := by
    rw [Bool.eq_iff_iff, Bare.beq_iff, Bare.beq_iff, eq_comm]
  have appended : (memo.put key value).get? k =
      (memo.get? k).or (if k == key then some value else none) := by
    simp only [get?, put, unknown, Bool.false_eq_true, ↓reduceIte, List.find?_append, Option.map_or,
      List.find?_singleton, turned, apply_ite (Option.map _), Option.map_some, Option.map_none]
  rw [appended]
  split
  · rename_i same
    rw [contains, ← get?_congr memo same, Option.isSome_eq_false_iff, Option.isNone_iff_eq_none] at unknown
    rw [unknown, Option.none_or]
  · rw [Option.or_none]

theorem get?_put (key : κ) (value : ν) (k : κ) :
    (memo.put key value).get? k = if k == key then some value else memo.get? k := by
  cases known : memo.contains key with
  | true => exact get?_put_known memo known value k
  | false => exact get?_put_unknown memo known value k

omit [Bare κ] in
/-- Asking for a key is counted, and is a hit if there is an entry. -/
theorem counters_count (key : κ) :
    (memo.count key).hits = memo.hits + (memo.contains key).toNat ∧
      (memo.count key).hits + (memo.count key).misses = memo.hits + memo.misses + 1 := by
  rw [count]
  split
  · rename_i known
    exact ⟨by simp [known], Nat.add_right_comm ..⟩
  · rename_i unknown
    exact ⟨by simp [unknown], (Nat.add_assoc ..).symm⟩

omit [Bare κ] in
@[simp] theorem put_hits (key : κ) (value : ν) : (memo.put key value).hits = memo.hits := by
  rw [put]
  split <;> rfl

omit [Bare κ] in
@[simp] theorem put_misses (key : κ) (value : ν) : (memo.put key value).misses = memo.misses := by
  rw [put]
  split <;> rfl

end Entries

theorem keys_insert {κ ν : Type} [DecidableEq κ] (key : κ) (value : ν) (map : Finmap fun _ : κ => ν) :
    (map.insert key value).keys = Insert.insert key map.keys := by
  ext k
  rw [Finmap.mem_keys, Finmap.mem_insert, Finset.mem_insert, Finmap.mem_keys]

section Refinement

open Classical

variable {κ ν : Type} [BEq κ] [Bare κ]

/-- A table knows what a finite map knows, and has as many entries. -/
structure Represents (memo : Memo κ ν) (map : Finmap fun _ : κ => ν) : Prop where
  get? : ∀ key, memo.get? key = map.lookup (bare key)
  size : memo.size = map.keys.card

variable {memo : Memo κ ν} {map : Finmap fun _ : κ => ν}

theorem Represents.count (represents : Represents memo map) (key : κ) :
    Represents (memo.count key) map := by
  unfold Memo.count
  split
  · exact ⟨represents.get?, represents.size⟩
  · exact ⟨represents.get?, represents.size⟩

theorem Represents.contains (represents : Represents memo map) (key : κ) :
    memo.contains key = true ↔ bare key ∈ map := by
  rw [Memo.contains, represents.get?, Finmap.lookup_isSome]

/-- An entry is added exactly if there is none for the bare form of the key. -/
theorem Represents.put (represents : Represents memo map) (key : κ) (value : ν) :
    Represents (memo.put key value) (map.insert (bare key) value) where
  get? k := by
    rw [get?_put]
    by_cases same : bare k = bare key
    · rw [if_pos (Bare.beq_iff.mpr same), same, Finmap.lookup_insert]
    · rw [if_neg (Bare.beq_iff.not.mpr same), Finmap.lookup_insert_of_ne _ same, represents.get?]
  size := by
    rw [keys_insert]
    unfold Memo.put
    split
    · rename_i known
      have present : bare key ∈ map.keys := Finmap.mem_keys.mpr ((represents.contains key).mp known)
      rw [Finset.insert_eq_of_mem present, ← represents.size]
      simp [Memo.size]
    · rename_i unknown
      have absent : bare key ∉ map.keys := fun present =>
        unknown ((represents.contains key).mpr (Finmap.mem_keys.mp present))
      rw [Finset.card_insert_of_notMem absent, ← represents.size]
      simp [Memo.size]

/-- One step of a table is one of the map: the answers are the same, and the table still knows what
the map knows. -/
theorem Represents.step (represents : Represents memo map) (op : Op κ ν) :
    (op.onTable memo).1 = (op.onMap map).1 ∧ Represents (op.onTable memo).2 (op.onMap map).2 := by
  cases op with
  | lookup key => exact ⟨congrArg Answer.found (represents.get? key), represents.count key⟩
  | insert key value => exact ⟨congrArg Answer.found (represents.get? key), represents.put key value⟩
  | getOrInsert key compute =>
    have get := represents.get? key
    simp only [Op.onTable, Op.onMap, getOrInsert]
    cases found : map.lookup (bare key) with
    | some value =>
      rw [found] at get
      rw [get]
      exact ⟨rfl, represents.count key⟩
    | none =>
      rw [found] at get
      rw [get]
      exact ⟨rfl, (represents.count key).put key (compute ())⟩
  | contains key =>
    refine ⟨congrArg Answer.truth ?_, represents⟩
    rw [Bool.eq_iff_iff, represents.contains key, decide_eq_true_iff]
  | size => exact ⟨congrArg Answer.number represents.size, represents⟩
  | isEmpty =>
    refine ⟨congrArg Answer.truth ?_, represents⟩
    rw [Bool.eq_iff_iff, decide_eq_true_iff, ← Finset.card_eq_zero, ← represents.size]
    simp [Memo.isEmpty, Memo.size]
  | clear => exact ⟨rfl, fun key => by simp [Op.onTable, Op.onMap, Memo.clear, Memo.get?], by
      simp [Op.onTable, Op.onMap, Memo.clear, Memo.size]⟩

omit [Bare κ] in
/-- What one step makes of the counters, unless it clears the table. -/
theorem counters_step (memo : Memo κ ν) (op : Op κ ν) (kept : op.isClear = false) :
    (op.onTable memo).2.hits = memo.hits + (isHit (op, (op.onTable memo).1)).toNat ∧
      (op.onTable memo).2.hits + (op.onTable memo).2.misses =
        memo.hits + memo.misses + op.asks.toNat := by
  cases op with
  | lookup key => exact counters_count memo key
  | insert key value => simp [Op.onTable, Memo.insert, isHit, Op.asks]
  | getOrInsert key compute =>
    obtain ⟨hits, questions⟩ := counters_count memo key
    simp only [Op.onTable, getOrInsert]
    cases found : memo.get? key with
    | some value =>
      have known : memo.contains key = true := by rw [contains, found]; rfl
      rw [known] at hits
      exact ⟨hits, questions⟩
    | none =>
      have unknown : memo.contains key = false := by rw [contains, found]; rfl
      rw [unknown] at hits
      exact ⟨(put_hits ..).trans hits, (congrArg₂ (· + ·) (put_hits ..) (put_misses ..)).trans questions⟩
  | contains | size | isEmpty => exact ⟨rfl, rfl⟩
  | clear => contradiction

/-- The counters of a table fit what was done since it was last cleared. -/
structure Counted (memo : Memo κ ν) (history : List (Op κ ν × Answer ν)) : Prop where
  asked : memo.hits + memo.misses = (sinceClear history).countP (·.1.asks)
  known : memo.hits = (sinceClear history).countP isHit

omit [Bare κ] in
theorem Counted.step {history : List (Op κ ν × Answer ν)} (counted : Counted memo history) (op : Op κ ν) :
    Counted (op.onTable memo).2 (history ++ [(op, (op.onTable memo).1)]) := by
  cases cleared : op.isClear with
  | true =>
    cases op with
    | clear => exact ⟨by simp [sinceClear, Op.isClear, Op.onTable, Memo.clear],
        by simp [sinceClear, Op.isClear, Op.onTable, Memo.clear]⟩
    | _ => contradiction
  | false =>
    obtain ⟨hits, questions⟩ := counters_step memo op cleared
    have longer : sinceClear (history ++ [(op, (op.onTable memo).1)]) =
        sinceClear history ++ [(op, (op.onTable memo).1)] := by
      simp [sinceClear, cleared]
    constructor
    · rw [questions, longer, List.countP_append, counted.asked, List.countP_singleton]
      cases op.asks <;> rfl
    · rw [hits, longer, List.countP_append, counted.known, List.countP_singleton]
      cases isHit (op, (op.onTable memo).1) <;> rfl

/-- A whole run of a table is one of the map, by induction on what is done. -/
theorem run_represents (ops : List (Op κ ν)) :
    (play Op.onTable {} ops).1 = (play Op.onMap ∅ ops).1 ∧
      Represents (play Op.onTable {} ops).2 (play Op.onMap ∅ ops).2 ∧
      Counted (play Op.onTable {} ops).2 (play Op.onTable {} ops).1 := by
  induction ops using List.reverseRecOn with
  | nil => exact ⟨rfl, ⟨fun key => by simp [play, get?], by simp [play, size]⟩, by simp [play, sinceClear],
      by simp [play, sinceClear]⟩
  | append_singleton ops op ih =>
    obtain ⟨answers, represents, counted⟩ := ih
    obtain ⟨answer, represents'⟩ := represents.step op
    rw [play_concat, play_concat]
    exact ⟨by rw [answers, answer], represents', counted.step op⟩

/-- Whatever is done with a new table, it answers as a finite map from bare keys does that is empty at
first. Its counters count the questions since it was last cleared and those to which there was an
entry, and it has an entry for each key of the map. -/
theorem tables_are_maps (ops : List (Op κ ν)) :
    let table := play Op.onTable {} ops
    let map := play Op.onMap ∅ ops
    table.1 = map.1 ∧
      table.2.stats.hits + table.2.stats.misses = (sinceClear map.1).countP (·.1.asks) ∧
      table.2.stats.hits = (sinceClear map.1).countP isHit ∧
      table.2.stats.entries = map.2.keys.card := by
  intro table map
  obtain ⟨answers, represents, counted⟩ : table.1 = map.1 ∧ Represents table.2 map.2 ∧
      Counted table.2 table.1 := run_represents ops
  rw [← answers]
  exact ⟨rfl, counted.asked, counted.known, represents.size⟩

/-- A tree is found again at another place, and another tree is not. -/
theorem moved_tree_found :
    let five : Located Syntax.Expr := ⟨.literal (.nat 5), none⟩
    let first : Located Syntax.Expr := ⟨.unary .throw five, some ⟨1, 1, 0⟩⟩
    let moved : Located Syntax.Expr := ⟨.unary .throw five, some ⟨8, 4, 120⟩⟩
    let ops : List (Op (Located Syntax.Expr) Nat) :=
      [.lookup first, .insert first 1, .lookup moved, .getOrInsert five fun _ => 2, .size]
    (play Op.onTable {} ops).2.stats = ⟨1, 2, 2⟩ ∧ (play Op.onMap ∅ ops).2.keys.card = 2 := by
  intro five first moved ops
  have stats : (play Op.onTable {} ops).2.stats = ⟨1, 2, 2⟩ := by decide
  obtain ⟨-, -, -, entries⟩ := tables_are_maps ops
  exact ⟨stats, entries.symm.trans (congrArg Stats.entries stats)⟩

end Refinement

end Memo

end StellaLang
