import Mathlib.Data.List.Induction
import StellaLang.Proofs.Syntax.EqualParts
import StellaLang.Syntax.Duplicates

/-! The table from which repeated expressions are read. After any part of the walk it has one entry
for each expression that is no leaf, made at the first occurrence, with the number of all occurrences
so far. -/
namespace StellaLang.Syntax

variable {e e' : Located Expr} {nodes : List Node}

section Occurrences

/-- The expression that a node is, unless it is a leaf. -/
def Node.compound? : Node → Option (Located Expr)
  | .expr e => if e.node.isLeaf then none else some e
  | _ => none

theorem Node.compound?_eq_some {n : Node} :
    n.compound? = some e ↔ n = .expr e ∧ e.node.isLeaf = false := by
  cases n with
  | expr e' =>
    rw [compound?]
    by_cases leaf : e'.node.isLeaf = true
    · rw [if_pos leaf]
      constructor
      · exact nofun
      · rintro ⟨same, compound⟩
        rw [← Node.expr.inj same, leaf] at compound
        contradiction
    · rw [if_neg leaf]
      constructor
      · rintro ⟨rfl⟩
        exact ⟨rfl, Bool.eq_false_iff.mpr leaf⟩
      · rintro ⟨same, -⟩
        rw [Node.expr.inj same]
  | _ => exact ⟨nofun, nofun⟩

theorem Program.compoundExprs_eq (p : Located Program) :
    compoundExprs p = (postOrder p).filterMap Node.compound? :=
  rfl

theorem Expr.isLeaf_beq (equal : (e == e') = true) : e.node.isLeaf = e'.node.isLeaf := by
  have isLeaf_relocate (e : Located Expr) :
      (relocate nowhere e).node.isLeaf = e.node.isLeaf := by
    obtain ⟨e, _⟩ := e
    cases e with
    | variant _ payload => cases payload <;> rfl
    | _ => rfl
  rw [← isLeaf_relocate e, Expr.beq_iff.mp equal, isLeaf_relocate]

/-- The first occurrence of an expression is itself an expression, and equal to it. -/
theorem exists_first (occurs : ∃ n ∈ nodes, n.copyOf e = true) :
    ∃ e', (e' == e) = true ∧ nodes.find? (Node.copyOf e') = some (.expr e') := by
  obtain ⟨first, found⟩ := Option.isSome_iff_exists.mp (List.find?_isSome.mpr occurs)
  obtain ⟨e', rfl, equal⟩ := Node.copyOf_eq_true.mp (List.find?_some found)
  exact ⟨e', equal, Node.copyOf_beq equal ▸ found⟩

end Occurrences

/-- What the entries are after the walk over some nodes. -/
structure Tallied (nodes : List Node) (entries : List (Located Expr × Nat)) : Prop where
  /-- There is an entry for each first occurrence, with the number of occurrences. -/
  entry : ∀ e k, (e, k) ∈ entries ↔
    e.node.isLeaf = false ∧ nodes.find? (Node.copyOf e) = some (.expr e) ∧
      k = nodes.countP (Node.copyOf e)
  /-- The entries are in the order of the first occurrences. -/
  ordered : entries.Pairwise fun a b =>
    nodes.findIdx (Node.copyOf a.1) < nodes.findIdx (Node.copyOf b.1)

namespace Tallied

variable {memo : Memo (Located Expr) Nat}

theorem nil : Tallied [] [] where
  entry _ _ := ⟨nofun, nofun⟩
  ordered := .nil

theorem occurs {entries : List (Located Expr × Nat)} (tallied : Tallied nodes entries) {k : Nat}
    (entry : (e, k) ∈ entries) : ∃ n ∈ nodes, n.copyOf e = true := by
  obtain ⟨-, found, -⟩ := (tallied.entry e k).mp entry
  exact ⟨_, List.mem_of_find?_eq_some found, List.find?_some found⟩

/-- The entry of an expression is the one with an equal key. -/
theorem exists_entry {entries : List (Located Expr × Nat)} (tallied : Tallied nodes entries)
    (compound : e.node.isLeaf = false) (occurs : ∃ n ∈ nodes, n.copyOf e = true) :
    ∃ e', (e' == e) = true ∧ (e', nodes.countP (Node.copyOf e)) ∈ entries := by
  obtain ⟨e', equal, first⟩ := exists_first occurs
  refine ⟨e', equal, (tallied.entry e' _).mpr ⟨(Expr.isLeaf_beq equal).trans compound, first, ?_⟩⟩
  rw [Node.copyOf_beq equal]

theorem contains_iff (tallied : Tallied nodes memo.entries) (compound : e.node.isLeaf = false) :
    memo.contains e = true ↔ ∃ n ∈ nodes, n.copyOf e = true := by
  rw [Memo.contains, Memo.get?, Option.isSome_map, List.find?_isSome]
  constructor
  · rintro ⟨⟨e', k⟩, entry, equal⟩
    have again := tallied.occurs entry
    rwa [Node.copyOf_beq equal] at again
  · intro occurs
    obtain ⟨e', equal, entry⟩ := tallied.exists_entry compound occurs
    exact ⟨_, entry, equal⟩

theorem getD_get? (tallied : Tallied nodes memo.entries) (compound : e.node.isLeaf = false) :
    (memo.get? e).getD 0 = nodes.countP (Node.copyOf e) := by
  by_cases known : memo.contains e = true
  · obtain ⟨k, value⟩ := Option.isSome_iff_exists.mp known
    obtain ⟨⟨e', k'⟩, found, rfl⟩ := Option.map_eq_some_iff.mp value
    obtain ⟨-, -, count⟩ := (tallied.entry e' k').mp (List.mem_of_find?_eq_some found)
    have equal := List.find?_some found
    rw [value, Option.getD_some, count, Node.copyOf_beq equal]
  · have unknown : memo.get? e = none := Option.not_isSome_iff_eq_none.mp known
    rw [unknown, Option.getD_none, eq_comm, List.countP_eq_zero]
    intro n member equal
    exact known ((tallied.contains_iff compound).mpr ⟨n, member, equal⟩)

section Step

theorem find?_append_of_occurs (occurs : ∃ n ∈ nodes, n.copyOf e = true) (n : Node) :
    (nodes ++ [n]).find? (Node.copyOf e) = nodes.find? (Node.copyOf e) := by
  obtain ⟨first, found⟩ := Option.isSome_iff_exists.mp (List.find?_isSome.mpr occurs)
  rw [List.find?_append, found, Option.some_or]

theorem find?_append_of_ne {n : Node} (other : n.copyOf e = false) :
    (nodes ++ [n]).find? (Node.copyOf e) = nodes.find? (Node.copyOf e) := by
  rw [List.find?_append, List.find?_singleton, if_neg (by simp [other]), Option.or_none]

theorem countP_append_singleton (n : Node) :
    (nodes ++ [n]).countP (Node.copyOf e) =
      nodes.countP (Node.copyOf e) + if n.copyOf e then 1 else 0 := by
  rw [List.countP_append, List.countP_singleton]

theorem findIdx_append_of_occurs (occurs : ∃ n ∈ nodes, n.copyOf e = true) (n : Node) :
    (nodes ++ [n]).findIdx (Node.copyOf e) = nodes.findIdx (Node.copyOf e) := by
  rw [List.findIdx_append, if_pos (List.findIdx_lt_length.mpr occurs)]

variable {entries : List (Located Expr × Nat)}

theorem ordered_append (tallied : Tallied nodes entries) (n : Node) :
    entries.Pairwise fun a b =>
      (nodes ++ [n]).findIdx (Node.copyOf a.1) < (nodes ++ [n]).findIdx (Node.copyOf b.1) := by
  refine tallied.ordered.imp_of_mem fun {a b} first second less => ?_
  rwa [findIdx_append_of_occurs (tallied.occurs first), findIdx_append_of_occurs (tallied.occurs second)]

/-- A leaf, or a node that is no expression, changes nothing. -/
theorem skip (tallied : Tallied nodes entries) {n : Node} (leaf : n.compound? = none) :
    Tallied (nodes ++ [n]) entries := by
  have other {e : Located Expr} (compound : e.node.isLeaf = false) : n.copyOf e = false := by
    rw [Bool.eq_false_iff]
    intro copy
    obtain ⟨e', rfl, equal⟩ := Node.copyOf_eq_true.mp copy
    have found := Node.compound?_eq_some.mpr ⟨rfl, (Expr.isLeaf_beq equal).trans compound⟩
    rw [leaf] at found
    contradiction
  constructor
  · intro e k
    rw [tallied.entry]
    refine and_congr_right fun compound => ?_
    rw [find?_append_of_ne (other compound), countP_append_singleton, other compound]
    rfl
  · exact tallied.ordered_append n

/-- A further occurrence is counted in the entry of the first one. -/
theorem again (tallied : Tallied nodes entries)
    (occurs : ∃ n ∈ nodes, n.copyOf e = true) :
    Tallied (nodes ++ [.expr e]) (entries.map fun entry =>
      if entry.1 == e then (entry.1, nodes.countP (Node.copyOf e) + 1) else entry) := by
  have first (e' : Located Expr) :
      (nodes ++ [Node.expr e]).find? (Node.copyOf e') = nodes.find? (Node.copyOf e') := by
    by_cases equal : (Node.expr e).copyOf e' = true
    · have equal' : (e == e') = true := equal
      exact find?_append_of_occurs (Node.copyOf_beq equal' ▸ occurs) _
    · exact find?_append_of_ne (Bool.eq_false_iff.mpr equal)
  constructor
  · intro e' k
    rw [first, countP_append_singleton, List.mem_map]
    constructor
    · rintro ⟨⟨e₀, k₀⟩, entry, same⟩
      obtain ⟨compound', found, rfl⟩ := (tallied.entry e₀ k₀).mp entry
      by_cases equal : (e₀ == e) = true
      · rw [if_pos equal] at same
        obtain ⟨rfl, rfl⟩ := Prod.mk.inj same
        refine ⟨compound', found, ?_⟩
        rw [Node.copyOf_beq equal, if_pos (Node.copyOf_self e)]
      · rw [if_neg equal] at same
        obtain ⟨rfl, rfl⟩ := Prod.mk.inj same
        refine ⟨compound', found, ?_⟩
        have other : ¬(e == e₀) = true := fun back => equal (BEq.symm back)
        rw [Node.copyOf_expr, if_neg other, Nat.add_zero]
    · rintro ⟨compound', found, rfl⟩
      refine ⟨(e', nodes.countP (Node.copyOf e')), (tallied.entry _ _).mpr ⟨compound', found, rfl⟩, ?_⟩
      by_cases equal : (e' == e) = true
      · rw [if_pos equal, Node.copyOf_beq equal, if_pos (Node.copyOf_self e)]
      · have other : ¬(e == e') = true := fun back => equal (BEq.symm back)
        rw [if_neg equal, Node.copyOf_expr, if_neg other, Nat.add_zero]
  · rw [List.pairwise_map]
    refine (tallied.ordered_append (.expr e)).imp fun {a b} less => ?_
    rwa [apply_ite Prod.fst, apply_ite Prod.fst, ite_self, ite_self]

/-- A first occurrence is entered behind all others. -/
theorem first (tallied : Tallied nodes entries) (compound : e.node.isLeaf = false)
    (fresh : ¬∃ n ∈ nodes, n.copyOf e = true) :
    Tallied (nodes ++ [.expr e]) (entries ++ [(e, 1)]) := by
  have absent : nodes.countP (Node.copyOf e) = 0 :=
    List.countP_eq_zero.mpr fun n member equal => fresh ⟨n, member, equal⟩
  have unseen : nodes.find? (Node.copyOf e) = none :=
    List.find?_eq_none.mpr fun n member equal => fresh ⟨n, member, equal⟩
  have itself := Node.copyOf_self e
  constructor
  · intro e' k
    rw [List.mem_append, tallied.entry, List.mem_singleton, countP_append_singleton]
    by_cases equal : (Node.expr e).copyOf e' = true
    · have copy := Node.copyOf_beq (e := e) equal
      rw [← copy, unseen, absent, if_pos itself, List.find?_append, unseen, Option.none_or,
        List.find?_singleton, if_pos itself]
      constructor
      · rintro (⟨-, known, -⟩ | new)
        · contradiction
        · obtain ⟨rfl, rfl⟩ := Prod.mk.inj new
          exact ⟨compound, rfl, rfl⟩
      · rintro ⟨-, same, rfl⟩
        rw [Node.expr.inj (Option.some.inj same)]
        exact .inr rfl
    · rw [find?_append_of_ne (Bool.eq_false_iff.mpr equal), if_neg equal, Nat.add_zero]
      constructor
      · rintro (known | new)
        · exact known
        · rw [(Prod.mk.inj new).1] at equal
          exact absurd itself equal
      · exact .inl
  · refine List.pairwise_append.mpr ⟨tallied.ordered_append _, List.pairwise_singleton _ _, ?_⟩
    rintro ⟨e', k⟩ entry last new
    rw [List.mem_singleton.mp new, findIdx_append_of_occurs (tallied.occurs entry), List.findIdx_append,
      if_neg (mt List.findIdx_lt_length.mp fresh)]
    exact Nat.lt_add_left _ (List.findIdx_lt_length.mpr (tallied.occurs entry))

end Step

/-- What the walk over a further node makes of the table. -/
theorem put (tallied : Tallied nodes memo.entries) (compound : e.node.isLeaf = false) :
    Tallied (nodes ++ [.expr e]) (memo.put e ((memo.get? e).getD 0 + 1)).entries := by
  rw [tallied.getD_get? compound, Memo.put]
  by_cases known : memo.contains e = true
  · rw [if_pos known]
    exact tallied.again ((tallied.contains_iff compound).mp known)
  · have fresh := mt (tallied.contains_iff compound).mpr known
    have absent : nodes.countP (Node.copyOf e) = 0 :=
      List.countP_eq_zero.mpr fun n member equal => fresh ⟨n, member, equal⟩
    rw [if_neg known, absent]
    exact tallied.first compound fresh

end Tallied

namespace Duplicate

theorem tally_concat (exprs : List (Located Expr)) (e : Located Expr) :
    tally (exprs ++ [e]) = (tally exprs).put e (((tally exprs).get? e).getD 0 + 1) := by
  rw [tally, List.foldl_append]
  rfl

/-- The table after the walk over any nodes. -/
theorem tally_tallied (nodes : List Node) :
    Tallied nodes (tally (nodes.filterMap Node.compound?)).entries := by
  induction nodes using List.reverseRecOn with
  | nil => exact .nil
  | append_singleton nodes n ih =>
    rw [List.filterMap_append]
    cases kind : n.compound? with
    | none =>
      rw [List.filterMap_cons_none kind, List.filterMap_nil, List.append_nil]
      exact ih.skip kind
    | some e =>
      obtain ⟨rfl, compound⟩ := Node.compound?_eq_some.mp kind
      rw [List.filterMap_cons_some kind, List.filterMap_nil, tally_concat]
      exact ih.put compound

variable {p : Located Program} {d d' : Duplicate}

theorem mem_find : d ∈ find p ↔
    d.expr.node.isLeaf = false ∧
      (Program.postOrder p).find? (Node.copyOf d.expr) = some (.expr d.expr) ∧
      d.count = (Program.postOrder p).countP (Node.copyOf d.expr) ∧ 1 < d.count := by
  have tallied := tally_tallied (Program.postOrder p)
  rw [← Program.compoundExprs_eq] at tallied
  obtain ⟨e, k⟩ := d
  have entry : (⟨e, k⟩ : Duplicate) ∈ find p ↔
      (e, k) ∈ (tally (Program.compoundExprs p)).entries ∧ 1 < k := by
    simp [find]
  rw [entry, tallied.entry, and_assoc, and_assoc]

theorem pairwise_find (p : Located Program) : (find p).Pairwise fun d d' =>
    (Program.postOrder p).findIdx (Node.copyOf d.expr) <
      (Program.postOrder p).findIdx (Node.copyOf d'.expr) := by
  have tallied := tally_tallied (Program.postOrder p)
  rw [← Program.compoundExprs_eq] at tallied
  exact List.pairwise_map.mpr (tallied.ordered.filter _)

theorem eq_of_beq (listed : d ∈ find p) (listed' : d' ∈ find p) (equal : (d.expr == d'.expr) = true) :
    d = d' := by
  obtain ⟨-, first, count, -⟩ := mem_find.mp listed
  obtain ⟨-, first', count', -⟩ := mem_find.mp listed'
  rw [Node.copyOf_beq equal, first'] at first
  rw [Node.copyOf_beq equal, ← count'] at count
  obtain ⟨e, k⟩ := d
  obtain ⟨e', k'⟩ := d'
  obtain rfl := Node.expr.inj (Option.some.inj first)
  exact congrArg (Duplicate.mk e') count

/-- Whatever occurs more than once is listed. -/
theorem exists_listed (compound : e.node.isLeaf = false)
    (twice : 1 < (Program.postOrder p).countP (Node.copyOf e)) :
    ∃ d ∈ find p, (d.expr == e) = true ∧ d.count = (Program.postOrder p).countP (Node.copyOf e) := by
  obtain ⟨e', equal, first⟩ := exists_first (List.countP_pos_iff.mp (Nat.zero_lt_of_lt twice))
  have copies := Node.copyOf_beq equal
  refine ⟨⟨e', (Program.postOrder p).countP (Node.copyOf e)⟩, ?_, equal, rfl⟩
  exact mem_find.mpr ⟨(Expr.isLeaf_beq equal).trans compound, first, by rw [copies], twice⟩

/-- Of two entries, that of the earlier first occurrence is the earlier one. -/
theorem split_of_findIdx_lt (listed : d ∈ find p) (listed' : d' ∈ find p)
    (less : (Program.postOrder p).findIdx (Node.copyOf d'.expr) <
      (Program.postOrder p).findIdx (Node.copyOf d.expr)) :
    ∃ earlier later, find p = earlier ++ d' :: later ∧ d ∈ later := by
  obtain ⟨earlier, later, split⟩ := List.append_of_mem listed'
  refine ⟨earlier, later, split, ?_⟩
  have ordered := pairwise_find p
  rw [split] at ordered listed
  rcases List.mem_append.mp listed with before | member
  · have more := (List.pairwise_append.mp ordered).2.2 d before d' List.mem_cons_self
    omega
  · rcases List.mem_cons.mp member with rfl | after
    · omega
    · exact after

/-- What occurs in the first occurrence of an expression occurs before it. -/
theorem findIdx_lt_of_below {s : Located Expr} (part : .expr s ∈ (Node.expr e).below)
    (first : (Program.postOrder p).find? (Node.copyOf e) = some (.expr e)) :
    (Program.postOrder p).findIdx (Node.copyOf s) < (Program.postOrder p).findIdx (Node.copyOf e) := by
  obtain ⟨itself, earlier, later, split, others⟩ := List.find?_eq_some_iff_append.mp first
  have walk : (Node.program p).postOrder = earlier ++ .expr e :: later := split
  have before : .expr s ∈ earlier := (Node.below_suffix walk).subset part
  have occurs : ∃ n ∈ earlier, n.copyOf s = true := ⟨_, before, BEq.refl s⟩
  have not_yet : ¬∃ n ∈ earlier, n.copyOf e = true := by
    rintro ⟨n, member, equal⟩
    have other := others n member
    rw [equal] at other
    contradiction
  have inside := List.findIdx_lt_length.mpr occurs
  rw [split, List.findIdx_append, List.findIdx_append, if_pos inside,
    if_neg (mt List.findIdx_lt_length.mp not_yet)]
  omega

/-- The repeated expressions are listed exactly, and with all their parts. An entry is a first
occurrence in the walk, with the number of all occurrences; whatever occurs more than once has one
entry; entries are in the order of the walk. What occurs inside of an entry has an earlier entry,
which counts all copies that the copies of the outer expression have of it. -/
theorem find_exact_and_closed (p : Located Program) :
    (∀ d ∈ find p, d.expr.node.isLeaf = false ∧
      (Program.postOrder p).find? (Node.copyOf d.expr) = some (.expr d.expr) ∧
      d.count = (Program.postOrder p).countP (Node.copyOf d.expr) ∧ 1 < d.count) ∧
    (∀ e : Located Expr, e.node.isLeaf = false → 1 < (Program.postOrder p).countP (Node.copyOf e) →
      ∃! d, d ∈ find p ∧ (d.expr == e) = true) ∧
    ((find p).Pairwise fun d d' => (Program.postOrder p).findIdx (Node.copyOf d.expr) <
      (Program.postOrder p).findIdx (Node.copyOf d'.expr)) ∧
    ∀ d ∈ find p, ∀ s : Located Expr, s.node.isLeaf = false → .expr s ∈ (Node.expr d.expr).below →
      ∃ earlier d' later, find p = earlier ++ d' :: later ∧ d ∈ later ∧ (d'.expr == s) = true ∧
        d.count * (Node.expr d.expr).below.countP (Node.copyOf s) ≤ d'.count := by
  refine ⟨fun d listed => mem_find.mp listed, ?_, pairwise_find p, ?_⟩
  · intro e compound twice
    obtain ⟨d, listed, equal, -⟩ := exists_listed compound twice
    refine ⟨d, ⟨listed, equal⟩, ?_⟩
    rintro d' ⟨listed', equal'⟩
    exact eq_of_beq listed' listed (BEq.trans equal' (BEq.symm equal))
  · intro d listed s compound part
    obtain ⟨-, first, count, twice⟩ := mem_find.mp listed
    have copies := Node.countP_mul_le (.program p) d.expr s
    have inner : 0 < (Node.expr d.expr).below.countP (Node.copyOf s) :=
      List.countP_pos_iff.mpr ⟨_, part, BEq.refl s⟩
    have many : d.count * (Node.expr d.expr).below.countP (Node.copyOf s) ≤
        (Program.postOrder p).countP (Node.copyOf s) := count ▸ copies
    have again : 1 < (Program.postOrder p).countP (Node.copyOf s) :=
      (Nat.lt_of_lt_of_le twice (Nat.le_mul_of_pos_right _ inner)).trans_le many
    obtain ⟨d', listed', equal, count'⟩ := exists_listed compound again
    have less := findIdx_lt_of_below part first
    rw [← Node.copyOf_beq equal] at less
    obtain ⟨earlier, later, split, after⟩ := split_of_findIdx_lt listed listed' less
    exact ⟨earlier, d', later, split, after, equal, count' ▸ many⟩

end Duplicate

end StellaLang.Syntax
