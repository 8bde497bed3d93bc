import StellaLang.Proofs.Syntax.Children

/-! The places that nodes have in a tree: paths from the root. The walk over all nodes comes to each
place once, and to the places below a node directly before the node. -/
namespace StellaLang.Syntax

/-- Whether a walk that comes to each node after the nodes below it, and to parts from left to
right, comes to one path before another. -/
def Before : List Nat → List Nat → Prop
  | [], _ => False
  | _ :: _, [] => True
  | i :: path, j :: path' => i < j ∨ i = j ∧ Before path path'

namespace Node

/-- The node at the end of a path, each step of which is the number of a part. -/
def at? : Node → List Nat → Option Node
  | n, [] => some n
  | n, i :: path => n.children[i]?.bind fun c => c.at? path

/-- The paths to all nodes, in the order of the walk. -/
def paths (n : Node) : List (List Nat) :=
  (n.children.zipIdx.attach.flatMap fun part => part.1.1.paths.map (part.1.2 :: ·)) ++ [[]]
termination_by n.postOrder.length
decreasing_by exact length_postOrder_child (List.fst_mem_of_mem_zipIdx part.2)

theorem paths_eq (n : Node) :
    n.paths = (n.children.zipIdx.flatMap fun part => part.1.paths.map (part.2 :: ·)) ++ [[]] := by
  rw [paths, ← List.flatMap_map (f := Subtype.val)
    (g := fun part : Node × Nat => part.1.paths.map (part.2 :: ·)), List.attach_map_subtype_val]

theorem at?_cons {n c : Node} {i : Nat} (part : n.children[i]? = some c) (path : List Nat) :
    n.at? (i :: path) = c.at? path := by
  rw [at?, part, Option.bind_some]

end Node

theorem Before.irrefl (path : List Nat) : ¬Before path path := by
  induction path with
  | nil => exact id
  | cons i path ih =>
    rintro (less | ⟨-, before⟩)
    · omega
    · exact ih before

namespace Node

/-- The paths lead to the nodes that the walk comes to. -/
theorem map_paths (root : Node) : root.paths.map root.at? = root.postOrder.map some := by
  induction root using Node.induction with
  | step root ih =>
    have parts : ∀ part ∈ root.children.zipIdx,
        (part.1.paths.map (part.2 :: ·)).map root.at? = part.1.postOrder.map some := by
      rintro ⟨c, i⟩ member
      have part := List.mem_zipIdx_iff_getElem?.mp member
      rw [← ih c (List.fst_mem_of_mem_zipIdx member), List.map_map]
      exact List.map_congr_left fun path _ => at?_cons part path
    rw [paths_eq, postOrder_eq, List.map_append, List.map_append, List.map_flatMap, List.map_flatMap]
    congr 1
    calc root.children.zipIdx.flatMap (fun part => (part.1.paths.map (part.2 :: ·)).map root.at?)
        = root.children.zipIdx.flatMap (fun part => part.1.postOrder.map some) :=
          List.flatMap_congr parts
      _ = (root.children.zipIdx.map Prod.fst).flatMap (fun c => c.postOrder.map some) :=
          by rw [List.flatMap_map]
      _ = root.children.flatMap (fun c => c.postOrder.map some) := by rw [List.zipIdx_map_fst]

/-- Every path that ends at a node is listed. -/
theorem mem_paths (root : Node) (path : List Nat) : path ∈ root.paths ↔ (root.at? path).isSome := by
  induction path generalizing root with
  | nil => simp [paths_eq root, at?]
  | cons i path ih =>
    rw [paths_eq, List.mem_append, List.mem_flatMap]
    constructor
    · rintro (⟨⟨c, j⟩, member, listed⟩ | root)
      · obtain ⟨path', inner, same⟩ := List.mem_map.mp listed
        obtain ⟨rfl, rfl⟩ := List.cons.inj same
        rw [at?_cons (List.mem_zipIdx_iff_getElem?.mp member)]
        exact (ih c).mp inner
      · simp at root
    · intro ends
      cases part : root.children[i]? with
      | none => simp [at?, part] at ends
      | some c =>
        rw [at?_cons part] at ends
        exact .inl ⟨(c, i), List.mem_zipIdx_iff_getElem?.mpr part,
          List.mem_map.mpr ⟨path, (ih c).mpr ends, rfl⟩⟩

/-- The paths come in the order of the walk, so each of them once. -/
theorem pairwise_paths (root : Node) : root.paths.Pairwise Before := by
  induction root using Node.induction with
  | step root ih =>
    rw [paths_eq, List.pairwise_append]
    refine ⟨List.pairwise_flatMap.mpr ⟨?_, ?_⟩, List.pairwise_singleton _ _, ?_⟩
    · rintro ⟨c, i⟩ member
      rw [List.pairwise_map]
      exact (ih c (List.fst_mem_of_mem_zipIdx member)).imp fun before => .inr ⟨rfl, before⟩
    · have ascending : (root.children.zipIdx.map Prod.snd).Pairwise (· < ·) := by
        rw [List.zipIdx_map_snd]
        exact List.pairwise_lt_range'
      refine (List.pairwise_map.mp ascending).imp ?_
      rintro ⟨c, i⟩ ⟨c', j⟩ less path listed path' listed'
      obtain ⟨path, -, rfl⟩ := List.mem_map.mp listed
      obtain ⟨path', -, rfl⟩ := List.mem_map.mp listed'
      exact .inl less
    · intro path listed path' last
      obtain ⟨part, -, listed⟩ := List.mem_flatMap.mp listed
      obtain ⟨path, -, rfl⟩ := List.mem_map.mp listed
      obtain rfl := List.mem_singleton.mp last
      trivial

/-- The places in the tree below a place are listed side by side, in the order that they have in
that tree alone. -/
theorem paths_below {root n : Node} {path : List Nat} (ends : root.at? path = some n) :
    ∃ earlier later, root.paths = earlier ++ n.paths.map (path ++ ·) ++ later := by
  induction path generalizing root with
  | nil =>
    obtain rfl := Option.some.inj ends
    exact ⟨[], [], by simp⟩
  | cons i path ih =>
    cases part : root.children[i]? with
    | none => simp [at?, part] at ends
    | some c =>
      rw [at?_cons part] at ends
      obtain ⟨earlier, later, inner⟩ := ih ends
      have member : (c, i) ∈ root.children.zipIdx := List.mem_zipIdx_iff_getElem?.mpr part
      obtain ⟨before, after, parts⟩ := List.append_of_mem member
      refine ⟨before.flatMap (fun part => part.1.paths.map (part.2 :: ·)) ++ earlier.map (i :: ·),
        later.map (i :: ·) ++ after.flatMap (fun part => part.1.paths.map (part.2 :: ·)) ++ [[]], ?_⟩
      rw [paths_eq root, parts, List.flatMap_append, List.flatMap_cons, inner]
      simp

/-- The walk misses nothing and repeats nothing. The list for a node is made of the lists for its parts,
in the order of its fields, and then the node. So there is one place in the list for each path from
the root, where the node stands that the path leads to; paths come from left to right, longer ones
before those that they continue, and in front of each node directly all that is below it. -/
theorem walk_lists_each_node_once (root : Node) :
    (∀ n : Node, n.postOrder = n.children.flatMap postOrder ++ [n]) ∧
      root.paths.map root.at? = root.postOrder.map some ∧
      (∀ path, path ∈ root.paths ↔ (root.at? path).isSome) ∧
      root.paths.Nodup ∧ root.paths.Pairwise Before ∧
      ∀ path n, root.at? path = some n →
        ∃ earlier later, root.paths = earlier ++ n.paths.map (path ++ ·) ++ later := by
  refine ⟨postOrder_eq, root.map_paths, root.mem_paths, ?_, root.pairwise_paths, ?_⟩
  · refine root.pairwise_paths.imp ?_
    rintro path _ before rfl
    exact Before.irrefl path before
  · exact fun _ _ ends => paths_below ends

end Node

end StellaLang.Syntax
