import StellaLang.Proofs.Syntax.Children

/-! The annotations that make up the types of functions: those of the parameters and of the result. A
block makes the type of a function known if no function before it has the same name. -/
namespace StellaLang.Syntax.Decl

/-- The declarations whose names are new, as a block declares them one after the other. -/
def firsts (names : List String) : List (Located Decl) → List (Located Decl)
  | [] => []
  | d :: ds =>
    match d.node.name? with
    | none => d :: firsts names ds
    | some x => if names.contains x then firsts names ds else d :: firsts (x :: names) ds

/-- All nodes of the annotations from which the type of a function is made. -/
def signatureNodes : Located Decl → List Node
  | ⟨function _ _ _ ps r _ _ _, _⟩ => TypeExpr.postOrderFields ps ++ r.elim [] TypeExpr.postOrder
  | _ => []

/-- All nodes below a function but those of its signature. -/
def otherNodes : Located Decl → List Node
  | ⟨function _ _ _ _ _ ts ds e, _⟩ => TypeExpr.postOrderAll ts ++ postOrderAll ds ++ Expr.postOrder e
  | ⟨typeAlias .., _⟩ | ⟨exceptionType _, _⟩ | ⟨exceptionVariant .., _⟩ => []

/-- The nodes of the signatures that a block makes known. A function whose name is taken has none. -/
def signatures (block : List (Located Decl)) : List Node :=
  (firsts [] (block.filter (·.node.isFunction))).flatMap signatureNodes

mutual

/-- The nodes of the signatures of all blocks in a declaration. -/
def innerSignatures : Located Decl → List Node
  | ⟨function _ _ _ _ _ _ ds _, _⟩ => signatures ds ++ innerSignaturesAll ds
  | ⟨typeAlias .., _⟩ | ⟨exceptionType _, _⟩ | ⟨exceptionVariant .., _⟩ => []

def innerSignaturesAll : List (Located Decl) → List Node
  | [] => []
  | d :: ds => innerSignatures d ++ innerSignaturesAll ds

end

/-- The nodes of the signatures of a block and of all blocks in it. -/
def allSignatures (block : List (Located Decl)) : List Node :=
  signatures block ++ innerSignaturesAll block

/-- The parts of an annotation are annotations. -/
theorem type_of_mem_child {t : Located TypeExpr} {c : Node} (part : c ∈ (Node.type t).children) :
    ∃ u, c = .type u := by
  obtain ⟨t, position⟩ := t
  cases t with
  | variant fs =>
    obtain ⟨field, -, same⟩ := List.mem_filterMap.mp part
    obtain ⟨u, -, rfl⟩ := Option.map_eq_some_iff.mp same
    exact ⟨u, rfl⟩
  | _ =>
    simp only [Node.children, TypeExpr.children] at part
    grind

theorem type_of_mem_type {t : Located TypeExpr} {n : Node} (member : n ∈ TypeExpr.postOrder t) :
    ∃ u, n = .type u := by
  have all (root : Node) : (∃ t, root = .type t) → ∀ n ∈ root.postOrder, ∃ u, n = .type u := by
    induction root using Node.induction with
    | step root ih =>
      rintro ⟨t, rfl⟩ n member
      rw [Node.postOrder_eq, List.mem_append, List.mem_flatMap, List.mem_singleton] at member
      obtain ⟨c, part, inside⟩ | rfl := member
      · exact ih c part (type_of_mem_child part) n inside
      · exact ⟨t, rfl⟩
  exact all (.type t) ⟨t, rfl⟩ n member

theorem type_of_mem_signatureNodes {d : Located Decl} {n : Node} (member : n ∈ signatureNodes d) :
    ∃ t, n = .type t := by
  obtain ⟨d, position⟩ := d
  cases d with
  | function modifiers name generics params result =>
    rw [signatureNodes, TypeExpr.postOrderFields_eq, List.mem_append, List.mem_flatMap] at member
    obtain ⟨root, part, inside⟩ | inside := member
    · obtain ⟨param, -, rfl⟩ := List.mem_map.mp part
      exact type_of_mem_type inside
    · cases result with
      | none => cases inside
      | some t => exact type_of_mem_type inside
  | _ => cases member

theorem type_of_mem_signatures {block : List (Located Decl)} {n : Node} (member : n ∈ signatures block) :
    ∃ t, n = .type t := by
  obtain ⟨d, -, inside⟩ := List.mem_flatMap.mp member
  exact type_of_mem_signatureNodes inside

mutual

theorem type_of_mem_inner {n : Node} (d : Located Decl) (member : n ∈ innerSignatures d) :
    ∃ t, n = .type t := by
  obtain ⟨d, position⟩ := d
  exact type_of_mem_innerNode position d member
termination_by structural d

theorem type_of_mem_innerNode {n : Node} (position : Option Position) (d : Decl)
    (member : n ∈ innerSignatures ⟨d, position⟩) : ∃ t, n = .type t := by
  cases d with
  | function modifiers name generics params result throws locals body =>
    rw [innerSignatures] at member
    obtain inside | inside := List.mem_append.mp member
    · exact type_of_mem_signatures inside
    · exact type_of_mem_innerAll locals inside
  | typeAlias | exceptionType | exceptionVariant =>
    rw [innerSignatures] at member
    cases member
termination_by structural d

theorem type_of_mem_innerAll {n : Node} (ds : List (Located Decl)) (member : n ∈ innerSignaturesAll ds) :
    ∃ t, n = .type t := by
  match ds with
  | [] =>
    rw [innerSignaturesAll] at member
    cases member
  | d :: ds =>
    rw [innerSignaturesAll] at member
    obtain inside | inside := List.mem_append.mp member
    · exact type_of_mem_inner d inside
    · exact type_of_mem_innerAll ds inside
termination_by structural ds

end

/-- The nodes of all signatures are annotations. -/
theorem type_of_mem_allSignatures {block : List (Located Decl)} {n : Node}
    (member : n ∈ allSignatures block) : ∃ t, n = .type t := by
  obtain inside | inside := List.mem_append.mp member
  · exact type_of_mem_signatures inside
  · exact type_of_mem_innerAll block inside

theorem firsts_sublist (names : List String) (ds : List (Located Decl)) : (firsts names ds).Sublist ds := by
  induction ds generalizing names with
  | nil => exact .slnil
  | cons d ds ih =>
    rw [firsts]
    split
    · exact (ih names).cons_cons d
    · split
      · exact (ih names).cons d
      · exact (ih _).cons_cons d

end StellaLang.Syntax.Decl
