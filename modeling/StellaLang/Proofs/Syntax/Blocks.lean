import StellaLang.Proofs.Syntax.Signatures

/-! The blocks of a program, and the declarations in them whose names are taken. A block gives a name
to the first declaration of that name; functions and types have names of their own. -/
namespace StellaLang.Syntax

namespace Decl

/-- Declarations that introduce one name in one block. -/
def clashes (d e : Located Decl) : Bool :=
  d.node.isFunction == e.node.isFunction && d.node.name?.isSome && d.node.name? == e.node.name?

/-- The declarations that clash with one before them. -/
def repeats (before : List (Located Decl)) : List (Located Decl) → List (Located Decl)
  | [] => []
  | d :: ds => if before.any (clashes d) then d :: repeats (before ++ [d]) ds else repeats (before ++ [d]) ds

/-- The declarations that clash with none before them. -/
def originals (before : List (Located Decl)) : List (Located Decl) → List (Located Decl)
  | [] => []
  | d :: ds =>
    if before.any (clashes d) then originals (before ++ [d]) ds else d :: originals (before ++ [d]) ds

mutual

/-- The blocks in a declaration, at any depth. -/
def blocks : Located Decl → List (List (Located Decl))
  | ⟨function _ _ _ _ _ _ ds _, _⟩ => ds :: blocksAll ds
  | ⟨typeAlias .., _⟩ | ⟨exceptionType _, _⟩ | ⟨exceptionVariant .., _⟩ => []

def blocksAll : List (Located Decl) → List (List (Located Decl))
  | [] => []
  | d :: ds => blocks d ++ blocksAll ds

end

/-- The declarations whose names are taken, as a block declares them one after the other. -/
def taken (names : List String) : List (Located Decl) → List (Located Decl)
  | [] => []
  | d :: ds =>
    match d.node.name? with
    | none => taken names ds
    | some x => if names.contains x then d :: taken names ds else taken (x :: names) ds

/-- That these are the names of some declarations of one kind. -/
def Names (kind : Bool) (names : List String) (before : List (Located Decl)) : Prop :=
  ∀ x, x ∈ names ↔ ∃ d ∈ before, d.node.isFunction = kind ∧ d.node.name? = some x

section Sifting

variable {kind : Bool} {names : List String} {before : List (Located Decl)} {d : Located Decl}

theorem Names.skip (known : Names kind names before)
    (nothing : d.node.isFunction = kind → d.node.name? = none) : Names kind names (before ++ [d]) := by
  intro x
  rw [known x]
  constructor
  · rintro ⟨e, member, own, named⟩
    exact ⟨e, List.mem_append_left _ member, own, named⟩
  · rintro ⟨e, member, own, named⟩
    rcases List.mem_append.mp member with member | member
    · exact ⟨e, member, own, named⟩
    · obtain rfl := List.mem_singleton.mp member
      rw [nothing own] at named
      contradiction

theorem Names.add (known : Names kind names before) {x : String} (own : d.node.isFunction = kind)
    (named : d.node.name? = some x) : Names kind (x :: names) (before ++ [d]) := by
  intro y
  rw [List.mem_cons, known y]
  constructor
  · rintro (rfl | ⟨e, member, own, named⟩)
    · exact ⟨d, List.mem_append_right _ List.mem_cons_self, own, named⟩
    · exact ⟨e, List.mem_append_left _ member, own, named⟩
  · rintro ⟨e, member, own', named'⟩
    rcases List.mem_append.mp member with member | member
    · exact .inr ⟨e, member, own', named'⟩
    · obtain rfl := List.mem_singleton.mp member
      rw [named] at named'
      exact .inl (Option.some.inj named').symm

theorem Names.again (known : Names kind names before) {x : String} (own : d.node.isFunction = kind)
    (named : d.node.name? = some x) (old : x ∈ names) : Names kind names (before ++ [d]) := by
  intro y
  rw [← known.add own named y, List.mem_cons]
  exact ⟨.inr, fun either => either.elim (fun same => same ▸ old) id⟩

theorem any_clashes_of_unnamed (named : d.node.name? = none) : before.any (clashes d) = false := by
  simp [clashes, named]

theorem any_clashes_iff (known : Names kind names before) {x : String} (own : d.node.isFunction = kind)
    (named : d.node.name? = some x) : before.any (clashes d) = names.contains x := by
  rw [Bool.eq_iff_iff, List.any_eq_true, List.contains_iff_mem, known x]
  simp only [clashes, own, named, Option.isSome_some, Bool.and_true, Bool.and_eq_true, beq_iff_eq]
  exact exists_congr fun e => and_congr_right fun _ => and_congr eq_comm eq_comm

/-- No declaration of its kind that comes before it has the name of one that clashes with none. -/
theorem name_ne_of_first {x : String} (named : d.node.name? = some x)
    (first : before.any (clashes d) = false) {e : Located Decl} (earlier : e ∈ before)
    (own : e.node.isFunction = d.node.isFunction) : e.node.name? ≠ some x := by
  intro same
  have clash : clashes d e = true := by simp [clashes, named, same, own]
  exact absurd clash (by simpa using List.any_eq_false.mp first e earlier)

/-- Among the declarations of one kind, those that clash with none before them are those whose names are
new, and the others are those whose names are taken. -/
theorem filter_sifted (known : Names kind names before) (ds : List (Located Decl)) :
    (originals before ds).filter (·.node.isFunction == kind) =
        firsts names (ds.filter (·.node.isFunction == kind)) ∧
      (repeats before ds).filter (·.node.isFunction == kind) =
        taken names (ds.filter (·.node.isFunction == kind)) := by
  induction ds generalizing names before with
  | nil => exact ⟨rfl, rfl⟩
  | cons d ds ih =>
    rw [originals, repeats]
    by_cases own : d.node.isFunction = kind
    · rw [List.filter_cons_of_pos (by simpa using own), firsts, taken]
      cases named : d.node.name? with
      | none =>
        obtain ⟨kept, dropped⟩ := ih (known.skip fun _ => named)
        rw [any_clashes_of_unnamed named]
        dsimp only
        exact ⟨by rw [if_neg (by simp), List.filter_cons_of_pos (by simpa using own), kept], dropped⟩
      | some x =>
        rw [any_clashes_iff known own named]
        dsimp only
        split
        · obtain ⟨kept, dropped⟩ := ih (known.again own named (by simpa using ‹names.contains x = true›))
          exact ⟨kept, by rw [List.filter_cons_of_pos (by simpa using own), dropped]⟩
        · obtain ⟨kept, dropped⟩ := ih (known.add own named)
          exact ⟨by rw [List.filter_cons_of_pos (by simpa using own), kept], dropped⟩
    · obtain ⟨kept, dropped⟩ := ih (known.skip fun this => absurd this own)
      rw [List.filter_cons_of_neg (by simpa using own)]
      refine ⟨?_, ?_⟩
      · split
        · exact kept
        · rw [List.filter_cons_of_neg (by simpa using own), kept]
      · split
        · rw [List.filter_cons_of_neg (by simpa using own), dropped]
        · exact dropped

theorem functions_sifted (block : List (Located Decl)) :
    (originals [] block).filter (·.node.isFunction) = firsts [] (block.filter (·.node.isFunction)) ∧
      (repeats [] block).filter (·.node.isFunction) = taken [] (block.filter (·.node.isFunction)) := by
  have known : Names true [] [] := fun x => by simp
  simpa using filter_sifted known block

theorem others_sifted (block : List (Located Decl)) :
    (originals [] block).filter (!·.node.isFunction) = firsts [] (block.filter (!·.node.isFunction)) ∧
      (repeats [] block).filter (!·.node.isFunction) = taken [] (block.filter (!·.node.isFunction)) := by
  have known : Names false [] [] := fun x => by simp
  simpa using filter_sifted known block

end Sifting

end Decl

/-- All blocks of a program: the program itself, and the locals of each function at any depth. -/
def Program.blocks (p : Located Program) : List (List (Located Decl)) :=
  p.node.decls :: Decl.blocksAll p.node.decls

end StellaLang.Syntax
