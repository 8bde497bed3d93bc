import Mathlib.Data.String.Basic
import StellaLang.Diagnostic

/-! The excerpt in a report: the source line of a place, and a caret below it. The caret is indented by
the bytes before the column, as if each were a character, and by a margin of four digits. -/
namespace StellaLang

namespace Text

theorem not_mem_dropReturn {line : List Char} (clear : '\n' ∉ line) : '\n' ∉ dropReturn line := by
  unfold dropReturn
  split
  · exact fun inside => clear (List.dropLast_subset line inside)
  · exact clear

theorem not_mem_of_mem_linesFrom {read rest line : List Char} (clear : '\n' ∉ read)
    (member : line ∈ linesFrom read rest) : '\n' ∉ line := by
  induction read, rest using linesFrom.induct with
  | case1 read empty =>
    rw [linesFrom, if_pos empty] at member
    contradiction
  | case2 read nonempty =>
    rw [linesFrom, if_neg nonempty, List.mem_singleton] at member
    simpa [member] using clear
  | case3 read rest ih =>
    rw [linesFrom, List.mem_cons] at member
    rcases member with rfl | later
    · exact not_mem_dropReturn (by simpa using clear)
    · exact ih List.not_mem_nil later
  | case4 read c rest other ih =>
    rw [linesFrom.eq_3 _ _ _ other] at member
    refine ih ?_ member
    rw [List.mem_cons, not_or]
    exact ⟨fun same => other same.symm, clear⟩

/-- The lines of a text hold no line feed. -/
theorem not_mem_of_mem_lines {s line : String} (member : line ∈ lines s) : '\n' ∉ line.toList := by
  obtain ⟨chars, inside, rfl⟩ := List.mem_map.mp member
  rw [String.toList_ofList]
  exact not_mem_of_mem_linesFrom List.not_mem_nil inside

/-- A text has at least as many bytes as characters, and as many just if each character is one byte. -/
theorem length_le_bytes (s : String) : s.length ≤ s.utf8ByteSize ∧
    (s.utf8ByteSize = s.length ↔ ∀ c ∈ s.toList, c.utf8Size = 1) := by
  rw [← String.length_toList, ← String.utf8Len_toList]
  induction s.toList with
  | nil => simp
  | cons c cs ih =>
    have := c.utf8Size_pos
    rw [String.utf8Len_cons, List.length_cons, List.forall_mem_cons, ← ih.2]
    omega

end Text

namespace Diagnostic

theorem length_spaces (n : Nat) : (spaces n).length = n := by
  rw [spaces, String.length_ofList, List.length_replicate]

theorem length_gutter (n : Nat) : (gutter n).length = max 4 (toString n).length := by
  rw [gutter, String.length_append, length_spaces]
  omega

theorem eq_space_of_mem_spaces {n : Nat} {c : Char} (member : c ∈ (spaces n).toList) : c = ' ' := by
  rw [spaces, String.toList_ofList] at member
  exact List.eq_of_mem_replicate member

theorem isDigit_of_mem_number {n : Nat} {c : Char} (member : c ∈ (toString n).toList) :
    c.isDigit = true := by
  rw [Nat.toString_eq_ofList_toDigits, String.toList_ofList] at member
  exact Nat.isDigit_of_mem_toDigits (by decide) (by decide) member

/-- What stands before the source line. -/
def margin (p : Position) : String :=
  gutter p.line ++ " | "

/-- What stands before the caret. -/
def indent (p : Position) : String :=
  "     | " ++ spaces (p.column - 1)

theorem length_margin (p : Position) : (margin p).length = max 4 (toString p.line).length + 3 := by
  rw [margin, String.length_append, length_gutter]
  rfl

theorem length_indent (p : Position) : (indent p).length = 7 + (p.column - 1) := by
  rw [indent, String.length_append, length_spaces]
  rfl

theorem not_mem_margin (p : Position) : '\n' ∉ (margin p).toList := by
  rw [margin, gutter, String.toList_append, String.toList_append, List.mem_append, List.mem_append]
  rintro ((space | digit) | bar)
  · exact absurd (eq_space_of_mem_spaces space) (by decide)
  · exact absurd (isDigit_of_mem_number digit) (by decide)
  · revert bar
    decide

theorem not_mem_indent {p : Position} {c : Char} (space : c ≠ ' ') (bar : c ≠ '|') :
    c ∉ (indent p).toList := by
  rw [indent, String.toList_append, List.mem_append]
  rintro (fixed | member)
  · have either : c = ' ' ∨ c = '|' ∨ c = ' ' := by simpa using fixed
    exact either.elim space (·.elim bar space)
  · exact space (eq_space_of_mem_spaces member)

theorem excerpt_found {severity : Severity} {p : Position} {source line : String}
    (found : (Text.lines source)[p.line - 1]? = some line) :
    excerpt severity false p source = margin p ++ line ++ "\n" ++ (indent p ++ "^\n") := by
  rw [excerpt, found, margin, indent]
  simp only [Severity.paint, Bool.false_eq_true, if_false, String.append_assoc]
  rfl

/-- What a report says before its excerpt, in whole lines. -/
def heading (d : Diagnostic) : String :=
  d.position.elim "" (fun p => p.text ++ ": ") ++ d.severity.name ++ ": " ++ d.message ++ "\n" ++
    d.code.elim "" fun code => "   [" ++ code ++ "]\n"

theorem heading_ends (d : Diagnostic) : d.heading.toList.getLast? = some '\n' := by
  rw [heading]
  cases d.code with
  | none => rw [Option.elim_none, String.append_empty, String.toList_append, List.getLast?_append]; simp
  | some code =>
    rw [Option.elim_some, ← String.append_assoc, String.toList_append, List.getLast?_append]
    simp

theorem exists_render (d : Diagnostic) (source : String) : ∃ back, d.render false source =
    d.heading ++ d.position.elim "" (excerpt d.severity false · source) ++ back := by
  refine ⟨?_, ?_⟩
  rotate_left
  · simp only [render, heading, String.append_assoc]
    rfl

/-- In a report whose source line `before ++ after` is cut at the column, the line and the caret line
stand one below the other. The caret has the index of the cut just if the line number has as many digits
more than four as `before` has bytes more than characters; up to line 9999, just if each character before
the column is one byte. -/
theorem caret_below_column {d : Diagnostic} {source : String} {p : Position} {before after : String}
    (placed : d.position = some p) (column : p.column = before.utf8ByteSize + 1)
    (found : (Text.lines source)[p.line - 1]? = some (before ++ after)) :
    (∃ front back : String, d.render false source =
        front ++ (margin p ++ before ++ after ++ "\n") ++ (indent p ++ "^\n") ++ back ∧
      front.toList.getLast? = some '\n' ∧ '\n' ∉ (margin p ++ before ++ after).toList ∧
      '\n' ∉ (indent p).toList ∧ '^' ∉ (indent p).toList) ∧
    ((indent p).length = (margin p ++ before).length ↔
      (toString p.line).length - 4 = before.utf8ByteSize - before.length) ∧
    (p.line < 10000 → ((indent p).length = (margin p ++ before).length ↔
      ∀ c ∈ before.toList, c.utf8Size = 1)) := by
  obtain ⟨bytes, single⟩ := Text.length_le_bytes before
  have aligned : (indent p).length = (margin p ++ before).length ↔
      (toString p.line).length - 4 = before.utf8ByteSize - before.length := by
    rw [length_indent, String.length_append, length_margin, column]
    omega
  refine ⟨?_, aligned, fun few => ?_⟩
  · obtain ⟨back, rendered⟩ := d.exists_render source
    rw [placed, Option.elim_some, excerpt_found found] at rendered
    refine ⟨d.heading, back, by rw [rendered]; simp only [String.append_assoc], d.heading_ends, ?_,
      not_mem_indent (by decide) (by decide), not_mem_indent (by decide) (by decide)⟩
    · have quoted := Text.not_mem_of_mem_lines (List.mem_of_getElem? found)
      rw [String.append_assoc, String.toList_append, List.mem_append, not_or]
      exact ⟨not_mem_margin p, quoted⟩
  · have short : (toString p.line).length ≤ 4 := (Nat.length_repr_le_iff (by decide)).mpr few
    rw [aligned, ← single]
    omega

/-- A report on the second line of a text. -/
def mismatch : Diagnostic :=
  { severity := .error, message := "type mismatch", position := some ⟨2, 6, 6⟩ }

theorem mismatch_aligned :
    (Text.lines "\nsucc(true)")[2 - 1]? = some ("succ(" ++ "true)") ∧
      (indent ⟨2, 6, 6⟩).length = (margin ⟨2, 6, 6⟩ ++ "succ(").length := by
  have found : (Text.lines "\nsucc(true)")[2 - 1]? = some ("succ(" ++ "true)") := by decide +kernel
  have column : 6 = "succ(".utf8ByteSize + 1 := by decide +kernel
  have shown := caret_below_column (d := mismatch) (p := ⟨2, 6, 6⟩) rfl column found
  have single : ∀ c ∈ "succ(".toList, c.utf8Size = 1 := by simp; decide
  exact ⟨found, (shown.2.2 (by decide)).mpr single⟩

/-- Behind a letter of two bytes the caret stands one character too far to the right. -/
theorem caret_misplaced :
    let d : Diagnostic := { severity := .error, message := "m", position := some ⟨1, 4, 3⟩ }
    (Text.lines "µ x")[1 - 1]? = some ("µ " ++ "x") ∧ 4 = "µ ".utf8ByteSize + 1 ∧
    d.render false "µ x" = "1:4: error: m\n" ++ "   1 | µ x\n" ++ "     |    ^\n" ∧
      "   1 | µ x".toList.idxOf 'x' = 9 ∧ "     |    ^".toList.idxOf '^' = 10 := by
  decide +kernel

end Diagnostic

end StellaLang
