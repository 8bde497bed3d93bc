import Mathlib.Data.List.Forall2
import StellaLang.Layout
import StellaLang.Text.Blank

/-! The words of a text: signs that stand for themselves, and runs of other characters between signs
and blanks. Two texts side by side have the words of both, unless a run goes on from the first into
the second. -/
namespace StellaLang.Text

open Layout (Doc Style)

/-- The characters that belong to no run. -/
def signs : List Char :=
  ['(', ')', '[', ']', '\x7b', '\x7d', ',', ';', '.', '*', '&']

/-- Whether a character runs on into its neighbours. -/
def isGlue (c : Char) : Bool :=
  !isBlank c && !signs.contains c

def opensGlue : List Char → Bool
  | [] => false
  | c :: _ => isGlue c

/-- A character in front of the first word. -/
def attach (c : Char) : List (List Char) → List (List Char)
  | [] => [[c]]
  | w :: ws => (c :: w) :: ws

def runs : List Char → List (List Char)
  | [] => []
  | c :: cs =>
    if isBlank c then runs cs
    else if isGlue c && opensGlue cs then attach c (runs cs)
    else [c] :: runs cs

def words (cs : List Char) : List String :=
  (runs cs).map String.ofList

/-- That a text has these words, if no run goes on behind it. -/
def Spells (s : String) (ws : List String) : Prop :=
  ∀ rest, opensGlue rest = false → words (s.toList ++ rest) = ws ++ words rest

/-- That a text has these words, whatever stands behind it. -/
def Ends (s : String) (ws : List String) : Prop :=
  ∀ rest, words (s.toList ++ rest) = ws ++ words rest

/-- That no run goes on from what stands before a text into it. -/
def Starts (s : String) : Prop :=
  ∀ rest, opensGlue (s.toList ++ rest) = false

variable {s t u : String} {ws us vs : List String}

theorem Spells.words_eq (spelled : Spells s ws) : words s.toList = ws := by
  have whole := spelled [] rfl
  rwa [List.append_nil, show words [] = [] from rfl, List.append_nil] at whole

theorem Ends.spells (ended : Ends s ws) : Spells s ws :=
  fun rest _ => ended rest

theorem Ends.append (first : Ends s ws) (second : Spells t us) : Spells (s ++ t) (ws ++ us) := by
  intro rest apart
  rw [String.toList_append, List.append_assoc, first, second rest apart, List.append_assoc]

theorem Ends.extend (first : Ends s ws) (second : Ends t us) : Ends (s ++ t) (ws ++ us) := by
  intro rest
  rw [String.toList_append, List.append_assoc, first, second, List.append_assoc]

/-- A text, and one behind it that begins with a sign or a blank and ends with one. -/
theorem Spells.close (first : Spells s ws) (second : Ends t us) (apart : Starts t) :
    Ends (s ++ t) (ws ++ us) := by
  intro rest
  rw [String.toList_append, List.append_assoc, first _ (apart rest), second rest, List.append_assoc]

theorem Spells.append (first : Spells s ws) (second : Spells t us) (apart : Starts t) :
    Spells (s ++ t) (ws ++ us) := by
  intro rest loose
  rw [String.toList_append, List.append_assoc, first _ (apart rest), second rest loose,
    List.append_assoc]

/-- Two texts with one between them that begins and ends with signs or blanks. -/
theorem Spells.next (first : Spells s ws) (between : Ends t us) (apart : Starts t) (second : Spells u vs) :
    Spells (s ++ t ++ u) (ws ++ us ++ vs) :=
  (first.close between apart).append second

theorem Spells.ended (first : Spells s ws) (last : Ends t us) (apart : Starts t) :
    Spells (s ++ t) (ws ++ us) :=
  (first.close last apart).spells

theorem spells_empty : Spells "" [] :=
  fun _ _ => rfl

section Words

/-- A run of characters is one word. -/
theorem runs_word {w : List Char} (filled : w ≠ []) (glued : ∀ c ∈ w, isGlue c = true) {rest : List Char}
    (loose : opensGlue rest = false) : runs (w ++ rest) = w :: runs rest := by
  induction w with
  | nil => contradiction
  | cons c w ih =>
    have glue := glued c List.mem_cons_self
    have visible : isBlank c = false := by
      rw [isGlue, Bool.and_eq_true, Bool.not_eq_true'] at glue
      exact glue.1
    cases w with
    | nil => simp [runs, visible, loose]
    | cons d w =>
      have glued' := fun d member => glued d (List.mem_cons_of_mem c member)
      have more : opensGlue (d :: (w ++ rest)) = true := glued' d List.mem_cons_self
      have inner := ih (List.cons_ne_nil d w) glued'
      rw [List.cons_append] at inner
      rw [List.cons_append, List.cons_append, runs, if_neg (Bool.eq_false_iff.mp visible),
        if_pos (by rw [glue, more]; rfl), inner, attach]

/-- Whether a text is one run. -/
def isWord (s : String) : Bool :=
  !s.toList.isEmpty && s.toList.all isGlue

theorem spells_word (word : isWord s = true) : Spells s [s] := by
  intro rest loose
  rw [isWord, Bool.and_eq_true, Bool.not_eq_true', List.isEmpty_eq_false_iff, List.all_eq_true] at word
  rw [words, runs_word word.1 word.2 loose, List.map_cons, String.ofList_toList]
  rfl

/-- The characters of names and numbers. -/
def isWordly (c : Char) : Bool :=
  c.isAlphanum || c == '_'

/-- The letters stand between `A` and `z`. -/
theorem letter_bounds {c : Char} (letter : c.isAlpha = true) :
    'A'.toNat ≤ c.toNat ∧ c.toNat ≤ 'z'.toNat := by
  rcases (Bool.or_eq_true _ _).mp letter with upper | lower
  · have range : 'A'.val ≤ c.val ∧ c.val ≤ 'Z'.val := of_decide_eq_true upper
    exact ⟨range.1, Nat.le_trans range.2 (by decide)⟩
  · have range := (Bool.and_eq_true _ _).mp lower
    exact ⟨Nat.le_trans (by decide) (of_decide_eq_true range.1), of_decide_eq_true range.2⟩

theorem isGlue_of_isWordly {c : Char} (wordly : isWordly c = true) : isGlue c = true := by
  have table : ∀ n < 128, isWordly (Char.ofNat n) = true → isGlue (Char.ofNat n) = true := by
    decide +kernel
  have ascii : c.toNat < 128 := by
    rw [isWordly, Char.isAlphanum, Bool.or_eq_true, Bool.or_eq_true, beq_iff_eq] at wordly
    rcases wordly with (letter | digit) | rfl
    · exact Nat.lt_of_le_of_lt (letter_bounds letter).2 (by decide)
    · exact Nat.lt_of_le_of_lt (Char.isDigit_iff_toNat.mp digit).2 (by decide)
    · decide
  rw [← Char.ofNat_toNat c] at wordly ⊢
  exact table c.toNat ascii wordly

/-- A run of letters, digits and underscores. -/
theorem isWord_of_wordly (filled : s.toList ≠ []) (wordly : ∀ c ∈ s.toList, isWordly c = true) :
    isWord s = true := by
  rw [isWord, Bool.and_eq_true, Bool.not_eq_true', List.isEmpty_eq_false_iff, List.all_eq_true]
  exact ⟨filled, fun c member => isGlue_of_isWordly (wordly c member)⟩

/-- Letters, digits and underscores, no digit first. -/
def isIdentifier (x : String) : Bool :=
  x.toList.head?.any (fun c => c.isAlpha || c == '_') && x.toList.all isWordly

theorem spells_identifier {x : String} (identifier : isIdentifier x = true) : Spells x [x] := by
  rw [isIdentifier, Bool.and_eq_true, List.all_eq_true] at identifier
  refine spells_word (isWord_of_wordly ?_ identifier.2)
  intro empty
  rw [empty] at identifier
  exact Bool.false_ne_true identifier.1

theorem spells_nat (n : Nat) : Spells (toString n) [toString n] := by
  have digits : (toString n).toList = Nat.toDigits 10 n := by
    rw [Nat.toString_eq_ofList_toDigits, String.toList_ofList]
  refine spells_word (isWord_of_wordly ?_ fun c member => ?_)
  · rw [digits]
    exact Nat.toDigits_ne_nil
  · rw [digits] at member
    have digit := Nat.isDigit_of_mem_toDigits (by omega) (by omega) member
    simp [isWordly, Char.isAlphanum, digit]

end Words

section Separated

/-- Lists of words with a sign between each two. -/
def separated (sign : String) : List (List String) → List String
  | [] => []
  | ws :: wss => ws ++ wss.flatMap (sign :: ·)

theorem separated_cons_cons (sign : String) (ws us : List String) (wss : List (List String)) :
    separated sign (ws :: us :: wss) = ws ++ [sign] ++ separated sign (us :: wss) := by
  simp [separated]

/-- Texts with a separator between each two. -/
theorem spells_intercalate {separator sign : String} (between : Ends separator [sign])
    (apart : Starts separator) {parts : List String} {wss : List (List String)}
    (spelled : List.Forall₂ Spells parts wss) :
    Spells (String.intercalate separator parts) (separated sign wss) := by
  induction spelled with
  | nil => exact spells_empty
  | cons first others ih =>
    cases others with
    | nil =>
      rw [String.intercalate_singleton, separated, List.flatMap_nil, List.append_nil]
      exact first
    | cons second others =>
      rw [String.intercalate_cons_cons, separated_cons_cons]
      exact first.next between apart ih

end Separated

section Layout

variable {style : Style}

/-- A style that indents with blanks. -/
def IndentsBlank (style : Style) : Prop :=
  ∀ c ∈ style.indent.toList, isBlank c = true

theorem words_blank {cs : List Char} (blank : ∀ c ∈ cs, isBlank c = true) (rest : List Char) :
    words (cs ++ rest) = words rest := by
  induction cs with
  | nil => rfl
  | cons c cs ih =>
    rw [List.cons_append, words, runs, if_pos (blank c List.mem_cons_self)]
    exact ih fun d member => blank d (List.mem_cons_of_mem c member)

theorem ends_margin (blank : IndentsBlank style) (depth : Nat) : Ends (style.margin depth) [] := by
  induction depth with
  | zero => exact fun rest => rfl
  | succ depth ih =>
    intro rest
    rw [Style.margin, List.replicate_succ, String.join_cons, String.toList_append, List.append_assoc,
      words_blank blank]
    exact ih rest

variable {first second : Doc} {depth : Nat}

theorem render_append :
    (first ++ second).render style depth = first.render style depth ++ second.render style depth :=
  rfl

theorem render_join (separator : String) (docs : List Doc) :
    (Doc.join separator docs).render style depth =
      String.intercalate separator (Doc.renderAll style depth docs) := by
  induction docs with
  | nil => rfl
  | cons first others ih =>
    cases others with
    | nil => rw [Doc.renderAll, Doc.renderAll, String.intercalate_singleton, Doc.join]
    | cons second others =>
      rw [Doc.renderAll, Doc.renderAll, String.intercalate_cons_cons, ← Doc.renderAll, ← ih]
      rfl

theorem spells_renderAll {cases : List Doc} {wss : List (List String)}
    (spelled : List.Forall₂ (fun doc => Spells (doc.render style depth)) cases wss) :
    List.Forall₂ Spells (Doc.renderAll style depth cases) wss := by
  induction spelled with
  | nil => exact .nil
  | cons first _ ih => exact .cons first ih

/-- Documents with a separator between each two. -/
theorem spells_join {separator sign : String} (between : Ends separator [sign])
    (apart : Starts separator) {docs : List Doc} {wss : List (List String)}
    (spelled : List.Forall₂ (fun doc => Spells (doc.render style depth)) docs wss) :
    Spells ((Doc.join separator docs).render style depth) (separated sign wss) := by
  rw [render_join]
  exact spells_intercalate between apart (spells_renderAll spelled)

/-- Alternatives one below the other, all but the first. -/
theorem ends_stacked (blank : IndentsBlank style) (depth : Nat) {parts : List String}
    {wss : List (List String)} (spelled : List.Forall₂ Spells parts wss) :
    Ends (String.join (parts.map fun part => style.margin depth ++ "| " ++ part ++ "\n"))
      (wss.flatMap ("|" :: ·)) := by
  induction spelled with
  | nil => exact fun _ => rfl
  | @cons part ws parts wss first _ ih =>
    have sign : Ends "| " ["|"] := fun _ => rfl
    have newline : Ends "\n" [] := fun _ => rfl
    have line := ((((ends_margin blank depth).extend sign).append first).close newline fun _ => rfl).extend ih
    rw [List.map_cons, String.join_cons, List.flatMap_cons]
    simpa using line

/-- Alternatives have the same words side by side and one below the other. -/
theorem spells_alternatives (blank : IndentsBlank style) {head : Doc} {cases : List Doc}
    {hs : List String} {wss : List (List String)} (opened : Spells (head.render style depth) hs)
    (spelled : List.Forall₂ (fun doc => Spells (doc.render style (depth + 1))) cases wss) :
    Spells ((Doc.alternatives head cases).render style depth)
      (hs ++ ["\x7b"] ++ separated "|" wss ++ ["\x7d"]) := by
  have parts := spells_renderAll spelled
  have bracket : Ends "\x7d" ["\x7d"] := fun _ => rfl
  rw [Doc.render]
  split
  · have start : Ends (head.render style depth ++ " \x7b ") (hs ++ ["\x7b"]) :=
      opened.close (fun _ => rfl) fun _ => rfl
    have between : Ends " | " ["|"] := fun _ => rfl
    have inner := spells_intercalate between (fun _ => rfl) parts
    have finish : Ends " \x7d" ["\x7d"] := fun _ => rfl
    exact ((start.append inner).close finish fun _ => rfl).spells
  · have start : Ends (head.render style depth ++ " \x7b\n") (hs ++ ["\x7b"]) :=
      opened.close (fun _ => rfl) fun _ => rfl
    generalize Doc.renderAll style (depth + 1) cases = texts at parts
    cases parts with
    | nil => exact ((start.extend (ends_margin blank depth)).extend bracket).spells
    | @cons text ws others wss first others_spelled =>
      have indent : Ends "  " [] := fun _ => rfl
      have newline : Ends "\n" [] := fun _ => rfl
      have lines := ((((start.extend (ends_margin blank (depth + 1))).extend indent).append first).close
        newline fun _ => rfl).extend (ends_stacked blank (depth + 1) others_spelled)
      have whole := (lines.extend (ends_margin blank depth)).extend bracket
      simpa [separated, Doc.stacked] using whole.spells

end Layout

end StellaLang.Text
