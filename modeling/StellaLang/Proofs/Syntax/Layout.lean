import StellaLang.Proofs.Text.Words
import StellaLang.Syntax.Node
import StellaLang.Syntax.Printer

/-! A style decides where the blanks of a printed text stand, and nothing else. Printing is told here a
second time, as the work of a printer that counts how deep it is: the count goes up before the inside of
a function and before alternatives, and must be back where it was behind them. -/
namespace StellaLang

namespace Text

/-- What is left of a text once every blank is deleted. -/
def deleteBlanks (s : String) : String :=
  .ofList (s.toList.filter (!isBlank ·))

@[simp] theorem deleteBlanks_append (s t : String) :
    deleteBlanks (s ++ t) = deleteBlanks s ++ deleteBlanks t := by
  simp [deleteBlanks]

theorem deleteBlanks_of_blank {s : String} (blank : ∀ c ∈ s.toList, isBlank c = true) :
    deleteBlanks s = "" := by
  have none : s.toList.filter (!isBlank ·) = [] := by simpa using blank
  rw [deleteBlanks, none]

theorem deleteBlanks_intercalate (separator : String) (parts : List String) :
    deleteBlanks (String.intercalate separator parts) =
      String.intercalate (deleteBlanks separator) (parts.map deleteBlanks) := by
  induction parts with
  | nil => rfl
  | cons first others ih =>
    cases others with
    | nil => rfl
    | cons second others =>
      rw [String.intercalate_cons_cons, deleteBlanks_append, deleteBlanks_append, ih]
      simp only [List.map_cons, String.intercalate_cons_cons]

end Text

namespace Layout

open Text (deleteBlanks deleteBlanks_append deleteBlanks_of_blank deleteBlanks_intercalate
  IndentsBlank)

variable {style : Style}

theorem deleteBlanks_margin (blank : IndentsBlank style) (depth : Nat) :
    deleteBlanks (style.margin depth) = "" := by
  induction depth with
  | zero => rfl
  | succ depth ih =>
    rw [Style.margin, List.replicate_succ, String.join_cons, deleteBlanks_append,
      deleteBlanks_of_blank blank]
    exact ih

namespace Doc

/-- Alternatives without a blank. -/
def inkOfAlternatives (head : String) (cases : List String) : String :=
  head ++ "\x7b" ++ String.intercalate "|" cases ++ "\x7d"

mutual

/-- What a document says whatever its style: its texts without their blanks. -/
def ink : Doc → String
  | text s => deleteBlanks s
  | append first second => first.ink ++ second.ink
  | line => ""
  | nest doc => doc.ink
  | alternatives head cases => inkOfAlternatives head.ink (inks cases)

def inks : List Doc → List String
  | [] => []
  | doc :: docs => doc.ink :: inks docs

end

theorem deleteBlanks_flat (head : String) (cases : List String) :
    deleteBlanks (flat head cases) =
      inkOfAlternatives (deleteBlanks head) (cases.map deleteBlanks) := by
  simp only [flat, deleteBlanks_append, deleteBlanks_intercalate, inkOfAlternatives]
  rfl

/-- The alternatives after the first, a line each. -/
theorem deleteBlanks_lines {inner : String} (blank : deleteBlanks inner = "") (first : String)
    (others : List String) :
    deleteBlanks (first ++ "\n" ++ String.join (others.map fun other => inner ++ "| " ++ other ++ "\n")) =
      String.intercalate "|" (deleteBlanks first :: others.map deleteBlanks) := by
  have newline : deleteBlanks "\n" = "" := rfl
  have bar : deleteBlanks "| " = "|" := rfl
  induction others generalizing first with
  | nil => simp [newline]
  | cons second others ih =>
    have rest := ih second
    simp only [deleteBlanks_append, newline, String.append_empty] at rest
    simp only [List.map_cons, String.join_cons, deleteBlanks_append, newline, bar, blank,
      String.empty_append, String.intercalate_cons_cons, ← rest, String.append_assoc]

theorem deleteBlanks_stacked (head : String) {outer inner : String} (blank : deleteBlanks outer = "")
    (blank' : deleteBlanks inner = "") (cases : List String) :
    deleteBlanks (stacked head outer inner cases) =
      inkOfAlternatives (deleteBlanks head) (cases.map deleteBlanks) := by
  cases cases with
  | nil =>
    simp only [stacked, deleteBlanks_append, blank, inkOfAlternatives]
    rfl
  | cons first others =>
    have lines := deleteBlanks_lines blank' first others
    rw [deleteBlanks_append, deleteBlanks_append] at lines
    simp only [stacked, inkOfAlternatives, List.map_cons, ← lines, deleteBlanks_append, blank, blank']
    simp only [String.append_assoc]
    rfl

mutual

theorem deleteBlanks_render (blank : IndentsBlank style) (depth : Nat) :
    (doc : Doc) → deleteBlanks (doc.render style depth) = doc.ink
  | text s => rfl
  | append first second => by
    rw [render, deleteBlanks_append, deleteBlanks_render blank depth first,
      deleteBlanks_render blank depth second, ink]
  | line => by
    rw [render, deleteBlanks_append, deleteBlanks_margin blank, ink]
    rfl
  | nest doc => by rw [render, deleteBlanks_render blank (depth + 1) doc, ink]
  | alternatives head cases => by
    have opened := deleteBlanks_render blank depth head
    have inside := deleteBlanks_renderAll blank (depth + 1) cases
    rw [render, ink, ← opened, ← inside]
    split
    · exact deleteBlanks_flat _ _
    · exact deleteBlanks_stacked _ (deleteBlanks_margin blank depth)
        (deleteBlanks_margin blank (depth + 1)) _

theorem deleteBlanks_renderAll (blank : IndentsBlank style) (depth : Nat) :
    (docs : List Doc) → (renderAll style depth docs).map deleteBlanks = inks docs
  | [] => rfl
  | doc :: docs => by
    rw [renderAll, List.map_cons, deleteBlanks_render blank depth doc,
      deleteBlanks_renderAll blank depth docs, inks]

end

end Doc

/-- A printer at work: how it prints, and how many levels deep it is. -/
structure Printer where
  style : Style := {}
  level : Nat := 0
deriving DecidableEq, Repr

abbrev Print := StateM Printer

namespace Print

/-- The blanks at the beginning of a line, where the printer is. -/
def margin : Print String := do
  let printer ← get
  return printer.style.margin printer.level

/-- A step that is taken one level deeper. -/
def deeper (x : Print α) : Print α := do
  modify fun printer => { printer with level := printer.level + 1 }
  let answer ← x
  modify fun printer => { printer with level := printer.level - 1 }
  return answer

/-- That a step answers `a` and leaves the printer as it is. -/
def Answers (x : Print α) (printer : Printer) (a : α) : Prop :=
  x printer = (a, printer)

namespace Answers

variable {x : Print α} {printer : Printer} {a : α}

theorem answer (a : α) : Answers (pure a) printer a := rfl

theorem bind {f : α → Print β} {b : β} (first : Answers x printer a) (next : Answers (f a) printer b) :
    Answers (x >>= f) printer b := by
  have start : (x >>= f) printer = f (x printer).1 (x printer).2 := rfl
  rw [Answers, start, first]
  exact next

theorem margin : Answers margin printer (printer.style.margin printer.level) := rfl

/-- The level comes back down behind what is printed deeper. -/
theorem deeper (inside : Answers x { printer with level := printer.level + 1 } a) :
    Answers (deeper x) printer a := by
  have start : Print.deeper x printer =
      ((x { printer with level := printer.level + 1 }).1,
        { (x { printer with level := printer.level + 1 }).2 with
          level := (x { printer with level := printer.level + 1 }).2.level - 1 }) := rfl
  rw [Answers, start, inside]
  rfl

end Answers

end Print

namespace Doc

open Print (Answers)

mutual

/-- The work of writing a document. -/
def print : Doc → Print String
  | text s => return s
  | append first second => do
    let first ← first.print
    let second ← second.print
    return first ++ second
  | line => do
    let margin ← Print.margin
    return "\n" ++ margin
  | nest doc => Print.deeper doc.print
  | alternatives head cases => do
    let head ← head.print
    let (cases, inner) ← Print.deeper do
      let cases ← printAll cases
      let inner ← Print.margin
      return (cases, inner)
    let side := flat head cases
    let printer ← get
    if side.utf8ByteSize + inner.utf8ByteSize ≤ printer.style.width ∨ cases.length < 2 then
      return side
    else do
      let outer ← Print.margin
      return stacked head outer inner cases

def printAll : List Doc → Print (List String)
  | [] => return []
  | doc :: docs => do
    let first ← doc.print
    let others ← printAll docs
    return first :: others

end

mutual

theorem print_answers (printer : Printer) :
    (doc : Doc) → Answers doc.print printer (doc.render printer.style printer.level)
  | text s => by
    rw [print, render]
    exact .answer s
  | append first second => by
    rw [print, render]
    exact (print_answers printer first).bind ((print_answers printer second).bind (.answer _))
  | line => by
    rw [print, render]
    exact Answers.margin.bind (.answer _)
  | nest doc => by
    rw [print, render]
    exact (print_answers { printer with level := printer.level + 1 } doc).deeper
  | alternatives head cases => by
    let below : Printer := { printer with level := printer.level + 1 }
    have opened := print_answers printer head
    have inside : Answers (do
        let cases ← printAll cases
        let inner ← Print.margin
        return (cases, inner)) below
        (renderAll below.style below.level cases, below.style.margin below.level) :=
      (printAll_answers below cases).bind (Answers.margin.bind (.answer _))
    rw [print, render]
    refine opened.bind (inside.deeper.bind ?_)
    have current : Answers get printer printer := rfl
    refine current.bind ?_
    -- Both ways of printing choose by the same size.
    split
    · exact .answer _
    · exact Answers.margin.bind (.answer _)

theorem printAll_answers (printer : Printer) :
    (docs : List Doc) → Answers (printAll docs) printer (renderAll printer.style printer.level docs)
  | [] => by
    rw [printAll, renderAll]
    exact .answer _
  | doc :: docs => by
    rw [printAll, renderAll]
    exact (print_answers printer doc).bind ((printAll_answers printer docs).bind (.answer _))

end

end Doc

end Layout

namespace Syntax

open Layout (Doc Style Printer Print)
open Layout.Print (Answers)
open Text (deleteBlanks deleteBlanks_append IndentsBlank)

namespace Decl

mutual

/-- The work of printing a declaration, each line behind its margin. -/
def print : Located Decl → Print String
  | ⟨d, _⟩ => printNode d

def printNode : Decl → Print String
  | function as f gs ps r ts ds e => do
    let outer ← Print.margin
    let (inner, locals, body) ← Print.deeper do
      let inner ← Print.margin
      let locals ← printLocals ds
      let body ← (Expr.doc Expr.loosest e).print
      return (inner, locals, body)
    return outer ++ header as f gs ps r ts ++ " \x7b\n" ++ locals ++ inner ++ "return " ++ body ++ "\n" ++
      outer ++ "\x7d"
  | typeAlias x t => do
    let outer ← Print.margin
    return outer ++ "type " ++ x ++ " = " ++ TypeExpr.text TypeExpr.loosest t
  | exceptionType t => do
    let outer ← Print.margin
    return outer ++ "exception type = " ++ TypeExpr.text TypeExpr.loosest t
  | exceptionVariant l t => do
    let outer ← Print.margin
    return outer ++ "exception variant " ++ l ++ " : " ++ TypeExpr.text TypeExpr.loosest t

def printLocals : List (Located Decl) → Print String
  | [] => return ""
  | d :: ds => do
    let first ← print d
    let others ← printLocals ds
    return first ++ "\n" ++ others

end

/-- The text of a declaration at a depth, behind its margin. -/
def behindMargin (style : Style) (depth : Nat) (d : Located Decl) : String :=
  style.margin depth ++ (doc d).render style depth

theorem render_localDocs (style : Style) (depth : Nat) (ds : List (Located Decl)) :
    (localDocs ds).render style depth ++ "\n" =
      "\n" ++ String.join (ds.map fun d => behindMargin style depth d ++ "\n") := by
  induction ds with
  | nil => rfl
  | cons d ds ih =>
    have step : (localDocs (d :: ds)).render style depth =
        "\n" ++ behindMargin style depth d ++ (localDocs ds).render style depth := by
      simp only [localDocs, Text.render_append, Doc.render, behindMargin, String.append_assoc]
    rw [step, String.append_assoc, ih, List.map_cons, String.join_cons]
    simp only [String.append_assoc]

/-- The lines of a function: its header, its locals and its body one level deeper, and a brace. -/
theorem behindMargin_function (style : Style) (depth : Nat) (modifiers : List Modifier) (name : String)
    (generics : Option (List String)) (params : List (String × Located TypeExpr))
    (result : Option (Located TypeExpr)) (throws : List (Located TypeExpr)) (locals : List (Located Decl))
    (body : Located Expr) (position : Option Position) :
    behindMargin style depth ⟨function modifiers name generics params result throws locals body, position⟩ =
      style.margin depth ++ header modifiers name generics params result throws ++ " \x7b\n" ++
        String.join (locals.map fun d => behindMargin style (depth + 1) d ++ "\n") ++
        style.margin (depth + 1) ++ "return " ++
        (Expr.doc Expr.loosest body).render style (depth + 1) ++ "\n" ++ style.margin depth ++ "\x7d" := by
  have inside := render_localDocs style (depth + 1) locals
  have newline : ∀ rest : String, (localDocs locals).render style (depth + 1) ++ ("\n" ++ rest) =
      "\n" ++ (String.join (locals.map fun d => behindMargin style (depth + 1) d ++ "\n") ++ rest) := by
    intro rest
    rw [← String.append_assoc, inside, String.append_assoc]
  have brace : " \x7b\n" = " \x7b" ++ "\n" := rfl
  simp only [behindMargin, doc, docNode, Text.render_append, Doc.render, String.append_assoc, newline, brace]

mutual

theorem print_answers (printer : Printer) :
    (d : Located Decl) → Answers (print d) printer (behindMargin printer.style printer.level d)
  | ⟨function as f gs ps r ts ds e, place⟩ => by
    let below : Printer := { printer with level := printer.level + 1 }
    have locals := printLocals_answers below ds
    have body := Doc.print_answers below (Expr.doc Expr.loosest e)
    rw [print, printNode, behindMargin_function]
    have inside : Answers (do
        let inner ← Print.margin
        let locals ← printLocals ds
        let body ← (Expr.doc Expr.loosest e).print
        return (inner, locals, body)) below _ :=
      Answers.margin.bind (locals.bind (body.bind (.answer _)))
    exact Answers.margin.bind (inside.deeper.bind (.answer _))
  | ⟨typeAlias x t, place⟩ => by
    rw [print, printNode, behindMargin, doc, docNode]
    simp only [Text.render_append, Doc.render, ← String.append_assoc]
    exact Answers.margin.bind (.answer _)
  | ⟨exceptionType t, place⟩ => by
    rw [print, printNode, behindMargin, doc, docNode]
    simp only [Text.render_append, Doc.render, ← String.append_assoc]
    exact Answers.margin.bind (.answer _)
  | ⟨exceptionVariant l t, place⟩ => by
    rw [print, printNode, behindMargin, doc, docNode]
    simp only [Text.render_append, Doc.render, ← String.append_assoc]
    exact Answers.margin.bind (.answer _)

theorem printLocals_answers (printer : Printer) : (ds : List (Located Decl)) →
    Answers (printLocals ds) printer
      (String.join (ds.map fun d => behindMargin printer.style printer.level d ++ "\n"))
  | [] => by
    rw [printLocals]
    exact .answer _
  | d :: ds => by
    rw [printLocals, List.map_cons, String.join_cons]
    exact (print_answers printer d).bind ((printLocals_answers printer ds).bind (.answer _))

end

theorem deleteBlanks_behindMargin {style : Style} (blank : IndentsBlank style) (depth : Nat)
    (d : Located Decl) : deleteBlanks (behindMargin style depth d) = (doc d).ink := by
  rw [behindMargin, deleteBlanks_append, Layout.deleteBlanks_margin blank, Doc.deleteBlanks_render blank]
  exact String.empty_append

end Decl

namespace Program

/-- The lines before the declarations. -/
def preamble (p : Located Program) : String :=
  "language core;\n" ++
    String.join (p.node.extensions.map fun names => "extend with " ++ commaSeparated names ++ ";\n")

def printDecls : List (Located Decl) → Print String
  | [] => return ""
  | d :: ds => do
    let first ← Decl.print d
    let others ← printDecls ds
    return "\n" ++ first ++ "\n" ++ others

/-- The work of printing a program. -/
def print (p : Located Program) : Print String := do
  let decls ← printDecls p.node.decls
  return preamble p ++ decls

/-- The text of a program whose declarations stand at a depth. -/
def atDepth (style : Style) (depth : Nat) (p : Located Program) : String :=
  preamble p ++ String.join (p.node.decls.map fun d => "\n" ++ Decl.behindMargin style depth d ++ "\n")

theorem printDecls_answers (printer : Printer) (ds : List (Located Decl)) :
    Answers (printDecls ds) printer
      (String.join (ds.map fun d => "\n" ++ Decl.behindMargin printer.style printer.level d ++ "\n")) := by
  induction ds with
  | nil => exact .answer _
  | cons d ds ih =>
    rw [printDecls, List.map_cons, String.join_cons]
    exact (Decl.print_answers printer d).bind (ih.bind (.answer _))

theorem render_concat (style : Style) (depth : Nat) (docs : List Doc) :
    (Doc.concat docs).render style depth = String.join (docs.map (·.render style depth)) := by
  induction docs with
  | nil => rfl
  | cons first others ih =>
    rw [List.map_cons, String.join_cons, ← ih]
    cases others with
    | nil => exact String.append_empty.symm
    | cons second others => rfl

theorem render_doc (style : Style) (p : Located Program) :
    (doc p).render style 0 = atDepth style 0 p := by
  have line : ∀ d : Located Decl, (("\n" : Doc) ++ Decl.doc d ++ ("\n" : Doc)).render style 0 =
      "\n" ++ Decl.behindMargin style 0 d ++ "\n" := by
    intro d
    have flush : Decl.behindMargin style 0 d = (Decl.doc d).render style 0 := String.empty_append
    rw [flush]
    rfl
  have lines : (p.node.decls.map fun d => ("\n" : Doc) ++ Decl.doc d ++ ("\n" : Doc)).map (·.render style 0) =
      p.node.decls.map fun d => "\n" ++ Decl.behindMargin style 0 d ++ "\n" := by
    rw [List.map_map]
    exact List.map_congr_left fun d _ => line d
  rw [atDepth, ← lines, ← render_concat]
  rfl

theorem deleteBlanks_atDepth {style : Style} (blank : IndentsBlank style) (depth : Nat)
    (p : Located Program) : deleteBlanks (atDepth style depth p) = (doc p).ink := by
  have lines : ∀ ds : List (Located Decl),
      deleteBlanks (String.join (ds.map fun d => "\n" ++ Decl.behindMargin style depth d ++ "\n")) =
        deleteBlanks (String.join (ds.map fun d => "\n" ++ Decl.behindMargin style 0 d ++ "\n")) := by
    intro ds
    induction ds with
    | nil => rfl
    | cons d ds ih =>
      simp only [List.map_cons, String.join_cons, deleteBlanks_append, ih,
        Decl.deleteBlanks_behindMargin blank]
  rw [atDepth, deleteBlanks_append, lines, ← deleteBlanks_append, ← atDepth, ← render_doc,
    Doc.deleteBlanks_render blank]

end Program

namespace Node

/-- The document of a node; `place` is the level of binding that its place asks for. -/
def doc (place : Nat) : Node → Doc
  | type t => .text (TypeExpr.text place t)
  | pattern p => .text (Pattern.text p)
  | expr e => Expr.doc place e
  | decl d => Decl.doc d
  | program p => Program.doc p

/-- The work of printing a node. -/
def print (place : Nat) : Node → Print String
  | type t => return TypeExpr.text place t
  | pattern p => return Pattern.text p
  | expr e => (Expr.doc place e).print
  | decl d => Decl.print d
  | program p => Program.print p

/-- The text that a printer writes. -/
def text (place : Nat) (style : Style) (depth : Nat) : Node → String
  | decl d => Decl.behindMargin style depth d
  | program p => Program.atDepth style depth p
  | n => (n.doc place).render style depth

theorem print_answers (n : Node) (place : Nat) (printer : Printer) :
    Answers (n.print place) printer (n.text place printer.style printer.level) := by
  cases n with
  | type t => exact .answer _
  | pattern p => exact .answer _
  | expr e => exact Doc.print_answers printer (Expr.doc place e)
  | decl d => exact Decl.print_answers printer d
  | program p => exact (Program.printDecls_answers printer p.node.decls).bind (.answer _)

theorem deleteBlanks_text (n : Node) (place : Nat) {style : Style} (blank : IndentsBlank style)
    (depth : Nat) : deleteBlanks (n.text place style depth) = (n.doc place).ink := by
  cases n with
  | decl d => exact Decl.deleteBlanks_behindMargin blank depth d
  | program p => exact Program.deleteBlanks_atDepth blank depth p
  | type t | pattern p | expr e => exact Doc.deleteBlanks_render blank depth _

/-- A new printer writes the document of the node. -/
theorem text_zero (n : Node) (place : Nat) (style : Style) :
    n.text place style 0 = (n.doc place).render style 0 := by
  cases n with
  | decl d => exact String.empty_append
  | program p => exact (Program.render_doc style p).symm
  | type t | pattern p | expr e => rfl

/-- Layout never changes content. With blanks deleted, two printers that indent with blanks write the
same text of a node, whatever their widths and levels. A printer is afterwards as it was before, so it
writes the same text again; and a new printer writes the document of the node. -/
theorem layout_keeps_content (n : Node) (place : Nat) :
    (∀ p q : Printer, IndentsBlank p.style → IndentsBlank q.style →
      deleteBlanks (n.print place p).1 = deleteBlanks (n.print place q).1) ∧
      (∀ p : Printer, (n.print place p).2 = p ∧
        (n.print place (n.print place p).2).1 = (n.print place p).1) ∧
      ∀ style, (n.print place { style }).1 = (n.doc place).render style 0 := by
  have answers := fun printer => n.print_answers place printer
  refine ⟨?_, ?_, ?_⟩
  · intro p q blank blank'
    rw [answers p, answers q]
    exact (n.deleteBlanks_text place blank p.level).trans (n.deleteBlanks_text place blank' q.level).symm
  · intro p
    have kept : (n.print place p).2 = p := by rw [answers p]
    exact ⟨kept, by rw [kept]⟩
  · intro style
    rw [answers]
    exact n.text_zero place style

/-- A choice by a truth value. -/
def innerChoice : Located Expr :=
  ⟨.matching ⟨.var "y", none⟩
    [(⟨.bool true, none⟩, ⟨.var "a", none⟩), (⟨.bool false, none⟩, ⟨.var "b", none⟩)], none⟩

/-- A choice one of whose alternatives holds another choice. -/
def nestedChoice : Located Expr :=
  ⟨.matching ⟨.var "x", none⟩
    [(⟨.inl ⟨.var "y", none⟩, none⟩, innerChoice),
      (⟨.inr ⟨.var "c", none⟩, none⟩, ⟨.var "c", none⟩)], none⟩

/-- A style with tabs that leaves little room. -/
def narrow : Style := ⟨"\t", 45⟩

/-- The choice takes one line in the one style and four in the other, with the same content. -/
theorem choice_keeps_content :
    IndentsBlank {} ∧ IndentsBlank narrow ∧
      ((Node.expr nestedChoice).print 0 {}).1 =
        "match x \x7b inl(y) => match y \x7b true => a | false => b \x7d | inr(c) => c \x7d" ∧
      ((Node.expr nestedChoice).print 0 { style := narrow }).1 =
        "match x \x7b\n\t  inl(y) => match y \x7b true => a | false => b \x7d\n\t| inr(c) => c\n\x7d" ∧
      deleteBlanks ((Node.expr nestedChoice).print 0 {}).1 =
        deleteBlanks ((Node.expr nestedChoice).print 0 { style := narrow }).1 := by
  have spaces : IndentsBlank {} := List.all_eq_true.mp rfl
  have tabs : IndentsBlank narrow := List.all_eq_true.mp rfl
  exact ⟨spaces, tabs, by decide +kernel, by decide +kernel,
    (layout_keeps_content (.expr nestedChoice) 0).1 {} { style := narrow } spaces tabs⟩

end Node

end Syntax
end StellaLang
