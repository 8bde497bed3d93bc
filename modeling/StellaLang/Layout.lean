/-! Text with indentation and optional line breaks. A `Doc` says what is written;
a `Style` and a depth decide where its lines break. -/
namespace StellaLang.Layout

structure Style where
  /-- Written once for each level of depth. -/
  indent : String := "  "
  /-- The number of bytes that alternatives side by side may take. -/
  width : Nat := 80
deriving DecidableEq, Repr

/-- The blanks at the beginning of a line. -/
def Style.margin (style : Style) (depth : Nat) : String :=
  String.join (List.replicate depth style.indent)

inductive Doc where
  | text (s : String)
  | append (first second : Doc)
  /-- A new line at the depth of its surroundings. -/
  | line
  /-- One level deeper. -/
  | nest (doc : Doc)
  /-- A head and alternatives in braces, which stand side by side if they fit. -/
  | alternatives (head : Doc) (cases : List Doc)

namespace Doc

instance : Inhabited Doc := ⟨.text ""⟩
instance : Append Doc := ⟨.append⟩
instance : Coe String Doc := ⟨.text⟩

def concat : List Doc → Doc
  | [] => text ""
  | [doc] => doc
  | doc :: docs => doc ++ concat docs

/-- The parts with a separator between neighbours. -/
def join (separator : String) : List Doc → Doc
  | [] => text ""
  | [doc] => doc
  | doc :: docs => doc ++ text separator ++ join separator docs

def parenthesize (doc : Doc) : Doc :=
  text "(" ++ doc ++ text ")"

/-- Alternatives side by side. -/
def flat (head : String) (cases : List String) : String :=
  head ++ " \x7b " ++ String.intercalate " | " cases ++ " \x7d"

/-- Alternatives one below the other, behind a margin of their own. -/
def stacked (head outer inner : String) : List String → String
  | [] => head ++ " \x7b\n" ++ outer ++ "\x7d"
  | first :: others =>
    head ++ " \x7b\n" ++ inner ++ "  " ++ first ++ "\n" ++
      String.join (others.map fun other => inner ++ "| " ++ other ++ "\n") ++ outer ++ "\x7d"

mutual

/-- The text at a depth. Alternatives are stacked if there are at least two and
they and their margin take more bytes than the style allows. -/
def render (style : Style) (depth : Nat) : Doc → String
  | text s => s
  | append first second => first.render style depth ++ second.render style depth
  | line => "\n" ++ style.margin depth
  | nest doc => doc.render style (depth + 1)
  | alternatives head cases =>
    let head := head.render style depth
    let cases := renderAll style (depth + 1) cases
    let margin := style.margin (depth + 1)
    let side := flat head cases
    if side.utf8ByteSize + margin.utf8ByteSize ≤ style.width ∨ cases.length < 2 then side
    else stacked head (style.margin depth) margin cases

def renderAll (style : Style) (depth : Nat) : List Doc → List String
  | [] => []
  | doc :: docs => doc.render style depth :: renderAll style depth docs

end

end Doc

end StellaLang.Layout
