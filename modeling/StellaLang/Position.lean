import StellaLang.Log

/-! Places in source text, and values that may carry one. A place is attached at
most once: the first one given stays, and a later one is refused with a warning. -/
namespace StellaLang

/-- A place in a source text. Lines and columns count from one, columns and the
offset in bytes. -/
structure Position where
  line : Nat
  column : Nat
  offset : Nat
deriving DecidableEq, Repr, Inhabited

namespace Position

/-- Shown as a reader of messages wants it, without the offset. -/
def text (p : Position) : String :=
  toString p.line ++ ":" ++ toString p.column

/-- Source order: by line, then column, then offset. -/
def le (p q : Position) : Bool :=
  if p.line ≠ q.line then p.line < q.line
  else if p.column ≠ q.column then p.column < q.column
  else p.offset ≤ q.offset

/-- Ascending source order; equal places keep their order. -/
def sort (ps : List Position) : List Position :=
  ps.mergeSort le

/-- The warning that a node keeps its place. -/
def refused (kept given : Position) : Log.Entry where
  level := .warn
  topic := "stella_syntax::span"
  text := "position " ++ kept.text ++ " already attached, ignoring " ++ given.text

end Position

/-- A value together with the place it was read from, if that is known. -/
structure Located (α : Type) where
  node : α
  position : Option Position := none
deriving Repr, Inhabited

namespace Located

/-- Attaches a place to a value that has none; an earlier place stays. -/
def place (x : Located α) (p : Position) : Located α :=
  { x with position := x.position <|> some p }

/-- What `place` logs: nothing if it attaches the place. -/
def placeLog (x : Located α) (p : Position) : List Log.Entry :=
  (x.position.map (·.refused p)).toList

end Located

end StellaLang
