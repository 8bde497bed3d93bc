import StellaLang.Text.Lines
import StellaLang.Typing.Fault

/-! Reports for a reader: what is wrong, where, the source line with a caret under the
column, and what may help. -/
namespace StellaLang

open Typing (Fault TypeError)

inductive Severity where
  | error
  | warning
  | note
  | help
deriving DecidableEq, Repr, Inhabited

namespace Severity

def name : Severity → String
  | error => "error"
  | warning => "warning"
  | note => "note"
  | help => "help"

/-- The terminal sequence that switches to the color of a severity. -/
def color : Severity → String
  | error => "\x1b[31m"
  | warning => "\x1b[33m"
  | note => "\x1b[36m"
  | help => "\x1b[32m"

/-- A text in the color of a severity, if colors are wanted. -/
def paint (severity : Severity) (colored : Bool) (s : String) : String :=
  if colored then severity.color ++ s ++ Log.resetColor else s

def label (severity : Severity) (colored : Bool) : String :=
  severity.paint colored severity.name

end Severity

structure Diagnostic where
  severity : Severity
  message : String
  position : Option Position := none
  code : Option String := none
  suggestions : List String := []
  notes : List String := []

namespace Diagnostic

def withCode (d : Diagnostic) (code : String) : Diagnostic :=
  { d with code := some code }

def suggest (d : Diagnostic) (suggestion : String) : Diagnostic :=
  { d with suggestions := d.suggestions ++ [suggestion] }

def remark (d : Diagnostic) (note : String) : Diagnostic :=
  { d with notes := d.notes ++ [note] }

def adviseOn (fault : Fault) (d : Diagnostic) : Diagnostic :=
  match fault with
  | .ambiguousType => d.suggest "add a type ascription"
  | .exceptionTypeNotDeclared => d.suggest "declare one with `exception type = <type>`"
  | .missingMain => d.suggest "add `fn main(n : Nat) -> Nat`"
  | .illegalCast .. => d.remark "casts require the types to be related by subtyping"
  | _ => d

/-- The report of a type error, with advice for some kinds of fault. -/
def ofError (error : TypeError) : Diagnostic :=
  adviseOn error.fault
    { severity := .error
      message := error.fault.message
      position := error.position
      code := some error.fault.code }

def spaces (n : Nat) : String :=
  .ofList (List.replicate n ' ')

/-- A number, right-aligned in four columns. -/
def gutter (n : Nat) : String :=
  spaces (4 - (toString n).length) ++ toString n

/-- The line of a place and below it a caret under the column. Nothing if the source
has no such line; line zero is taken for the first. -/
def excerpt (severity : Severity) (colored : Bool) (p : Position) (source : String) : String :=
  match (Text.lines source)[p.line - 1]? with
  | none => ""
  | some line =>
    gutter p.line ++ " | " ++ line ++ "\n" ++
      "     | " ++ spaces (p.column - 1) ++ severity.paint colored "^" ++ "\n"

def render (colored : Bool) (d : Diagnostic) (source : String) : String :=
  let place := d.position.elim "" fun p => p.text ++ ": "
  let advice (severity : Severity) (s : String) :=
    "   " ++ severity.label colored ++ ": " ++ s ++ "\n"
  place ++ d.severity.label colored ++ ": " ++ d.message ++ "\n" ++
    d.code.elim "" (fun code => "   [" ++ code ++ "]\n") ++
    d.position.elim "" (fun p => excerpt d.severity colored p source) ++
    String.join (d.suggestions.map (advice .help)) ++
    String.join (d.notes.map (advice .note))

/-- The reports of some errors, one after the other. -/
def renderErrors (colored : Bool) (errors : List TypeError) (source : String) : String :=
  String.join (errors.map fun error => (ofError error).render colored source)

end Diagnostic

end StellaLang
