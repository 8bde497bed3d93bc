import StellaLang.Text.Blank

/-! Leveled logging. A message is an `Entry`; a `Logger` decides which entries
are written and how a written line looks. Entries are data, so a computation
returns what it logs and its caller writes it. -/
namespace StellaLang.Log

/-- From the most severe level to the most verbose. -/
inductive Level where
  | error
  | warn
  | info
  | debug
  | trace
deriving DecidableEq, Repr, Inhabited

namespace Level

def all : List Level :=
  [.error, .warn, .info, .debug, .trace]

/-- How verbose a level is: zero for the most severe. -/
def rank : Level → Nat
  | .error => 0
  | .warn => 1
  | .info => 2
  | .debug => 3
  | .trace => 4

def name : Level → String
  | .error => "ERROR"
  | .warn => "WARN"
  | .info => "INFO"
  | .debug => "DEBUG"
  | .trace => "TRACE"

/-- The terminal sequence that switches to the level's color. -/
def color : Level → String
  | .error => "\x1b[31m"
  | .warn => "\x1b[33m"
  | .info => "\x1b[32m"
  | .debug => "\x1b[36m"
  | .trace => "\x1b[35m"

/-- A level is named by its name in any case, with blanks around it allowed. -/
def parse? (s : String) : Option Level :=
  all.find? fun level => Text.sameIgnoringCase level.name (Text.trim s)

/-- The complaint about a text that names no level. -/
def parseMessage (s : String) : String :=
  "invalid log level '" ++ Text.trim s ++ "' (expected error, warn, info, debug or trace)"

/-- Most severe first; equal levels keep their order. -/
def sort (levels : List Level) : List Level :=
  levels.mergeSort fun a b => a.rank ≤ b.rank

end Level

/-- The terminal sequence that ends a color. -/
def resetColor : String := "\x1b[0m"

/-- One message, before any logger has decided on it. -/
structure Entry where
  level : Level
  /-- The part of the program the message comes from. -/
  topic : String
  text : String
deriving DecidableEq, Repr

structure Logger where
  /-- The most verbose level still written. -/
  level : Level := .warn
  colored : Bool := true
deriving DecidableEq, Repr

namespace Logger

def enabled (logger : Logger) (level : Level) : Bool :=
  level.rank ≤ logger.level.rank

/-- The line for an entry, whether or not its level is enabled. -/
def line (logger : Logger) (entry : Entry) : String :=
  let tag := "[" ++ entry.level.name ++ "]"
  let shown := if logger.colored then entry.level.color ++ tag ++ resetColor else tag
  shown ++ " " ++ entry.topic ++ ": " ++ entry.text ++ "\n"

/-- All that is written for some entries, in their order. -/
def write (logger : Logger) (entries : List Entry) : String :=
  String.join ((entries.filter (logger.enabled ·.level)).map logger.line)

/-- Takes the level from the value of a setting, if there is one. The word `off`
keeps only errors; a value that names no level changes nothing and is the error. -/
def configure (logger : Logger) : Option String → Except String Logger
  | none => .ok logger
  | some value =>
    if Text.sameIgnoringCase (Text.trim value) "off" then .ok { logger with level := .error }
    else match Level.parse? value with
      | some level => .ok { logger with level }
      | none => .error (Level.parseMessage value)

end Logger

end StellaLang.Log
