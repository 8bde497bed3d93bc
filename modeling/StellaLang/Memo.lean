import StellaLang.Decimal.Share

/-! Tables of results by key, which count how often they were asked and knew the
answer. Keys are told apart by `==`, so a table keyed by syntax treats equal
trees as one key wherever they stand. -/
namespace StellaLang

structure Memo (κ ν : Type) where
  /-- No two entries have equal keys. -/
  entries : List (κ × ν) := []
  hits : Nat := 0
  misses : Nat := 0

namespace Memo

structure Stats where
  hits : Nat
  misses : Nat
  entries : Nat
deriving DecidableEq, Repr

/-- The share of the questions that the table could answer. -/
def Stats.hitRate (stats : Stats) : String :=
  Decimal.share stats.hits (stats.hits + stats.misses)

variable [BEq κ]

/-- The value for a key, without counting the question. -/
def get? (memo : Memo κ ν) (key : κ) : Option ν :=
  (memo.entries.find? fun entry => entry.1 == key).map (·.2)

def contains (memo : Memo κ ν) (key : κ) : Bool :=
  (memo.get? key).isSome

/-- Counts a question about a key as a hit or a miss. -/
def count (memo : Memo κ ν) (key : κ) : Memo κ ν :=
  if memo.contains key then { memo with hits := memo.hits + 1 }
  else { memo with misses := memo.misses + 1 }

/-- The value for a key; the question is counted. -/
def lookup (memo : Memo κ ν) (key : κ) : Option ν × Memo κ ν :=
  (memo.get? key, memo.count key)

/-- Sets the value of a key. -/
def put (memo : Memo κ ν) (key : κ) (value : ν) : Memo κ ν :=
  if memo.contains key then
    { memo with
      entries := memo.entries.map fun entry => if entry.1 == key then (entry.1, value) else entry }
  else { memo with entries := memo.entries ++ [(key, value)] }

/-- Sets the value of a key; the answer is the value it had. Not counted. -/
def insert (memo : Memo κ ν) (key : κ) (value : ν) : Option ν × Memo κ ν :=
  (memo.get? key, memo.put key value)

/-- The value for a key, computed and stored if there is none, with whether it
was computed. The question is counted. -/
def getOrInsert (memo : Memo κ ν) (key : κ) (compute : Unit → ν) : (ν × Bool) × Memo κ ν :=
  match memo.get? key with
  | some value => ((value, false), memo.count key)
  | none =>
    let value := compute ()
    ((value, true), (memo.count key).put key value)

def size (memo : Memo κ ν) : Nat :=
  memo.entries.length

def isEmpty (memo : Memo κ ν) : Bool :=
  memo.entries.isEmpty

/-- Forgets all entries and all counts. -/
def clear (_ : Memo κ ν) : Memo κ ν :=
  {}

def stats (memo : Memo κ ν) : Stats where
  hits := memo.hits
  misses := memo.misses
  entries := memo.size

end Memo

end StellaLang
