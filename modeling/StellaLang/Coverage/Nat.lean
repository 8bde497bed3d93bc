import StellaLang.Coverage.Gap
import StellaLang.Coverage.Pattern

/-! Numbers that no pattern matches. A pattern for numbers matches one number or all
from some number on. -/
namespace StellaLang.Coverage

open Syntax (Pattern)

/-- The largest number that a literal holds. Counting stops there. -/
def maxLiteral : Nat := UInt64.size - 1

/-- The next number, the largest one being its own successor. -/
def nextNumber (n : Nat) : Nat :=
  min (n + 1) maxLiteral

/-- The numbers a pattern matches. -/
inductive NatShape where
  | exactly (n : Nat)
  | atLeast (n : Nat)
deriving DecidableEq, Repr

namespace NatShape

def succ : NatShape → NatShape
  | exactly n => exactly (nextNumber n)
  | atLeast n => atLeast (nextNumber n)

/-- The numbers a pattern matches, if it is a pattern for numbers. -/
def of? : Located Pattern → Option NatShape
  | ⟨p, _⟩ => ofNode? p
where
  ofNode? : Pattern → Option NatShape
    | .ascribed p _ => of? p
    | .nat n => some (exactly n)
    | .succ p => (of? p).map succ
    | p => if p.isIrrefutableNode then some (atLeast 0) else none

def literal? : NatShape → Option Nat
  | exactly n => some n
  | atLeast _ => none

def threshold? : NatShape → Option Nat
  | exactly _ => none
  | atLeast n => some n

end NatShape

/-- As many single numbers are named as missing, at the most. -/
def natWitnesses : Nat := 3

/-- The first numbers below a limit that are not in a list. Only so many candidates
are looked at that those in the list cannot use them up. -/
def firstAbsent (present : List Nat) (limit : Nat) : List Nat :=
  ((List.range (min limit (present.length + natWitnesses))).filter (· ∉ present)).take natWitnesses

/-- The numbers that none of the patterns match: below the least number from which a
pattern takes all on, or else below the first number past all literals and from
there on. -/
def missingNat (patterns : List (Located Pattern)) : List Gap :=
  let shapes := patterns.filterMap NatShape.of?
  let exact := shapes.filterMap NatShape.literal?
  match (shapes.filterMap NatShape.threshold?).min? with
  | some threshold => (firstAbsent exact threshold).map Gap.nat
  | none =>
    let limit := exact.max?.elim 0 nextNumber
    (firstAbsent exact limit).map Gap.nat ++ [Gap.natFrom limit]

end StellaLang.Coverage
