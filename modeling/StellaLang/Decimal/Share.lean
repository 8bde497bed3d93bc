/-! A share of a whole as a decimal text. The share is first rounded to a number of
53 significant binary digits and then to six decimals, ties to the even
neighbour both times. -/
namespace StellaLang.Decimal

/-- The integer nearest to a quotient; a tie goes to the even neighbour. -/
def roundDiv (num den : Nat) : Nat :=
  let q := num / den
  let r := num % den
  if 2 * r < den then q
  else if den < 2 * r then q + 1
  else q + q % 2

/-- The number of binary places at which a quotient of positive numbers has 53
significant digits. -/
def binaryPlaces (num den : Nat) : Nat :=
  let places := 52 + den.log2 - num.log2
  if num <<< places < den <<< 52 then places + 1 else places

/-- A count of millionths as a text with six decimals. -/
def millionths (n : Nat) : String :=
  let digits := toString (n % 1000000)
  toString (n / 1000000) ++ "." ++ String.ofList (List.replicate (6 - digits.length) '0') ++ digits

/-- The share that `part` is of `whole`, zero if there is no whole. A part is
never more than its whole. -/
def share (part whole : Nat) : String :=
  if part = 0 ∨ whole = 0 then millionths 0
  else
    let places := binaryPlaces part whole
    millionths (roundDiv (roundDiv (part <<< places) whole * 1000000) (1 <<< places))

end StellaLang.Decimal
