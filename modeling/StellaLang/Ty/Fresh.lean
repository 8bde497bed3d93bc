/-! Names that are not in use: a base name with the first number that makes it new. -/
namespace StellaLang.Fresh

/-- The candidates for a base name, numbered from one. -/
def candidate (base : String) (n : Nat) : String :=
  base ++ toString n

/-- The first candidate from number `n` on that is not to be avoided, among as many
as the fuel allows and one more. -/
def search (base : String) (avoid : List String) : Nat → Nat → String
  | 0, n => candidate base n
  | fuel + 1, n =>
    if candidate base n ∈ avoid then search base avoid fuel (n + 1) else candidate base n

/-- The first candidate that is not to be avoided. One candidate more than there are
names to avoid is always enough. -/
def name (base : String) (avoid : List String) : String :=
  search base avoid avoid.length 1

end StellaLang.Fresh
