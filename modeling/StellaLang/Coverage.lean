import StellaLang.Coverage.Nat
import StellaLang.Ty.Basic

/-! Whether the cases of a match cover its type. The answer is a list of gaps, empty if
the cases are known to cover the type. -/
namespace StellaLang.Coverage

open Syntax (Pattern)

/-- A pattern for a product, one cell for each column. An empty cell asks nothing. -/
abbrev Row := List (Option (Located Pattern))

namespace Row

def cell (row : Row) (column : Nat) : Option (Located Pattern) :=
  row.getD column none

/-- The columns of a tuple pattern, if it has as many as its type. -/
def ofTuple? (width : Nat) (p : Located Pattern) : Option Row :=
  match Pattern.strip p with
  | .tuple ps => if ps.length = width then some (ps.map some) else none
  | _ => none

/-- The columns of a record pattern, in the order of the labels of its type. Of fields
with one label the first counts. -/
def ofRecord? (labels : List String) (p : Located Pattern) : Option Row :=
  match Pattern.strip p with
  | .record fs => some (labels.map fun l => fs.lookup l)
  | _ => none

/-- Whether the cell of a column may fail to match. -/
def isRefutableAt (row : Row) (column : Nat) : Bool :=
  (row.cell column).any (!Pattern.isIrrefutable ·)

/-- Whether the row can match when a column holds a given truth value. -/
def admits (row : Row) (column : Nat) (value : Bool) : Bool :=
  (row.cell column).all fun p =>
    match Pattern.bool? p with
    | some b => b == value
    | none => Pattern.isIrrefutable p

end Row

/-- The columns in which some row may fail to match. -/
def refutableColumns (width : Nat) (rows : List Row) : List Nat :=
  (List.range width).filter fun column => rows.any (·.isRefutableAt column)

/-- A row that stands for all rows. -/
def anyRow (width : Nat) : List Gap :=
  List.replicate width .any

def missingBool (patterns : List (Located Pattern)) : List Gap :=
  let literals := patterns.filterMap Pattern.bool?
  (if literals.contains true then [] else [.bool true]) ++
    (if literals.contains false then [] else [.bool false])

/-- Lists are told apart by being empty or not, and no further. -/
def missingList (patterns : List (Located Pattern)) : List Gap :=
  (if patterns.any Pattern.isNil then [] else [.nil]) ++
    (if patterns.any Pattern.isAnyCons then [] else [.cons])

mutual

/-- The values of a type that none of the patterns match. -/
def missing (t : Ty) (patterns : List (Located Pattern)) : List Gap :=
  if t.isWildcard || patterns.any Pattern.isIrrefutable then []
  else
    match t with
    | .bool => missingBool patterns
    | .unit => [.unit]
    | .nat => missingNat patterns
    | .list _ => missingList patterns
    | .sum l r =>
      let left := patterns.filterMap Pattern.inl?
      let right := patterns.filterMap Pattern.inr?
      (if left.isEmpty then [.inl .any] else (missing l left).map .inl) ++
        (if right.isEmpty then [.inr .any] else (missing r right).map .inr)
    | .variant fs => missingAlternatives fs patterns
    | .tuple ts => (missingRows ts (patterns.filterMap (Row.ofTuple? ts.length))).map .tuple
    | .record fs =>
      have := Ty.sizes_map_snd fs
      let labels := fs.map (·.1)
      (missingRows (fs.map (·.2)) (patterns.filterMap (Row.ofRecord? labels))).map fun row =>
        .record (labels.zip row)
    | _ => [.any]
termination_by t.size
decreasing_by all_goals (simp only [Ty.size]; omega)

/-- The same for the alternatives of a variant, one after the other. -/
def missingAlternatives (fs : List (String × Option Ty)) (patterns : List (Located Pattern)) :
    List Gap :=
  match fs with
  | [] => []
  | (l, none) :: fs =>
    (if (patterns.filterMap (Pattern.payload? l)).isEmpty then [.variant l none] else []) ++
      missingAlternatives fs patterns
  | (l, some t) :: fs =>
    let payloads := patterns.filterMap (Pattern.payload? l)
    let inner := payloads.filterMap id
    (if payloads.isEmpty then [.variant l (some .any)]
      else if inner.isEmpty then []
      else (missing t inner).map fun g => .variant l (some g)) ++
      missingAlternatives fs patterns
termination_by Ty.alternativeSizes fs
decreasing_by all_goals (simp only [Ty.alternativeSizes]; omega)

/-- The products that no row matches, a gap for each column. One refutable column is
looked into. Of several, the first is split if it holds truth values; otherwise
the rows are taken not to cover the product. -/
def missingRows (ts : List Ty) (rows : List Row) : List (List Gap) :=
  if rows.isEmpty then [anyRow ts.length]
  else
    match refutableColumns ts.length rows with
    | [] => []
    | [column] =>
      match found : ts[column]? with
      | none => []
      | some t =>
        have := Ty.size_lt_of_getElem? found
        if rows.any fun row => (row.cell column).isNone then []
        else (missing t (rows.filterMap (·.cell column))).map fun g => (anyRow ts.length).set column g
    | column :: _ =>
      match found : ts[column]? with
      | none => []
      | some t =>
        have := Ty.sizes_eraseIdx_lt found
        if t.isBool then
          [true, false].flatMap fun value =>
            (missingRows (ts.eraseIdx column)
              ((rows.filter (·.admits column value)).map (·.eraseIdx column))).map
                (·.insertIdx column (.bool value))
        else [anyRow ts.length]
termination_by Ty.sizes ts
decreasing_by all_goals omega

end

end StellaLang.Coverage
