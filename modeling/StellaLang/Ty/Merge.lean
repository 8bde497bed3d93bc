import StellaLang.Ty.Basic

/-! The union of what two types say about one value: each fills the wildcards of the
other, and two variants together list the labels of both. -/
namespace StellaLang.Ty

/-- The alternatives of the first list, then those of the second whose labels are
new. -/
def mergeAlternatives (fs gs : List (String × Option Ty)) : List (String × Option Ty) :=
  gs.foldl (fun merged g => if merged.any (·.1 == g.1) then merged else merged ++ [g]) fs

mutual

/-- `error` swallows everything, and where the two types disagree the first one
stays. -/
def merge (t u : Ty) : Ty :=
  if t.isError || u.isError then error
  else if t.isWildcard then u
  else if u.isWildcard then t
  else
    match t, u with
    | sum l r, sum l' r' => sum (merge l l') (merge r r')
    | list t, list u => list (merge t u)
    | ref t, ref u => ref (merge t u)
    | tuple ts, tuple us => if ts.length = us.length then tuple (mergeAll ts us) else tuple ts
    | arrow ps r, arrow qs s =>
      if ps.length = qs.length then arrow (mergeAll ps qs) (merge r s) else arrow ps r
    | variant fs, variant gs => variant (mergeAlternatives fs gs)
    | t, _ => t
termination_by structural t

def mergeAll (ts us : List Ty) : List Ty :=
  match ts, us with
  | t :: ts, u :: us => merge t u :: mergeAll ts us
  | _, _ => []
termination_by structural ts

end

end StellaLang.Ty
