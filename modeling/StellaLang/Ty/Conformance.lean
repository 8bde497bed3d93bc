import StellaLang.Ty.Substitution

/-! When a value of one type may stand where another type is asked for. In exact mode
that is equality up to wildcards, bound names, the order of fields and the labels
that a variant leaves out. Subtyping adds `Top`, `Bot` and records with more
fields than asked for. -/
namespace StellaLang.Ty

/-- Renames a binder of each of two bodies to one name that is free in neither. -/
def align (b : Ty) (x : String) (c : Ty) (y : String) : Ty × Ty :=
  let fresh := var (Fresh.name "'" (b.freeNames ++ c.freeNames))
  (b.substitute x fresh, c.substitute y fresh)

/-- Aligns pairs of binders, one after the other. -/
def alignAll (xys : List (String × String)) (b c : Ty) : Ty × Ty :=
  xys.foldl (fun (b, c) (x, y) => align b x c y) (b, c)

theorem size_align (b c : Ty) (x y : String) :
    (align b x c y).1.size = b.size ∧ (align b x c y).2.size = c.size :=
  ⟨size_substitute_var .., size_substitute_var ..⟩

theorem size_alignAll (xys : List (String × String)) (b c : Ty) :
    (alignAll xys b c).1.size = b.size ∧ (alignAll xys b c).2.size = c.size := by
  induction xys generalizing b c with
  | nil => exact ⟨rfl, rfl⟩
  | cons xy xys ih =>
    obtain ⟨first, second⟩ := ih (align b xy.1 c xy.2).1 (align b xy.1 c xy.2).2
    exact ⟨first.trans (size_align b c xy.1 xy.2).1, second.trans (size_align b c xy.1 xy.2).2⟩

mutual

/-- Whether a value of type `t` may stand where `u` is asked for. -/
def conforms (subtyping : Bool) (t u : Ty) : Bool :=
  if t.isWildcard || u.isWildcard then true
  else if subtyping && (u.isTop || t.isBottom) then true
  else
    match t, u with
    | bool, bool => true
    | nat, nat => true
    | unit, unit => true
    | top, top => true
    | bottom, bottom => true
    | var x, var y => x == y
    | arrow ps r, arrow qs s => conformsAll subtyping qs ps && conforms subtyping r s
    | forAll xs b, forAll ys c =>
      have := size_alignAll (xs.zip ys) b c
      xs.length == ys.length &&
        conforms subtyping (alignAll (xs.zip ys) b c).1 (alignAll (xs.zip ys) b c).2
    | recursive x b, recursive y c =>
      have := size_align b c x y
      conforms subtyping (align b x c y).1 (align b x c y).2
    | tuple ts, tuple us => conformsAll subtyping ts us
    | sum l r, sum l' r' => conforms subtyping l l' && conforms subtyping r r'
    | record fs, record gs =>
      (subtyping || fs.length == gs.length) && conformsFields subtyping fs gs
    | variant fs, variant gs => conformsAlternatives subtyping fs gs
    | list t, list u => conforms subtyping t u
    | ref t, ref u => conforms subtyping t u && conforms subtyping u t
    | _, _ => false
termination_by t.size + u.size
decreasing_by all_goals (simp only [size]; omega)

/-- Two lists of one length, each type against its partner. -/
def conformsAll (subtyping : Bool) (ts us : List Ty) : Bool :=
  match ts, us with
  | [], [] => true
  | t :: ts, u :: us => conforms subtyping t u && conformsAll subtyping ts us
  | _, _ => false
termination_by sizes ts + sizes us
decreasing_by all_goals (simp only [sizes]; omega)

/-- Every field asked for is there. Of fields with one label the first counts. -/
def conformsFields (subtyping : Bool) (fs gs : List (String × Ty)) : Bool :=
  match gs with
  | [] => true
  | (l, u) :: gs =>
    (match found : fs.lookup l with
      | some t =>
        have := size_lt_of_lookup found
        conforms subtyping t u
      | none => false) &&
      conformsFields subtyping fs gs
termination_by fieldSizes fs + fieldSizes gs
decreasing_by all_goals (simp only [fieldSizes]; omega)

/-- Every alternative there is was asked for. Of alternatives with one label the
first counts. -/
def conformsAlternatives (subtyping : Bool) (fs gs : List (String × Option Ty)) : Bool :=
  match fs with
  | [] => true
  | (l, none) :: fs =>
    (match gs.lookup l with
      | some none => true
      | _ => false) &&
      conformsAlternatives subtyping fs gs
  | (l, some t) :: fs =>
    (match found : gs.lookup l with
      | some (some u) =>
        have := size_lt_of_lookup_alternative found
        conforms subtyping t u
      | _ => false) &&
      conformsAlternatives subtyping fs gs
termination_by alternativeSizes fs + alternativeSizes gs
decreasing_by all_goals (simp only [alternativeSizes]; omega)

end

/-- Subtyping, whatever the mode of the checker. -/
def isSubtypeOf (t u : Ty) : Bool :=
  conforms true t u

/-- Whether a cast from one type to the other can succeed: one of them must be a
subtype of the other. -/
def castableTo (t u : Ty) : Bool :=
  t.isSubtypeOf u || u.isSubtypeOf t

end StellaLang.Ty
