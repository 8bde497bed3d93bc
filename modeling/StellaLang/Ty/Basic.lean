/-! Types as the checker computes with them. Aliases are resolved here, and three
wildcards stand for parts that are not known or not worth another complaint. -/
namespace StellaLang

inductive Ty where
  | bool
  | nat
  | unit
  /-- The supertype of every type under structural subtyping. -/
  | top
  /-- The subtype of every type under structural subtyping. -/
  | bottom
  | var (name : String)
  | arrow (params : List Ty) (result : Ty)
  | forAll (vars : List String) (body : Ty)
  | tuple (elements : List Ty)
  | sum (left right : Ty)
  | record (fields : List (String × Ty))
  | variant (fields : List (String × Option Ty))
  | list (element : Ty)
  | ref (referent : Ty)
  | recursive (var : String) (body : Ty)
  /-- The type of what never yields a value. -/
  | never
  /-- A part of a type that nothing has fixed. -/
  | unknown
  /-- The type of what has been complained about. -/
  | error

instance : Inhabited Ty := ⟨.unknown⟩

namespace Ty

def isError : Ty → Bool
  | error => true
  | _ => false

/-- Wildcards fit every type. -/
def isWildcard : Ty → Bool
  | never | unknown | error => true
  | _ => false

def isTop : Ty → Bool
  | top => true
  | _ => false

def isBottom : Ty → Bool
  | bottom => true
  | _ => false

def isVar : Ty → Bool
  | var _ => true
  | _ => false

def isBool : Ty → Bool
  | bool => true
  | _ => false

mutual

/-- The number of constructors, list cells and bound names. -/
def size : Ty → Nat
  | arrow ps r => sizes ps + r.size + 1
  | forAll xs b => b.size + xs.length + 2
  | tuple ts => sizes ts + 1
  | sum l r => l.size + r.size + 1
  | record fs => fieldSizes fs + 1
  | variant fs => alternativeSizes fs + 1
  | list t => t.size + 1
  | ref t => t.size + 1
  | recursive _ b => b.size + 1
  | bool | nat | unit | top | bottom | var _ | never | unknown | error => 1

def sizes : List Ty → Nat
  | [] => 0
  | t :: ts => t.size + sizes ts + 1

def fieldSizes : List (String × Ty) → Nat
  | [] => 0
  | (_, t) :: fs => t.size + fieldSizes fs + 1

def alternativeSizes : List (String × Option Ty) → Nat
  | [] => 0
  | (_, none) :: fs => alternativeSizes fs + 1
  | (_, some t) :: fs => t.size + alternativeSizes fs + 1

end

theorem size_lt_of_getElem? {ts : List Ty} {column : Nat} {t : Ty} (h : ts[column]? = some t) :
    t.size < sizes ts := by
  induction ts generalizing column with
  | nil => simp at h
  | cons u ts ih =>
    cases column with
    | zero => simp at h; subst h; simp only [sizes]; omega
    | succ column =>
      have := ih (by simpa using h)
      simp only [sizes]; omega

theorem sizes_eraseIdx_lt {ts : List Ty} {column : Nat} {t : Ty} (h : ts[column]? = some t) :
    sizes (ts.eraseIdx column) < sizes ts := by
  induction ts generalizing column with
  | nil => simp at h
  | cons u ts ih =>
    cases column with
    | zero => simp only [List.eraseIdx_cons_zero, sizes]; omega
    | succ column =>
      have := ih (by simpa using h)
      simp only [List.eraseIdx_cons_succ, sizes]; omega

theorem sizes_map_snd (fs : List (String × Ty)) : sizes (fs.map (·.2)) = fieldSizes fs := by
  induction fs with
  | nil => rfl
  | cons f fs ih => simp only [List.map_cons, sizes, fieldSizes, ih]

theorem size_lt_of_lookup {fs : List (String × Ty)} {l : String} {t : Ty}
    (h : fs.lookup l = some t) : t.size < fieldSizes fs := by
  induction fs with
  | nil => simp at h
  | cons f fs ih =>
    obtain ⟨m, u⟩ := f
    simp only [List.lookup_cons] at h
    simp only [fieldSizes]
    split at h
    · cases h; omega
    · have := ih h; omega

theorem size_lt_of_lookup_alternative {fs : List (String × Option Ty)} {l : String} {t : Ty}
    (h : fs.lookup l = some (some t)) : t.size < alternativeSizes fs := by
  induction fs with
  | nil => simp at h
  | cons f fs ih =>
    obtain ⟨m, u⟩ := f
    simp only [List.lookup_cons] at h
    split at h
    · cases h; simp only [alternativeSizes]; omega
    · have := ih h
      cases u <;> simp only [alternativeSizes] <;> omega

mutual

/-- The type variables that occur free, from left to right, with repetitions. -/
def freeNames : Ty → List String
  | var x => [x]
  | arrow ps r => freeNamesAll ps ++ r.freeNames
  | forAll xs b => b.freeNames.filter (· ∉ xs)
  | tuple ts => freeNamesAll ts
  | sum l r => l.freeNames ++ r.freeNames
  | record fs => freeNamesFields fs
  | variant fs => freeNamesAlternatives fs
  | list t => t.freeNames
  | ref t => t.freeNames
  | recursive x b => b.freeNames.filter (· ≠ x)
  | bool | nat | unit | top | bottom | never | unknown | error => []

def freeNamesAll : List Ty → List String
  | [] => []
  | t :: ts => t.freeNames ++ freeNamesAll ts

def freeNamesFields : List (String × Ty) → List String
  | [] => []
  | (_, t) :: fs => t.freeNames ++ freeNamesFields fs

def freeNamesAlternatives : List (String × Option Ty) → List String
  | [] => []
  | (_, none) :: fs => freeNamesAlternatives fs
  | (_, some t) :: fs => t.freeNames ++ freeNamesAlternatives fs

end

/-- Whether a type variable occurs free. -/
def mentions (t : Ty) (x : String) : Bool :=
  t.freeNames.contains x

end Ty

end StellaLang
