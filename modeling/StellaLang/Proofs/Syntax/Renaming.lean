import Mathlib.Logic.Basic
import StellaLang.Coverage.Pattern
import StellaLang.Syntax.Node

/-! Another name for a type variable in the annotations of a program. Only free occurrences are
renamed: a binder of the name, in a type or of a generic expression, ends its scope. -/
namespace StellaLang.Syntax

namespace TypeExpr

mutual

def rename (x y : String) : Located TypeExpr → Located TypeExpr
  | ⟨t, position⟩ => ⟨renameNode x y t, position⟩

def renameNode (x y : String) : TypeExpr → TypeExpr
  | var z => var (if z = x then y else z)
  | arrow ps r => arrow (renameAll x y ps) (rename x y r)
  | forAll zs b => forAll zs (if x ∈ zs then b else rename x y b)
  | recursive z b => recursive z (if z = x then b else rename x y b)
  | sum l r => sum (rename x y l) (rename x y r)
  | tuple ts => tuple (renameAll x y ts)
  | record fs => record (renameFields x y fs)
  | variant fs => variant (renameAlternatives x y fs)
  | list t => list (rename x y t)
  | ref t => ref (rename x y t)
  | auto => auto
  | bool => bool
  | nat => nat
  | unit => unit
  | top => top
  | bottom => bottom

def renameAll (x y : String) : List (Located TypeExpr) → List (Located TypeExpr)
  | [] => []
  | t :: ts => rename x y t :: renameAll x y ts

def renameFields (x y : String) : List (String × Located TypeExpr) → List (String × Located TypeExpr)
  | [] => []
  | (l, t) :: fs => (l, rename x y t) :: renameFields x y fs

def renameAlternatives (x y : String) :
    List (String × Option (Located TypeExpr)) → List (String × Option (Located TypeExpr))
  | [] => []
  | (l, none) :: fs => (l, none) :: renameAlternatives x y fs
  | (l, some t) :: fs => (l, some (rename x y t)) :: renameAlternatives x y fs

end

end TypeExpr

namespace Pattern

mutual

def rename (x y : String) : Located Pattern → Located Pattern
  | ⟨p, position⟩ => ⟨renameNode x y p, position⟩

def renameNode (x y : String) : Pattern → Pattern
  | castAs p t => castAs (rename x y p) (TypeExpr.rename x y t)
  | ascribed p t => ascribed (rename x y p) (TypeExpr.rename x y t)
  | variant l none => variant l none
  | variant l (some p) => variant l (some (rename x y p))
  | inl p => inl (rename x y p)
  | inr p => inr (rename x y p)
  | tuple ps => tuple (renameAll x y ps)
  | record fs => record (renameFields x y fs)
  | list ps => list (renameAll x y ps)
  | cons h t => cons (rename x y h) (rename x y t)
  | succ p => succ (rename x y p)
  | bool b => bool b
  | unit => unit
  | nat n => nat n
  | var z => var z

def renameAll (x y : String) : List (Located Pattern) → List (Located Pattern)
  | [] => []
  | p :: ps => rename x y p :: renameAll x y ps

def renameFields (x y : String) : List (String × Located Pattern) → List (String × Located Pattern)
  | [] => []
  | (l, p) :: fs => (l, rename x y p) :: renameFields x y fs

end

end Pattern

namespace Expr

mutual

def rename (x y : String) : Located Expr → Located Expr
  | ⟨e, position⟩ => ⟨renameNode x y e, position⟩

def renameNode (x y : String) : Expr → Expr
  | sequence a b => sequence (rename x y a) (rename x y b)
  | assign a b => assign (rename x y a) (rename x y b)
  | cond a b c => cond (rename x y a) (rename x y b) (rename x y c)
  | letIn bs e => letIn (renameBindings x y bs) (rename x y e)
  | letRec bs e => letRec (renameBindings x y bs) (rename x y e)
  | typeAbstraction zs e => typeAbstraction zs (if x ∈ zs then e else rename x y e)
  | binary op a b => binary op (rename x y a) (rename x y b)
  | ascribe e t => ascribe (rename x y e) (TypeExpr.rename x y t)
  | cast e t => cast (rename x y e) (TypeExpr.rename x y t)
  | abstraction ps e => abstraction (TypeExpr.renameFields x y ps) (rename x y e)
  | variant l none => variant l none
  | variant l (some e) => variant l (some (rename x y e))
  | matching e cs => matching (rename x y e) (renameBindings x y cs)
  | list es => list (renameAll x y es)
  | unary op e => unary op (rename x y e)
  | application e es => application (rename x y e) (renameAll x y es)
  | typeApplication e ts => typeApplication (rename x y e) (TypeExpr.renameAll x y ts)
  | field e l => field (rename x y e) l
  | component e i => component (rename x y e) i
  | tuple es => tuple (renameAll x y es)
  | record fs => record (renameFields x y fs)
  | cons h t => cons (rename x y h) (rename x y t)
  | tryCatch e p h => tryCatch (rename x y e) (Pattern.rename x y p) (rename x y h)
  | tryWith a b => tryWith (rename x y a) (rename x y b)
  | tryCast e t p a b =>
    tryCast (rename x y e) (TypeExpr.rename x y t) (Pattern.rename x y p) (rename x y a) (rename x y b)
  | natRec a b c => natRec (rename x y a) (rename x y b) (rename x y c)
  | fold t e => fold (TypeExpr.rename x y t) (rename x y e)
  | unfold t e => unfold (TypeExpr.rename x y t) (rename x y e)
  | panic => panic
  | literal l => literal l
  | var z => var z

def renameAll (x y : String) : List (Located Expr) → List (Located Expr)
  | [] => []
  | e :: es => rename x y e :: renameAll x y es

def renameFields (x y : String) : List (String × Located Expr) → List (String × Located Expr)
  | [] => []
  | (l, e) :: fs => (l, rename x y e) :: renameFields x y fs

def renameBindings (x y : String) :
    List (Located Pattern × Located Expr) → List (Located Pattern × Located Expr)
  | [] => []
  | (p, e) :: bs => (Pattern.rename x y p, rename x y e) :: renameBindings x y bs

end

end Expr

namespace Node

/-- The type variables that a node binds. -/
def binders : Node → List String
  | type ⟨.forAll zs _, _⟩ => zs
  | type ⟨.recursive z _, _⟩ => [z]
  | expr ⟨.typeAbstraction zs _, _⟩ => zs
  | _ => []

/-- The type parameters of a generic expression. -/
def parameters : Node → List String
  | expr ⟨.typeAbstraction zs _, _⟩ => zs
  | _ => []

/-- The type names that stand at a node. -/
def typeNames : Node → List String
  | type ⟨.var z, _⟩ => [z]
  | node => node.binders

end Node

section Types

open TypeExpr

/-- Whether a node is no name of a type. -/
def Node.isNoName : Node → Bool
  | .type t => !t.node.isVar
  | _ => true

variable (x y : String)

mutual

/-- Renaming neither adds nor takes away names. -/
theorem isNoName_rename (t : Located TypeExpr) :
    (postOrder (rename x y t)).all Node.isNoName = (postOrder t).all Node.isNoName := by
  obtain ⟨t, position⟩ := t
  have root : (renameNode x y t).isVar = t.isVar := by cases t <;> rfl
  simp only [rename, postOrder, List.all_append, isNoName_inside t, List.all_cons, Node.isNoName, root]
termination_by structural t

theorem isNoName_inside (t : TypeExpr) :
    (inside (renameNode x y t)).all Node.isNoName = (inside t).all Node.isNoName := by
  cases t with
  | auto | bool | nat | unit | top | bottom | var => rfl
  | arrow ps r => simp only [renameNode, inside, List.all_append, isNoName_all ps, isNoName_rename r]
  | forAll zs b =>
    simp only [renameNode, inside]
    split
    · rfl
    · exact isNoName_rename b
  | recursive z b =>
    simp only [renameNode, inside]
    split
    · rfl
    · exact isNoName_rename b
  | sum l r => simp only [renameNode, inside, List.all_append, isNoName_rename l, isNoName_rename r]
  | tuple ts => exact isNoName_all ts
  | record fs => exact isNoName_fields fs
  | variant fs => exact isNoName_alternatives fs
  | list t => exact isNoName_rename t
  | ref t => exact isNoName_rename t
termination_by structural t

theorem isNoName_all (ts : List (Located TypeExpr)) :
    (postOrderAll (renameAll x y ts)).all Node.isNoName = (postOrderAll ts).all Node.isNoName := by
  match ts with
  | [] => rfl
  | t :: ts => simp only [renameAll, postOrderAll, List.all_append, isNoName_rename t, isNoName_all ts]
termination_by structural ts

theorem isNoName_fields (fs : List (String × Located TypeExpr)) :
    (postOrderFields (renameFields x y fs)).all Node.isNoName = (postOrderFields fs).all Node.isNoName := by
  match fs with
  | [] => rfl
  | (_, t) :: fs =>
    simp only [renameFields, postOrderFields, List.all_append, isNoName_rename t, isNoName_fields fs]
termination_by structural fs

theorem isNoName_alternatives (fs : List (String × Option (Located TypeExpr))) :
    (postOrderAlternatives (renameAlternatives x y fs)).all Node.isNoName =
      (postOrderAlternatives fs).all Node.isNoName := by
  match fs with
  | [] => rfl
  | (_, none) :: fs => exact isNoName_alternatives fs
  | (_, some t) :: fs =>
    simp only [renameAlternatives, postOrderAlternatives, List.all_append, isNoName_rename t,
      isNoName_alternatives fs]
termination_by structural fs

end

theorem isClosed_rename (t : Located TypeExpr) : isClosed (rename x y t) = isClosed t :=
  isNoName_rename x y t

mutual

/-- There is nothing to rename in an annotation without names. -/
theorem rename_of_noName {t : Located TypeExpr} (closed : (postOrder t).all Node.isNoName = true) :
    rename x y t = t := by
  obtain ⟨t, position⟩ := t
  rw [postOrder, List.all_append, Bool.and_eq_true] at closed
  have root : t.isVar = false := by simpa [Node.isNoName] using closed.2
  rw [rename, renameNode_of_noName root closed.1]
termination_by structural t

theorem renameNode_of_noName {t : TypeExpr} (root : t.isVar = false)
    (closed : (inside t).all Node.isNoName = true) : renameNode x y t = t := by
  cases t with
  | auto | bool | nat | unit | top | bottom => rfl
  | var => contradiction
  | arrow ps r =>
    rw [inside, List.all_append, Bool.and_eq_true] at closed
    rw [renameNode, renameAll_of_noName closed.1, rename_of_noName closed.2]
  | forAll zs b => rw [renameNode, rename_of_noName closed, ite_self]
  | recursive z b => rw [renameNode, rename_of_noName closed, ite_self]
  | sum l r =>
    rw [inside, List.all_append, Bool.and_eq_true] at closed
    rw [renameNode, rename_of_noName closed.1, rename_of_noName closed.2]
  | tuple ts => rw [renameNode, renameAll_of_noName closed]
  | record fs => rw [renameNode, renameFields_of_noName closed]
  | variant fs => rw [renameNode, renameAlternatives_of_noName closed]
  | list t => rw [renameNode, rename_of_noName closed]
  | ref t => rw [renameNode, rename_of_noName closed]
termination_by structural t

theorem renameAll_of_noName {ts : List (Located TypeExpr)}
    (closed : (postOrderAll ts).all Node.isNoName = true) : renameAll x y ts = ts := by
  match ts with
  | [] => rfl
  | t :: ts =>
    rw [postOrderAll, List.all_append, Bool.and_eq_true] at closed
    rw [renameAll, rename_of_noName closed.1, renameAll_of_noName closed.2]
termination_by structural ts

theorem renameFields_of_noName {fs : List (String × Located TypeExpr)}
    (closed : (postOrderFields fs).all Node.isNoName = true) : renameFields x y fs = fs := by
  match fs with
  | [] => rfl
  | (_, t) :: fs =>
    rw [postOrderFields, List.all_append, Bool.and_eq_true] at closed
    rw [renameFields, rename_of_noName closed.1, renameFields_of_noName closed.2]
termination_by structural fs

theorem renameAlternatives_of_noName {fs : List (String × Option (Located TypeExpr))}
    (closed : (postOrderAlternatives fs).all Node.isNoName = true) : renameAlternatives x y fs = fs := by
  match fs with
  | [] => rfl
  | (l, none) :: fs => exact congrArg ((l, none) :: ·) (renameAlternatives_of_noName closed)
  | (_, some t) :: fs =>
    rw [postOrderAlternatives, List.all_append, Bool.and_eq_true] at closed
    rw [renameAlternatives, rename_of_noName closed.1, renameAlternatives_of_noName closed.2]
termination_by structural fs

end

theorem rename_of_closed {t : Located TypeExpr} (closed : isClosed t = true) : rename x y t = t :=
  rename_of_noName x y closed

end Types

section Patterns

open Pattern

variable (x y : String)

theorem renamePatterns_eq (ps : List (Located Pattern)) : renameAll x y ps = ps.map (rename x y) := by
  induction ps with
  | nil => rfl
  | cons p ps ih => rw [renameAll, ih, List.map_cons]

theorem renamePatternFields_eq (fs : List (String × Located Pattern)) :
    Pattern.renameFields x y fs = fs.map fun (l, p) => (l, rename x y p) := by
  induction fs with
  | nil => rfl
  | cons f fs ih => rw [Pattern.renameFields, ih, List.map_cons]

end Patterns

theorem Expr.position_rename (x y : String) (e : Located Expr) : (rename x y e).position = e.position := by
  obtain ⟨e, position⟩ := e
  rfl

end StellaLang.Syntax
