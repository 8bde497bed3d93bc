import StellaLang.Proofs.Syntax.Places

/-! Other annotations in a tree, each read in view of the type parameters around it. To take a tree to
other places is a case of it. -/
namespace StellaLang.Syntax

/-- A change of annotations: below type parameters, from one annotation to another. -/
abbrev Retyping := List String → Located TypeExpr → Located TypeExpr

variable (h : Retyping) (f : Option Position → Option Position)

/-- Fields, or parameters, with other types. -/
def TypeExpr.retypeFields (bound : List String) (fs : List (String × Located TypeExpr)) :
    List (String × Located TypeExpr) :=
  fs.map fun (l, t) => (l, h bound t)

namespace Pattern

mutual

/-- A pattern with other annotations and places. -/
def retype (bound : List String) : Located Pattern → Located Pattern
  | ⟨p, position⟩ => ⟨retypeNode bound p, f position⟩

def retypeNode (bound : List String) : Pattern → Pattern
  | castAs p t => castAs (retype bound p) (h bound t)
  | ascribed p t => ascribed (retype bound p) (h bound t)
  | variant l none => variant l none
  | variant l (some p) => variant l (some (retype bound p))
  | inl p => inl (retype bound p)
  | inr p => inr (retype bound p)
  | tuple ps => tuple (retypeAll bound ps)
  | record fs => record (retypeFields bound fs)
  | list ps => list (retypeAll bound ps)
  | cons p q => cons (retype bound p) (retype bound q)
  | succ p => succ (retype bound p)
  | bool b => bool b
  | unit => unit
  | nat n => nat n
  | var x => var x

def retypeAll (bound : List String) : List (Located Pattern) → List (Located Pattern)
  | [] => []
  | p :: ps => retype bound p :: retypeAll bound ps

def retypeFields (bound : List String) :
    List (String × Located Pattern) → List (String × Located Pattern)
  | [] => []
  | (l, p) :: fs => (l, retype bound p) :: retypeFields bound fs

end

end Pattern

namespace Expr

mutual

/-- An expression with other annotations and places. -/
def retype (bound : List String) : Located Expr → Located Expr
  | ⟨e, position⟩ => ⟨retypeNode bound e, f position⟩

def retypeNode (bound : List String) : Expr → Expr
  | sequence a b => sequence (retype bound a) (retype bound b)
  | assign a b => assign (retype bound a) (retype bound b)
  | cond a b c => cond (retype bound a) (retype bound b) (retype bound c)
  | letIn bs e => letIn (retypeBindings bound bs) (retype bound e)
  | letRec bs e => letRec (retypeBindings bound bs) (retype bound e)
  | typeAbstraction xs e => typeAbstraction xs (retype (bound ++ xs) e)
  | binary op a b => binary op (retype bound a) (retype bound b)
  | ascribe e t => ascribe (retype bound e) (h bound t)
  | cast e t => cast (retype bound e) (h bound t)
  | abstraction ps e => abstraction (TypeExpr.retypeFields h bound ps) (retype bound e)
  | variant l none => variant l none
  | variant l (some e) => variant l (some (retype bound e))
  | matching e cs => matching (retype bound e) (retypeBindings bound cs)
  | list es => list (retypeAll bound es)
  | unary op e => unary op (retype bound e)
  | application e es => application (retype bound e) (retypeAll bound es)
  | typeApplication e ts => typeApplication (retype bound e) (ts.map (h bound))
  | field e l => field (retype bound e) l
  | component e i => component (retype bound e) i
  | tuple es => tuple (retypeAll bound es)
  | record fs => record (retypeFields bound fs)
  | cons a b => cons (retype bound a) (retype bound b)
  | tryCatch e p e' => tryCatch (retype bound e) (Pattern.retype h f bound p) (retype bound e')
  | tryWith a b => tryWith (retype bound a) (retype bound b)
  | tryCast e t p a b =>
    tryCast (retype bound e) (h bound t) (Pattern.retype h f bound p) (retype bound a) (retype bound b)
  | natRec a b c => natRec (retype bound a) (retype bound b) (retype bound c)
  | fold t e => fold (h bound t) (retype bound e)
  | unfold t e => unfold (h bound t) (retype bound e)
  | panic => panic
  | literal l => literal l
  | var x => var x

def retypeAll (bound : List String) : List (Located Expr) → List (Located Expr)
  | [] => []
  | e :: es => retype bound e :: retypeAll bound es

def retypeFields (bound : List String) : List (String × Located Expr) → List (String × Located Expr)
  | [] => []
  | (l, e) :: fs => (l, retype bound e) :: retypeFields bound fs

def retypeBindings (bound : List String) :
    List (Located Pattern × Located Expr) → List (Located Pattern × Located Expr)
  | [] => []
  | (p, e) :: bs => (Pattern.retype h f bound p, retype bound e) :: retypeBindings bound bs

end

end Expr

namespace Decl

mutual

/-- A declaration with other annotations and places. -/
def retype (bound : List String) : Located Decl → Located Decl
  | ⟨d, position⟩ => ⟨retypeNode bound d, f position⟩

def retypeNode (bound : List String) : Decl → Decl
  | function as x gs ps r ts ds e =>
    function as x gs (TypeExpr.retypeFields h (bound ++ gs.getD []) ps)
      (r.map (h (bound ++ gs.getD []))) (ts.map (h (bound ++ gs.getD [])))
      (retypeAll (bound ++ gs.getD []) ds) (Expr.retype h f (bound ++ gs.getD []) e)
  | typeAlias x t => typeAlias x (h bound t)
  | exceptionType t => exceptionType (h bound t)
  | exceptionVariant l t => exceptionVariant l (h bound t)

def retypeAll (bound : List String) : List (Located Decl) → List (Located Decl)
  | [] => []
  | d :: ds => retype bound d :: retypeAll bound ds

end

end Decl

section Lists

variable (bound : List String)

@[simp] theorem Expr.position_retype (e : Located Expr) :
    (Expr.retype h f bound e).position = f e.position := by
  obtain ⟨e, position⟩ := e
  rfl

@[simp] theorem Decl.position_retype (d : Located Decl) :
    (Decl.retype h f bound d).position = f d.position := by
  obtain ⟨d, position⟩ := d
  rfl

@[simp] theorem Decl.name?_retype (d : Located Decl) :
    (Decl.retype h f bound d).node.name? = d.node.name? := by
  obtain ⟨d, position⟩ := d
  cases d <;> rfl

@[simp] theorem Decl.isFunction_retype (d : Located Decl) :
    (Decl.retype h f bound d).node.isFunction = d.node.isFunction := by
  obtain ⟨d, position⟩ := d
  cases d <;> rfl

theorem Pattern.retypeAll_eq (ps : List (Located Pattern)) :
    Pattern.retypeAll h f bound ps = ps.map (Pattern.retype h f bound) := by
  induction ps with
  | nil => rfl
  | cons p ps ih => rw [Pattern.retypeAll, ih, List.map_cons]

theorem Expr.retypeAll_eq (es : List (Located Expr)) :
    Expr.retypeAll h f bound es = es.map (Expr.retype h f bound) := by
  induction es with
  | nil => rfl
  | cons e es ih => rw [Expr.retypeAll, ih, List.map_cons]

theorem Expr.retypeBindings_eq (bs : List (Located Pattern × Located Expr)) :
    Expr.retypeBindings h f bound bs =
      bs.map fun (p, e) => (Pattern.retype h f bound p, Expr.retype h f bound e) := by
  induction bs with
  | nil => rfl
  | cons b bs ih => rw [Expr.retypeBindings, ih, List.map_cons]

theorem Decl.retypeAll_eq (ds : List (Located Decl)) :
    Decl.retypeAll h f bound ds = ds.map (Decl.retype h f bound) := by
  induction ds with
  | nil => rfl
  | cons d ds ih => rw [Decl.retypeAll, ih, List.map_cons]

end Lists

section Relocation

/-- The annotations where they are moved to. -/
def TypeExpr.relocation : Retyping :=
  fun _ => TypeExpr.relocate f

mutual

theorem Pattern.retype_relocation (bound : List String) (p : Located Pattern) :
    Pattern.retype (TypeExpr.relocation f) f bound p = Pattern.relocate f p := by
  obtain ⟨p, position⟩ := p
  exact congrArg (Located.mk · (f position)) (Pattern.retypeNode_relocation bound p)
termination_by structural p

theorem Pattern.retypeNode_relocation (bound : List String) (p : Pattern) :
    Pattern.retypeNode (TypeExpr.relocation f) f bound p = Pattern.relocateNode f p := by
  cases p with
  | bool | unit | nat | var => rfl
  | castAs p t | ascribed p t =>
    simp only [Pattern.retypeNode, Pattern.relocateNode, Pattern.retype_relocation bound p]
    rfl
  | inl p | inr p | succ p =>
    simp only [Pattern.retypeNode, Pattern.relocateNode, Pattern.retype_relocation bound p]
  | variant l payload =>
    cases payload with
    | none => rfl
    | some p => simp only [Pattern.retypeNode, Pattern.relocateNode, Pattern.retype_relocation bound p]
  | tuple ps | list ps =>
    simp only [Pattern.retypeNode, Pattern.relocateNode, Pattern.retypeAll_relocation bound ps]
  | record fs =>
    simp only [Pattern.retypeNode, Pattern.relocateNode, Pattern.retypeFields_relocation bound fs]
  | cons p q =>
    simp only [Pattern.retypeNode, Pattern.relocateNode, Pattern.retype_relocation bound p,
      Pattern.retype_relocation bound q]
termination_by structural p

theorem Pattern.retypeAll_relocation (bound : List String) (ps : List (Located Pattern)) :
    Pattern.retypeAll (TypeExpr.relocation f) f bound ps = Pattern.relocateAll f ps := by
  match ps with
  | [] => rfl
  | p :: ps =>
    exact congrArg₂ List.cons (Pattern.retype_relocation bound p) (Pattern.retypeAll_relocation bound ps)
termination_by structural ps

theorem Pattern.retypeFields_relocation (bound : List String) (fs : List (String × Located Pattern)) :
    Pattern.retypeFields (TypeExpr.relocation f) f bound fs = Pattern.relocateFields f fs := by
  match fs with
  | [] => rfl
  | (l, p) :: fs =>
    exact congrArg₂ (fun p fs => (l, p) :: fs) (Pattern.retype_relocation bound p)
      (Pattern.retypeFields_relocation bound fs)
termination_by structural fs

end

theorem TypeExpr.retypeFields_relocation (bound : List String) (fs : List (String × Located TypeExpr)) :
    TypeExpr.retypeFields (TypeExpr.relocation f) bound fs = TypeExpr.relocateFields f fs :=
  (TypeExpr.relocateFields_eq f fs).symm

theorem TypeExpr.map_relocation (bound : List String) (ts : List (Located TypeExpr)) :
    ts.map (TypeExpr.relocation f bound) = TypeExpr.relocateAll f ts :=
  (TypeExpr.relocateAll_eq f ts).symm

mutual

theorem Expr.retype_relocation (bound : List String) (e : Located Expr) :
    Expr.retype (TypeExpr.relocation f) f bound e = Expr.relocate f e := by
  obtain ⟨e, position⟩ := e
  exact congrArg (Located.mk · (f position)) (Expr.retypeNode_relocation bound e)
termination_by structural e

theorem Expr.retypeNode_relocation (bound : List String) (e : Expr) :
    Expr.retypeNode (TypeExpr.relocation f) f bound e = Expr.relocateNode f e := by
  cases e with
  | panic | literal | var => rfl
  | sequence a b | assign a b | binary _ a b | cons a b | tryWith a b =>
    simp only [Expr.retypeNode, Expr.relocateNode, Expr.retype_relocation bound a,
      Expr.retype_relocation bound b]
  | cond a b c | natRec a b c =>
    simp only [Expr.retypeNode, Expr.relocateNode, Expr.retype_relocation bound a,
      Expr.retype_relocation bound b, Expr.retype_relocation bound c]
  | letIn bs e | letRec bs e | matching e bs =>
    simp only [Expr.retypeNode, Expr.relocateNode, Expr.retypeBindings_relocation bound bs,
      Expr.retype_relocation bound e]
  | typeAbstraction xs e =>
    simp only [Expr.retypeNode, Expr.relocateNode, Expr.retype_relocation (bound ++ xs) e]
  | unary _ e | field e _ | component e _ =>
    simp only [Expr.retypeNode, Expr.relocateNode, Expr.retype_relocation bound e]
  | ascribe e t | cast e t | fold t e | unfold t e =>
    simp only [Expr.retypeNode, Expr.relocateNode, Expr.retype_relocation bound e]
    rfl
  | abstraction ps e =>
    simp only [Expr.retypeNode, Expr.relocateNode, TypeExpr.retypeFields_relocation,
      Expr.retype_relocation bound e]
  | variant l payload =>
    cases payload with
    | none => rfl
    | some e => simp only [Expr.retypeNode, Expr.relocateNode, Expr.retype_relocation bound e]
  | list es | tuple es =>
    simp only [Expr.retypeNode, Expr.relocateNode, Expr.retypeAll_relocation bound es]
  | application e es =>
    simp only [Expr.retypeNode, Expr.relocateNode, Expr.retype_relocation bound e,
      Expr.retypeAll_relocation bound es]
  | typeApplication e ts =>
    simp only [Expr.retypeNode, Expr.relocateNode, Expr.retype_relocation bound e,
      TypeExpr.map_relocation]
  | record fs =>
    simp only [Expr.retypeNode, Expr.relocateNode, Expr.retypeFields_relocation bound fs]
  | tryCatch e p e' =>
    simp only [Expr.retypeNode, Expr.relocateNode, Expr.retype_relocation bound e,
      Pattern.retype_relocation, Expr.retype_relocation bound e']
  | tryCast e t p a b =>
    simp only [Expr.retypeNode, Expr.relocateNode, Expr.retype_relocation bound e,
      Pattern.retype_relocation, Expr.retype_relocation bound a, Expr.retype_relocation bound b]
    rfl
termination_by structural e

theorem Expr.retypeAll_relocation (bound : List String) (es : List (Located Expr)) :
    Expr.retypeAll (TypeExpr.relocation f) f bound es = Expr.relocateAll f es := by
  match es with
  | [] => rfl
  | e :: es =>
    exact congrArg₂ List.cons (Expr.retype_relocation bound e) (Expr.retypeAll_relocation bound es)
termination_by structural es

theorem Expr.retypeFields_relocation (bound : List String) (fs : List (String × Located Expr)) :
    Expr.retypeFields (TypeExpr.relocation f) f bound fs = Expr.relocateFields f fs := by
  match fs with
  | [] => rfl
  | (l, e) :: fs =>
    exact congrArg₂ (fun e fs => (l, e) :: fs) (Expr.retype_relocation bound e)
      (Expr.retypeFields_relocation bound fs)
termination_by structural fs

theorem Expr.retypeBindings_relocation (bound : List String)
    (bs : List (Located Pattern × Located Expr)) :
    Expr.retypeBindings (TypeExpr.relocation f) f bound bs = Expr.relocateBindings f bs := by
  match bs with
  | [] => rfl
  | (p, e) :: bs =>
    rw [Expr.retypeBindings, Expr.relocateBindings, Pattern.retype_relocation,
      Expr.retype_relocation bound e, Expr.retypeBindings_relocation bound bs]
termination_by structural bs

end

mutual

theorem Decl.retype_relocation (bound : List String) (d : Located Decl) :
    Decl.retype (TypeExpr.relocation f) f bound d = Decl.relocate f d := by
  obtain ⟨d, position⟩ := d
  exact congrArg (Located.mk · (f position)) (Decl.retypeNode_relocation bound d)
termination_by structural d

theorem Decl.retypeNode_relocation (bound : List String) (d : Decl) :
    Decl.retypeNode (TypeExpr.relocation f) f bound d = Decl.relocateNode f d := by
  cases d with
  | function as x gs ps r ts ds e =>
    simp only [Decl.retypeNode, Decl.relocateNode, TypeExpr.retypeFields_relocation,
      TypeExpr.map_relocation, Decl.retypeAll_relocation _ ds, Expr.retype_relocation]
    rfl
  | typeAlias | exceptionType | exceptionVariant => rfl
termination_by structural d

theorem Decl.retypeAll_relocation (bound : List String) (ds : List (Located Decl)) :
    Decl.retypeAll (TypeExpr.relocation f) f bound ds = Decl.relocateAll f ds := by
  match ds with
  | [] => rfl
  | d :: ds =>
    exact congrArg₂ List.cons (Decl.retype_relocation bound d) (Decl.retypeAll_relocation bound ds)
termination_by structural ds

end

end Relocation

end StellaLang.Syntax
