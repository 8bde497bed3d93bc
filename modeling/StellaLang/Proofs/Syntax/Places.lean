import Mathlib.Logic.Basic
import StellaLang.Syntax.Printer

/-! Other places for the nodes of a tree. No text shows a place. -/
namespace StellaLang.Syntax

variable (f : Option Position → Option Position)

namespace TypeExpr

mutual

def relocate : Located TypeExpr → Located TypeExpr
  | ⟨t, position⟩ => ⟨relocateNode t, f position⟩

def relocateNode : TypeExpr → TypeExpr
  | arrow ps r => arrow (relocateAll ps) (relocate r)
  | forAll xs b => forAll xs (relocate b)
  | recursive x b => recursive x (relocate b)
  | sum l r => sum (relocate l) (relocate r)
  | tuple ts => tuple (relocateAll ts)
  | record fs => record (relocateFields fs)
  | variant fs => variant (relocateAlternatives fs)
  | list t => list (relocate t)
  | ref t => ref (relocate t)
  | auto => auto
  | bool => bool
  | nat => nat
  | unit => unit
  | top => top
  | bottom => bottom
  | var x => var x

def relocateAll : List (Located TypeExpr) → List (Located TypeExpr)
  | [] => []
  | t :: ts => relocate t :: relocateAll ts

def relocateFields : List (String × Located TypeExpr) → List (String × Located TypeExpr)
  | [] => []
  | (l, t) :: fs => (l, relocate t) :: relocateFields fs

def relocateAlternatives :
    List (String × Option (Located TypeExpr)) → List (String × Option (Located TypeExpr))
  | [] => []
  | (l, none) :: fs => (l, none) :: relocateAlternatives fs
  | (l, some t) :: fs => (l, some (relocate t)) :: relocateAlternatives fs

end

end TypeExpr

namespace Pattern

mutual

def relocate : Located Pattern → Located Pattern
  | ⟨p, position⟩ => ⟨relocateNode p, f position⟩

def relocateNode : Pattern → Pattern
  | castAs p t => castAs (relocate p) (TypeExpr.relocate f t)
  | ascribed p t => ascribed (relocate p) (TypeExpr.relocate f t)
  | variant l none => variant l none
  | variant l (some p) => variant l (some (relocate p))
  | inl p => inl (relocate p)
  | inr p => inr (relocate p)
  | tuple ps => tuple (relocateAll ps)
  | record fs => record (relocateFields fs)
  | list ps => list (relocateAll ps)
  | cons h t => cons (relocate h) (relocate t)
  | succ p => succ (relocate p)
  | bool b => bool b
  | unit => unit
  | nat n => nat n
  | var x => var x

def relocateAll : List (Located Pattern) → List (Located Pattern)
  | [] => []
  | p :: ps => relocate p :: relocateAll ps

def relocateFields : List (String × Located Pattern) → List (String × Located Pattern)
  | [] => []
  | (l, p) :: fs => (l, relocate p) :: relocateFields fs

end

end Pattern

namespace Expr

mutual

def relocate : Located Expr → Located Expr
  | ⟨e, position⟩ => ⟨relocateNode e, f position⟩

def relocateNode : Expr → Expr
  | sequence a b => sequence (relocate a) (relocate b)
  | assign a b => assign (relocate a) (relocate b)
  | cond a b c => cond (relocate a) (relocate b) (relocate c)
  | letIn bs e => letIn (relocateBindings bs) (relocate e)
  | letRec bs e => letRec (relocateBindings bs) (relocate e)
  | typeAbstraction xs e => typeAbstraction xs (relocate e)
  | binary op a b => binary op (relocate a) (relocate b)
  | ascribe e t => ascribe (relocate e) (TypeExpr.relocate f t)
  | cast e t => cast (relocate e) (TypeExpr.relocate f t)
  | abstraction ps e => abstraction (TypeExpr.relocateFields f ps) (relocate e)
  | variant l none => variant l none
  | variant l (some e) => variant l (some (relocate e))
  | matching e cs => matching (relocate e) (relocateBindings cs)
  | list es => list (relocateAll es)
  | unary op e => unary op (relocate e)
  | application e es => application (relocate e) (relocateAll es)
  | typeApplication e ts => typeApplication (relocate e) (TypeExpr.relocateAll f ts)
  | field e l => field (relocate e) l
  | component e i => component (relocate e) i
  | tuple es => tuple (relocateAll es)
  | record fs => record (relocateFields fs)
  | cons h t => cons (relocate h) (relocate t)
  | tryCatch e p h => tryCatch (relocate e) (Pattern.relocate f p) (relocate h)
  | tryWith a b => tryWith (relocate a) (relocate b)
  | tryCast e t p a b =>
    tryCast (relocate e) (TypeExpr.relocate f t) (Pattern.relocate f p) (relocate a) (relocate b)
  | natRec a b c => natRec (relocate a) (relocate b) (relocate c)
  | fold t e => fold (TypeExpr.relocate f t) (relocate e)
  | unfold t e => unfold (TypeExpr.relocate f t) (relocate e)
  | panic => panic
  | literal l => literal l
  | var x => var x

def relocateAll : List (Located Expr) → List (Located Expr)
  | [] => []
  | e :: es => relocate e :: relocateAll es

def relocateFields : List (String × Located Expr) → List (String × Located Expr)
  | [] => []
  | (l, e) :: fs => (l, relocate e) :: relocateFields fs

def relocateBindings :
    List (Located Pattern × Located Expr) → List (Located Pattern × Located Expr)
  | [] => []
  | (p, e) :: bs => (Pattern.relocate f p, relocate e) :: relocateBindings bs

end

end Expr

namespace Decl

mutual

def relocate : Located Decl → Located Decl
  | ⟨d, position⟩ => ⟨relocateNode d, f position⟩

def relocateNode : Decl → Decl
  | function as x gs ps r ts ds e =>
    function as x gs (TypeExpr.relocateFields f ps) (r.map (TypeExpr.relocate f))
      (TypeExpr.relocateAll f ts) (relocateAll ds) (Expr.relocate f e)
  | typeAlias x t => typeAlias x (TypeExpr.relocate f t)
  | exceptionType t => exceptionType (TypeExpr.relocate f t)
  | exceptionVariant l t => exceptionVariant l (TypeExpr.relocate f t)

def relocateAll : List (Located Decl) → List (Located Decl)
  | [] => []
  | d :: ds => relocate d :: relocateAll ds

end

end Decl

def Program.relocate (p : Located Program) : Located Program :=
  ⟨⟨p.node.extensions, Decl.relocateAll f p.node.decls⟩, f p.position⟩

section Moved

theorem TypeExpr.relocateAll_eq (ts : List (Located TypeExpr)) :
    TypeExpr.relocateAll f ts = ts.map (TypeExpr.relocate f) := by
  induction ts with
  | nil => rfl
  | cons t ts ih => rw [TypeExpr.relocateAll, ih, List.map_cons]

theorem TypeExpr.relocateFields_eq (fs : List (String × Located TypeExpr)) :
    TypeExpr.relocateFields f fs = fs.map fun (l, t) => (l, TypeExpr.relocate f t) := by
  induction fs with
  | nil => rfl
  | cons field fs ih => rw [TypeExpr.relocateFields, ih, List.map_cons]

theorem Expr.relocateAll_eq (es : List (Located Expr)) :
    Expr.relocateAll f es = es.map (Expr.relocate f) := by
  induction es with
  | nil => rfl
  | cons e es ih => rw [Expr.relocateAll, ih, List.map_cons]

theorem Expr.relocateBindings_eq (bs : List (Located Pattern × Located Expr)) :
    Expr.relocateBindings f bs = bs.map fun (p, e) => (Pattern.relocate f p, Expr.relocate f e) := by
  induction bs with
  | nil => rfl
  | cons b bs ih => rw [Expr.relocateBindings, ih, List.map_cons]

theorem Decl.relocateAll_eq (ds : List (Located Decl)) :
    Decl.relocateAll f ds = ds.map (Decl.relocate f) := by
  induction ds with
  | nil => rfl
  | cons d ds ih => rw [Decl.relocateAll, ih, List.map_cons]

end Moved

section Kept

mutual

theorem TypeExpr.relocate_id (t : Located TypeExpr) : TypeExpr.relocate id t = t := by
  obtain ⟨t, position⟩ := t
  exact congrArg (Located.mk · position) (TypeExpr.relocateNode_id t)
termination_by structural t

theorem TypeExpr.relocateNode_id (t : TypeExpr) : TypeExpr.relocateNode id t = t := by
  cases t with
  | auto | bool | nat | unit | top | bottom | var => rfl
  | arrow ps r => exact congrArg₂ TypeExpr.arrow (TypeExpr.relocateAll_id ps) (TypeExpr.relocate_id r)
  | forAll xs b => exact congrArg (TypeExpr.forAll xs) (TypeExpr.relocate_id b)
  | recursive x b => exact congrArg (TypeExpr.recursive x) (TypeExpr.relocate_id b)
  | sum l r => exact congrArg₂ TypeExpr.sum (TypeExpr.relocate_id l) (TypeExpr.relocate_id r)
  | tuple ts => exact congrArg TypeExpr.tuple (TypeExpr.relocateAll_id ts)
  | record fs => exact congrArg TypeExpr.record (TypeExpr.relocateFields_id fs)
  | variant fs => exact congrArg TypeExpr.variant (TypeExpr.relocateAlternatives_id fs)
  | list t => exact congrArg TypeExpr.list (TypeExpr.relocate_id t)
  | ref t => exact congrArg TypeExpr.ref (TypeExpr.relocate_id t)
termination_by structural t

theorem TypeExpr.relocateAll_id (ts : List (Located TypeExpr)) : TypeExpr.relocateAll id ts = ts := by
  match ts with
  | [] => rfl
  | t :: ts => exact congrArg₂ List.cons (TypeExpr.relocate_id t) (TypeExpr.relocateAll_id ts)
termination_by structural ts

theorem TypeExpr.relocateFields_id (fs : List (String × Located TypeExpr)) :
    TypeExpr.relocateFields id fs = fs := by
  match fs with
  | [] => rfl
  | (l, t) :: fs =>
    exact congrArg₂ (fun t fs => (l, t) :: fs) (TypeExpr.relocate_id t)
      (TypeExpr.relocateFields_id fs)
termination_by structural fs

theorem TypeExpr.relocateAlternatives_id (fs : List (String × Option (Located TypeExpr))) :
    TypeExpr.relocateAlternatives id fs = fs := by
  match fs with
  | [] => rfl
  | (l, none) :: fs => exact congrArg ((l, none) :: ·) (TypeExpr.relocateAlternatives_id fs)
  | (l, some t) :: fs =>
    exact congrArg₂ (fun t fs => (l, some t) :: fs) (TypeExpr.relocate_id t)
      (TypeExpr.relocateAlternatives_id fs)
termination_by structural fs

end

mutual

theorem Pattern.relocate_id (p : Located Pattern) : Pattern.relocate id p = p := by
  obtain ⟨p, position⟩ := p
  exact congrArg (Located.mk · position) (Pattern.relocateNode_id p)
termination_by structural p

theorem Pattern.relocateNode_id (p : Pattern) : Pattern.relocateNode id p = p := by
  cases p with
  | bool | unit | nat | var => rfl
  | castAs p t => exact congrArg₂ Pattern.castAs (Pattern.relocate_id p) (TypeExpr.relocate_id t)
  | ascribed p t => exact congrArg₂ Pattern.ascribed (Pattern.relocate_id p) (TypeExpr.relocate_id t)
  | variant l payload =>
    cases payload with
    | none => rfl
    | some p => exact congrArg (fun p => Pattern.variant l (some p)) (Pattern.relocate_id p)
  | inl p => exact congrArg Pattern.inl (Pattern.relocate_id p)
  | inr p => exact congrArg Pattern.inr (Pattern.relocate_id p)
  | succ p => exact congrArg Pattern.succ (Pattern.relocate_id p)
  | tuple ps => exact congrArg Pattern.tuple (Pattern.relocateAll_id ps)
  | list ps => exact congrArg Pattern.list (Pattern.relocateAll_id ps)
  | record fs => exact congrArg Pattern.record (Pattern.relocateFields_id fs)
  | cons h t => exact congrArg₂ Pattern.cons (Pattern.relocate_id h) (Pattern.relocate_id t)
termination_by structural p

theorem Pattern.relocateAll_id (ps : List (Located Pattern)) : Pattern.relocateAll id ps = ps := by
  match ps with
  | [] => rfl
  | p :: ps => exact congrArg₂ List.cons (Pattern.relocate_id p) (Pattern.relocateAll_id ps)
termination_by structural ps

theorem Pattern.relocateFields_id (fs : List (String × Located Pattern)) :
    Pattern.relocateFields id fs = fs := by
  match fs with
  | [] => rfl
  | (l, p) :: fs =>
    exact congrArg₂ (fun p fs => (l, p) :: fs) (Pattern.relocate_id p) (Pattern.relocateFields_id fs)
termination_by structural fs

end

mutual

theorem Expr.relocate_id (e : Located Expr) : Expr.relocate id e = e := by
  obtain ⟨e, position⟩ := e
  exact congrArg (Located.mk · position) (Expr.relocateNode_id e)
termination_by structural e

theorem Expr.relocateNode_id (e : Expr) : Expr.relocateNode id e = e := by
  cases e with
  | panic | literal | var => rfl
  | sequence a b | assign a b | binary _ a b | cons a b | tryWith a b =>
    simp only [Expr.relocateNode, Expr.relocate_id a, Expr.relocate_id b]
  | cond a b c | natRec a b c =>
    simp only [Expr.relocateNode, Expr.relocate_id a, Expr.relocate_id b, Expr.relocate_id c]
  | letIn bs e | letRec bs e | matching e bs =>
    simp only [Expr.relocateNode, Expr.relocateBindings_id bs, Expr.relocate_id e]
  | typeAbstraction _ e | unary _ e | field e _ | component e _ =>
    simp only [Expr.relocateNode, Expr.relocate_id e]
  | ascribe e t | cast e t | fold t e | unfold t e =>
    simp only [Expr.relocateNode, Expr.relocate_id e, TypeExpr.relocate_id]
  | abstraction ps e =>
    simp only [Expr.relocateNode, Expr.relocate_id e, TypeExpr.relocateFields_id]
  | variant l payload =>
    cases payload with
    | none => rfl
    | some e => simp only [Expr.relocateNode, Expr.relocate_id e]
  | list es | tuple es => simp only [Expr.relocateNode, Expr.relocateAll_id es]
  | application e es =>
    simp only [Expr.relocateNode, Expr.relocate_id e, Expr.relocateAll_id es]
  | typeApplication e ts =>
    simp only [Expr.relocateNode, Expr.relocate_id e, TypeExpr.relocateAll_id]
  | record fs => simp only [Expr.relocateNode, Expr.relocateFields_id fs]
  | tryCatch e p h =>
    simp only [Expr.relocateNode, Expr.relocate_id e, Pattern.relocate_id, Expr.relocate_id h]
  | tryCast e t p a b =>
    simp only [Expr.relocateNode, Expr.relocate_id e, TypeExpr.relocate_id, Pattern.relocate_id,
      Expr.relocate_id a, Expr.relocate_id b]
termination_by structural e

theorem Expr.relocateAll_id (es : List (Located Expr)) : Expr.relocateAll id es = es := by
  match es with
  | [] => rfl
  | e :: es => exact congrArg₂ List.cons (Expr.relocate_id e) (Expr.relocateAll_id es)
termination_by structural es

theorem Expr.relocateFields_id (fs : List (String × Located Expr)) :
    Expr.relocateFields id fs = fs := by
  match fs with
  | [] => rfl
  | (_, e) :: fs => rw [Expr.relocateFields, Expr.relocate_id e, Expr.relocateFields_id fs]
termination_by structural fs

theorem Expr.relocateBindings_id (bs : List (Located Pattern × Located Expr)) :
    Expr.relocateBindings id bs = bs := by
  match bs with
  | [] => rfl
  | (_, e) :: bs =>
    rw [Expr.relocateBindings, Pattern.relocate_id, Expr.relocate_id e, Expr.relocateBindings_id bs]
termination_by structural bs

end

mutual

theorem Decl.relocate_id (d : Located Decl) : Decl.relocate id d = d := by
  obtain ⟨d, position⟩ := d
  exact congrArg (Located.mk · position) (Decl.relocateNode_id d)
termination_by structural d

theorem Decl.relocateNode_id (d : Decl) : Decl.relocateNode id d = d := by
  cases d with
  | function as x gs ps r ts ds e =>
    have result : r.map (TypeExpr.relocate id) = r := by
      cases r with
      | none => rfl
      | some r => rw [Option.map_some, TypeExpr.relocate_id]
    rw [Decl.relocateNode, TypeExpr.relocateFields_id, result, TypeExpr.relocateAll_id,
      Decl.relocateAll_id ds, Expr.relocate_id]
  | typeAlias | exceptionType | exceptionVariant => rw [Decl.relocateNode, TypeExpr.relocate_id]
termination_by structural d

theorem Decl.relocateAll_id (ds : List (Located Decl)) : Decl.relocateAll id ds = ds := by
  match ds with
  | [] => rfl
  | d :: ds => exact congrArg₂ List.cons (Decl.relocate_id d) (Decl.relocateAll_id ds)
termination_by structural ds

end

end Kept

section Texts

mutual

theorem TypeExpr.text_relocate (place : Nat) (t : Located TypeExpr) :
    TypeExpr.text place (TypeExpr.relocate f t) = TypeExpr.text place t := by
  obtain ⟨t, position⟩ := t
  exact TypeExpr.textNode_relocate place t
termination_by structural t

theorem TypeExpr.textNode_relocate (place : Nat) (t : TypeExpr) :
    TypeExpr.textNode place (TypeExpr.relocateNode f t) = TypeExpr.textNode place t := by
  cases t with
  | auto | bool | nat | unit | top | bottom | var => rfl
  | arrow ps r =>
    simp only [TypeExpr.relocateNode, TypeExpr.textNode, TypeExpr.texts_relocate ps,
      TypeExpr.text_relocate _ r]
  | forAll xs b =>
    simp only [TypeExpr.relocateNode, TypeExpr.textNode, TypeExpr.text_relocate _ b]
  | recursive x b =>
    simp only [TypeExpr.relocateNode, TypeExpr.textNode, TypeExpr.text_relocate _ b]
  | sum l r =>
    simp only [TypeExpr.relocateNode, TypeExpr.textNode, TypeExpr.text_relocate _ l,
      TypeExpr.text_relocate _ r]
  | tuple ts => simp only [TypeExpr.relocateNode, TypeExpr.textNode, TypeExpr.texts_relocate ts]
  | record fs => simp only [TypeExpr.relocateNode, TypeExpr.textNode, TypeExpr.fieldTexts_relocate fs]
  | variant fs =>
    simp only [TypeExpr.relocateNode, TypeExpr.textNode, TypeExpr.alternativeTexts_relocate fs]
  | list t => simp only [TypeExpr.relocateNode, TypeExpr.textNode, TypeExpr.text_relocate _ t]
  | ref t => simp only [TypeExpr.relocateNode, TypeExpr.textNode, TypeExpr.text_relocate _ t]
termination_by structural t

theorem TypeExpr.texts_relocate (ts : List (Located TypeExpr)) :
    TypeExpr.texts (TypeExpr.relocateAll f ts) = TypeExpr.texts ts := by
  match ts with
  | [] => rfl
  | t :: ts => exact congrArg₂ List.cons (TypeExpr.text_relocate _ t) (TypeExpr.texts_relocate ts)
termination_by structural ts

theorem TypeExpr.fieldTexts_relocate (fs : List (String × Located TypeExpr)) :
    TypeExpr.fieldTexts (TypeExpr.relocateFields f fs) = TypeExpr.fieldTexts fs := by
  match fs with
  | [] => rfl
  | (l, t) :: fs =>
    exact congrArg₂ (fun text texts => (l ++ " : " ++ text) :: texts) (TypeExpr.text_relocate _ t)
      (TypeExpr.fieldTexts_relocate fs)
termination_by structural fs

theorem TypeExpr.alternativeTexts_relocate (fs : List (String × Option (Located TypeExpr))) :
    TypeExpr.alternativeTexts (TypeExpr.relocateAlternatives f fs) = TypeExpr.alternativeTexts fs := by
  match fs with
  | [] => rfl
  | (l, none) :: fs => exact congrArg (l :: ·) (TypeExpr.alternativeTexts_relocate fs)
  | (l, some t) :: fs =>
    exact congrArg₂ (fun text texts => (l ++ " : " ++ text) :: texts) (TypeExpr.text_relocate _ t)
      (TypeExpr.alternativeTexts_relocate fs)
termination_by structural fs

end

mutual

theorem Pattern.text_relocate (p : Located Pattern) :
    Pattern.text (Pattern.relocate f p) = Pattern.text p := by
  obtain ⟨p, position⟩ := p
  exact Pattern.textNode_relocate p
termination_by structural p

theorem Pattern.textNode_relocate (p : Pattern) :
    Pattern.textNode (Pattern.relocateNode f p) = Pattern.textNode p := by
  cases p with
  | bool | unit | nat | var => rfl
  | castAs p t =>
    simp only [Pattern.relocateNode, Pattern.textNode, Pattern.text_relocate p,
      TypeExpr.text_relocate]
  | ascribed p t =>
    simp only [Pattern.relocateNode, Pattern.textNode, Pattern.text_relocate p,
      TypeExpr.text_relocate]
  | variant l payload =>
    cases payload with
    | none => rfl
    | some p => simp only [Pattern.relocateNode, Pattern.textNode, Pattern.text_relocate p]
  | inl p => simp only [Pattern.relocateNode, Pattern.textNode, Pattern.text_relocate p]
  | inr p => simp only [Pattern.relocateNode, Pattern.textNode, Pattern.text_relocate p]
  | succ p => simp only [Pattern.relocateNode, Pattern.textNode, Pattern.text_relocate p]
  | tuple ps => simp only [Pattern.relocateNode, Pattern.textNode, Pattern.texts_relocate ps]
  | list ps => simp only [Pattern.relocateNode, Pattern.textNode, Pattern.texts_relocate ps]
  | record fs => simp only [Pattern.relocateNode, Pattern.textNode, Pattern.fieldTexts_relocate fs]
  | cons h t =>
    simp only [Pattern.relocateNode, Pattern.textNode, Pattern.text_relocate h,
      Pattern.text_relocate t]
termination_by structural p

theorem Pattern.texts_relocate (ps : List (Located Pattern)) :
    Pattern.texts (Pattern.relocateAll f ps) = Pattern.texts ps := by
  match ps with
  | [] => rfl
  | p :: ps => exact congrArg₂ List.cons (Pattern.text_relocate p) (Pattern.texts_relocate ps)
termination_by structural ps

theorem Pattern.fieldTexts_relocate (fs : List (String × Located Pattern)) :
    Pattern.fieldTexts (Pattern.relocateFields f fs) = Pattern.fieldTexts fs := by
  match fs with
  | [] => rfl
  | (l, p) :: fs =>
    exact congrArg₂ (fun text texts => (l ++ " = " ++ text) :: texts) (Pattern.text_relocate p)
      (Pattern.fieldTexts_relocate fs)
termination_by structural fs

end

mutual

theorem Expr.doc_relocate (place : Nat) (e : Located Expr) :
    Expr.doc place (Expr.relocate f e) = Expr.doc place e := by
  obtain ⟨e, position⟩ := e
  exact Expr.docNode_relocate place e
termination_by structural e

theorem Expr.docNode_relocate (place : Nat) (e : Expr) :
    Expr.docNode place (Expr.relocateNode f e) = Expr.docNode place e := by
  cases e with
  | panic | literal | var => rfl
  | sequence a b | assign a b | binary _ a b | cons a b | tryWith a b =>
    simp only [Expr.relocateNode, Expr.docNode, Expr.doc_relocate _ a, Expr.doc_relocate _ b]
  | cond a b c | natRec a b c =>
    simp only [Expr.relocateNode, Expr.docNode, Expr.doc_relocate _ a, Expr.doc_relocate _ b,
      Expr.doc_relocate _ c]
  | letIn bs e | letRec bs e | matching e bs =>
    simp only [Expr.relocateNode, Expr.docNode, Expr.bindingDocs_relocate _ bs,
      Expr.doc_relocate _ e]
  | typeAbstraction _ e | field e _ | component e _ =>
    simp only [Expr.relocateNode, Expr.docNode, Expr.doc_relocate _ e]
  | ascribe e t | cast e t | fold t e | unfold t e =>
    simp only [Expr.relocateNode, Expr.docNode, Expr.doc_relocate _ e, TypeExpr.text_relocate]
  | abstraction ps e =>
    simp only [Expr.relocateNode, Expr.docNode, Expr.doc_relocate _ e, TypeExpr.fieldTexts_relocate]
  | variant l payload =>
    cases payload with
    | none => rfl
    | some e => simp only [Expr.relocateNode, Expr.docNode, Expr.doc_relocate _ e]
  | list es | tuple es => simp only [Expr.relocateNode, Expr.docNode, Expr.docs_relocate es]
  | unary op e =>
    cases op <;> simp only [Expr.relocateNode, Expr.docNode, Expr.doc_relocate _ e]
  | application e es =>
    simp only [Expr.relocateNode, Expr.docNode, Expr.doc_relocate _ e, Expr.docs_relocate es]
  | typeApplication e ts =>
    simp only [Expr.relocateNode, Expr.docNode, Expr.doc_relocate _ e, TypeExpr.texts_relocate]
  | record fs => simp only [Expr.relocateNode, Expr.docNode, Expr.fieldDocs_relocate fs]
  | tryCatch e p h =>
    simp only [Expr.relocateNode, Expr.docNode, Expr.doc_relocate _ e, Pattern.text_relocate,
      Expr.doc_relocate _ h]
  | tryCast e t p a b =>
    simp only [Expr.relocateNode, Expr.docNode, Expr.doc_relocate _ e, TypeExpr.text_relocate,
      Pattern.text_relocate, Expr.doc_relocate _ a, Expr.doc_relocate _ b]
termination_by structural e

theorem Expr.docs_relocate (es : List (Located Expr)) :
    Expr.docs (Expr.relocateAll f es) = Expr.docs es := by
  match es with
  | [] => rfl
  | e :: es => exact congrArg₂ List.cons (Expr.doc_relocate _ e) (Expr.docs_relocate es)
termination_by structural es

theorem Expr.fieldDocs_relocate (fs : List (String × Located Expr)) :
    Expr.fieldDocs (Expr.relocateFields f fs) = Expr.fieldDocs fs := by
  match fs with
  | [] => rfl
  | (_, e) :: fs =>
    rw [Expr.relocateFields, Expr.fieldDocs, Expr.fieldDocs, Expr.doc_relocate _ e,
      Expr.fieldDocs_relocate fs]
termination_by structural fs

theorem Expr.bindingDocs_relocate (sign : String) (bs : List (Located Pattern × Located Expr)) :
    Expr.bindingDocs sign (Expr.relocateBindings f bs) = Expr.bindingDocs sign bs := by
  match bs with
  | [] => rfl
  | (_, e) :: bs =>
    rw [Expr.relocateBindings, Expr.bindingDocs, Expr.bindingDocs, Pattern.text_relocate,
      Expr.doc_relocate _ e, Expr.bindingDocs_relocate sign bs]
termination_by structural bs

end

theorem Decl.header_relocate (as : List Modifier) (x : String) (gs : Option (List String))
    (ps : List (String × Located TypeExpr)) (r : Option (Located TypeExpr))
    (ts : List (Located TypeExpr)) :
    Decl.header as x gs (TypeExpr.relocateFields f ps) (r.map (TypeExpr.relocate f))
      (TypeExpr.relocateAll f ts) = Decl.header as x gs ps r ts := by
  have thrown : (TypeExpr.relocateAll f ts).isEmpty = ts.isEmpty := by
    rw [TypeExpr.relocateAll_eq, List.isEmpty_map]
  unfold Decl.header
  rw [TypeExpr.fieldTexts_relocate, TypeExpr.texts_relocate, thrown]
  cases r with
  | none => rfl
  | some r => simp only [Option.map_some, TypeExpr.text_relocate]

mutual

theorem Decl.doc_relocate (d : Located Decl) : Decl.doc (Decl.relocate f d) = Decl.doc d := by
  obtain ⟨d, position⟩ := d
  exact Decl.docNode_relocate d
termination_by structural d

theorem Decl.docNode_relocate (d : Decl) : Decl.docNode (Decl.relocateNode f d) = Decl.docNode d := by
  cases d with
  | function as x gs ps r ts ds e =>
    rw [Decl.relocateNode, Decl.docNode, Decl.docNode, Decl.header_relocate,
      Decl.localDocs_relocate ds, Expr.doc_relocate]
  | typeAlias | exceptionType | exceptionVariant =>
    rw [Decl.relocateNode, Decl.docNode, Decl.docNode, TypeExpr.text_relocate]
termination_by structural d

theorem Decl.localDocs_relocate (ds : List (Located Decl)) :
    Decl.localDocs (Decl.relocateAll f ds) = Decl.localDocs ds := by
  match ds with
  | [] => rfl
  | d :: ds =>
    rw [Decl.relocateAll, Decl.localDocs, Decl.localDocs, Decl.doc_relocate d,
      Decl.localDocs_relocate ds]
termination_by structural ds

end

theorem Program.doc_relocate (p : Located Program) :
    Program.doc (Program.relocate f p) = Program.doc p := by
  have each (d : Located Decl) : Decl.doc (Decl.relocate f d) = Decl.doc d := Decl.doc_relocate f d
  simp only [Program.doc, Program.relocate, Decl.relocateAll_eq, List.map_map, Function.comp_def, each]

end Texts

end StellaLang.Syntax
