import StellaLang.Proofs.Syntax.Places
import StellaLang.Proofs.Typing.Findings

/-! Checking under other places. In contexts in which names mean the same, a tree and the same tree at
other places have one type, and the same faults are found in them, in the same order. -/
namespace StellaLang.Typing

open Syntax (Decl Expr Pattern TypeExpr UnaryOp)
open Check Agree

variable {f : Option Position → Option Position} {ctx ctx' : Context}

theorem report_relocated (fault : Fault) (position : Option Position) :
    Agree (Moved f) Eq (report fault position) (report fault (f position)) :=
  .report (.report f fault position)

section Annotations

mutual

theorem resolve_relocated (same : ctx.SameTypes ctx') (bound : List String) (t : Located TypeExpr) :
    Agree (Moved f) Eq (resolve ctx bound t) (resolve ctx' bound (TypeExpr.relocate f t)) := by
  obtain ⟨t, position⟩ := t
  exact resolveNode_relocated same bound position t
termination_by structural t

theorem resolveNode_relocated (same : ctx.SameTypes ctx') (bound : List String)
    (position : Option Position) (t : TypeExpr) :
    Agree (Moved f) Eq (resolveNode ctx bound position t)
      (resolveNode ctx' bound (f position) (TypeExpr.relocateNode f t)) := by
  cases t with
  | auto | bool | nat | unit | top | bottom => exact .same _
  | var x =>
    have aliases : ctx'.aliases = ctx.aliases := congrArg Environment.aliases same.environment
    simp only [TypeExpr.relocateNode, resolveNode]
    rw [same.typeVars x, aliases]
    split
    · exact .same _
    · cases ctx.aliases.lookup x with
      | some t => exact .same t
      | none => exact report_relocated _ position
  | arrow ps r =>
    exact .andThen (resolveAll_relocated same bound ps) fun _ =>
      .map (resolve_relocated same bound r) _
  | forAll xs b => exact .map (resolve_relocated same (bound ++ xs) b) _
  | recursive x b => exact .map (resolve_relocated same (bound ++ [x]) b) _
  | sum l r =>
    exact .andThen (resolve_relocated same bound l) fun _ => .map (resolve_relocated same bound r) _
  | tuple ts => exact .map (resolveAll_relocated same bound ts) _
  | record fs => exact .map (resolveFields_relocated same bound fs) _
  | variant fs => exact .map (resolveAlternatives_relocated same bound fs) _
  | list t => exact .map (resolve_relocated same bound t) _
  | ref t => exact .map (resolve_relocated same bound t) _
termination_by structural t

theorem resolveAll_relocated (same : ctx.SameTypes ctx') (bound : List String)
    (ts : List (Located TypeExpr)) :
    Agree (Moved f) Eq (resolveAll ctx bound ts) (resolveAll ctx' bound (TypeExpr.relocateAll f ts)) := by
  match ts with
  | [] => exact .same _
  | t :: ts =>
    exact .andThen (resolve_relocated same bound t) fun _ => .map (resolveAll_relocated same bound ts) _
termination_by structural ts

theorem resolveFields_relocated (same : ctx.SameTypes ctx') (bound : List String)
    (fs : List (String × Located TypeExpr)) :
    Agree (Moved f) Eq (resolveFields ctx bound fs)
      (resolveFields ctx' bound (TypeExpr.relocateFields f fs)) := by
  match fs with
  | [] => exact .same _
  | (l, t) :: fs =>
    exact .andThen (resolve_relocated same bound t) fun _ =>
      .map (resolveFields_relocated same bound fs) _
termination_by structural fs

theorem resolveAlternatives_relocated (same : ctx.SameTypes ctx') (bound : List String)
    (fs : List (String × Option (Located TypeExpr))) :
    Agree (Moved f) Eq (resolveAlternatives ctx bound fs)
      (resolveAlternatives ctx' bound (TypeExpr.relocateAlternatives f fs)) := by
  match fs with
  | [] => exact .same _
  | (l, none) :: fs => exact .map (resolveAlternatives_relocated same bound fs) _
  | (l, some t) :: fs =>
    exact .andThen (resolve_relocated same bound t) fun _ =>
      .map (resolveAlternatives_relocated same bound fs) _
termination_by structural fs

end

theorem meaning_relocated (same : ctx.SameTypes ctx') (t : Located TypeExpr) :
    Agree (Moved f) Eq (meaning ctx t) (meaning ctx' (TypeExpr.relocate f t)) :=
  .meaning (resolve_relocated same [] t)

theorem meanings_relocated (same : ctx.SameTypes ctx') (ts : List (Located TypeExpr)) :
    Agree (Moved f) Eq (meanings ctx ts) (meanings ctx' (TypeExpr.relocateAll f ts)) := by
  induction ts with
  | nil => exact .same _
  | cons t ts ih => exact .andThen (meaning_relocated same t) fun _ => .map ih _

end Annotations

theorem require_relocated (same : ctx.SameTypes ctx') (found expected : Ty) (position : Option Position) :
    Agree (Moved f) Eq (require ctx found expected position)
      (require ctx' found expected (f position)) := by
  unfold Check.require
  rw [same.conforms]
  split
  · exact .same ()
  · exact .map (report_relocated _ position) _

section Patterns

theorem unexpectedPattern_relocated (t : Ty) (position : Option Position) :
    Agree (Moved f) Eq (unexpectedPattern t position) (unexpectedPattern t (f position)) :=
  .map (report_relocated _ position) _

theorem literalBindings_relocated (same : ctx.SameTypes ctx') (t expected : Ty)
    (position : Option Position) :
    Agree (Moved f) Eq (literalBindings ctx t expected position)
      (literalBindings ctx' t expected (f position)) := by
  unfold literalBindings
  rw [same.conforms]
  split
  · exact .same []
  · exact unexpectedPattern_relocated t position

end Patterns

section Operations

theorem compatible_relocated (same : ctx.SameTypes ctx') (t u : Ty) :
    Check.compatible ctx' t u = Check.compatible ctx t u := by
  unfold Check.compatible Check.compatibleAlternatives Check.related
  simp only [same.conforms]

theorem join_relocated (same : ctx.SameTypes ctx') (t u : Ty) (position : Option Position) :
    Agree (Moved f) Eq (Check.join ctx t u position) (Check.join ctx' t u (f position)) := by
  unfold Check.join
  rw [compatible_relocated same]
  split
  · exact .same _
  · exact report_relocated _ position

theorem eliminate_relocated (found : Ty) (fault : Ty → Fault) (position : Option Position) :
    Agree (Moved f) Eq (eliminate found fault position) (eliminate found fault (f position)) := by
  unfold eliminate
  split
  · exact .same _
  split
  · exact .same _
  · exact report_relocated _ position

theorem unaryType_relocated (same : ctx.SameTypes ctx') (operation operand : Option Position)
    (op : UnaryOp) (t : Ty) :
    Agree (Moved f) Eq (unaryType ctx operation operand op t)
      (unaryType ctx' (f operation) (f operand) op t) := by
  have required (expected answer : Ty) : Agree (Moved f) Eq
      (Check.require ctx t expected operand >>= fun _ => pure answer)
      (Check.require ctx' t expected (f operand) >>= fun _ => pure answer) :=
    .map (require_relocated same t expected operand) _
  cases op with
  | ref | inl | inr => exact .same _
  | succ | pred | isZero | not => exact required _ _
  | deref =>
    cases t with
    | ref => exact .same _
    | _ => exact eliminate_relocated _ _ operand
  | head | tail =>
    cases t with
    | list => exact .same _
    | _ => exact eliminate_relocated _ _ operand
  | isEmpty =>
    cases t with
    | list => exact .same _
    | _ => exact .map (eliminate_relocated _ _ operand) _
  | fix =>
    cases t with
    | arrow ps r =>
      match ps with
      | [p] =>
        unfold unaryType
        dsimp only
        rw [same.conforms]
        split
        · exact .same _
        · exact report_relocated _ operand
      | [] | _ :: _ :: _ => exact eliminate_relocated _ _ operand
    | _ => exact eliminate_relocated _ _ operand
  | throw =>
    rw [unaryType, unaryType, same.exception?]
    cases ctx.exception? with
    | some exception => exact required _ _
    | none => exact .map (report_relocated _ operation) _

end Operations

end StellaLang.Typing
