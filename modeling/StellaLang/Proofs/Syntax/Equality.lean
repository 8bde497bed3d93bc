import StellaLang.Proofs.Syntax.SameTrees

/-! Which trees are equal: those that are one and the same tree once the places are taken away. So
equality of trees is an equivalence. -/
namespace StellaLang.Syntax

namespace TypeExpr

mutual

theorem same_of_relocate {t u : Located TypeExpr} (one : relocate nowhere t = relocate nowhere u) :
    same t u = true := by
  obtain ⟨t, _⟩ := t
  obtain ⟨u, _⟩ := u
  exact sameNode_of_relocate (congrArg Located.node one)
termination_by structural t

theorem sameNode_of_relocate {t u : TypeExpr} (one : relocateNode nowhere t = relocateNode nowhere u) :
    sameNode t u = true := by
  cases t with
  | auto | bool | nat | unit | top | bottom => cases u <;> first | rfl | contradiction
  | var x =>
    cases u with
    | var y => exact beq_iff_eq.mpr (var.inj one)
    | _ => contradiction
  | arrow ps r =>
    cases u with
    | arrow qs s =>
      obtain ⟨params, result⟩ := arrow.inj one
      simp only [sameNode, sameAll_of_relocate params, same_of_relocate result, Bool.and_self]
    | _ => contradiction
  | forAll xs b =>
    cases u with
    | forAll ys c =>
      obtain ⟨rfl, body⟩ := forAll.inj one
      simp only [sameNode, same_of_relocate body, beq_self_eq_true, Bool.and_self]
    | _ => contradiction
  | recursive x b =>
    cases u with
    | recursive y c =>
      obtain ⟨rfl, body⟩ := recursive.inj one
      simp only [sameNode, same_of_relocate body, beq_self_eq_true, Bool.and_self]
    | _ => contradiction
  | sum l r =>
    cases u with
    | sum l' r' =>
      obtain ⟨left, right⟩ := sum.inj one
      simp only [sameNode, same_of_relocate left, same_of_relocate right, Bool.and_self]
    | _ => contradiction
  | tuple ts =>
    cases u with
    | tuple us => exact sameAll_of_relocate (tuple.inj one)
    | _ => contradiction
  | record fs =>
    cases u with
    | record gs => exact sameFields_of_relocate (record.inj one)
    | _ => contradiction
  | variant fs =>
    cases u with
    | variant gs => exact sameAlternatives_of_relocate (variant.inj one)
    | _ => contradiction
  | list t =>
    cases u with
    | list u => exact same_of_relocate (list.inj one)
    | _ => contradiction
  | ref t =>
    cases u with
    | ref u => exact same_of_relocate (ref.inj one)
    | _ => contradiction
termination_by structural t

theorem sameAll_of_relocate {ts us : List (Located TypeExpr)}
    (one : relocateAll nowhere ts = relocateAll nowhere us) : sameAll ts us = true := by
  match ts, us with
  | [], [] => rfl
  | t :: ts, u :: us =>
    obtain ⟨first, others⟩ := List.cons.inj one
    simp only [sameAll, same_of_relocate first, sameAll_of_relocate others, Bool.and_self]
  | [], _ :: _ => contradiction
  | _ :: _, [] => contradiction
termination_by structural ts

theorem sameFields_of_relocate {fs gs : List (String × Located TypeExpr)}
    (one : relocateFields nowhere fs = relocateFields nowhere gs) : sameFields fs gs = true := by
  match fs, gs with
  | [], [] => rfl
  | (l, t) :: fs, (m, u) :: gs =>
    obtain ⟨field, others⟩ := List.cons.inj one
    obtain ⟨rfl, first⟩ := Prod.mk.inj field
    simp only [sameFields, same_of_relocate first, sameFields_of_relocate others, beq_self_eq_true,
      Bool.and_self]
  | [], _ :: _ => contradiction
  | _ :: _, [] => contradiction
termination_by structural fs

theorem sameAlternatives_of_relocate {fs gs : List (String × Option (Located TypeExpr))}
    (one : relocateAlternatives nowhere fs = relocateAlternatives nowhere gs) :
    sameAlternatives fs gs = true := by
  match fs, gs with
  | [], [] => rfl
  | (l, none) :: fs, (m, none) :: gs =>
    obtain ⟨field, others⟩ := List.cons.inj one
    obtain ⟨rfl, -⟩ := Prod.mk.inj field
    simp only [sameAlternatives, sameAlternatives_of_relocate others, beq_self_eq_true, Bool.and_self]
  | (l, some t) :: fs, (m, some u) :: gs =>
    obtain ⟨field, others⟩ := List.cons.inj one
    obtain ⟨rfl, first⟩ := Prod.mk.inj field
    simp only [sameAlternatives, same_of_relocate (Option.some.inj first),
      sameAlternatives_of_relocate others, beq_self_eq_true, Bool.and_self]
  | (l, none) :: fs, (m, some u) :: gs => exact absurd (List.cons.inj one).1 (by simp)
  | (l, some t) :: fs, (m, none) :: gs => exact absurd (List.cons.inj one).1 (by simp)
  | [], (_, none) :: _ => contradiction
  | [], (_, some _) :: _ => contradiction
  | (_, none) :: _, [] => contradiction
  | (_, some _) :: _, [] => contradiction
termination_by structural fs

end

theorem beq_of_relocate {t u : Located TypeExpr} (one : relocate nowhere t = relocate nowhere u) :
    (t == u) = true :=
  same_of_relocate one

/-- Two types are equal if they differ in nothing but places. -/
theorem beq_iff {t u : Located TypeExpr} : (t == u) = true ↔ relocate nowhere t = relocate nowhere u :=
  ⟨relocate_same, same_of_relocate⟩

theorem beqAll_of_relocate {ts us : List (Located TypeExpr)}
    (one : relocateAll nowhere ts = relocateAll nowhere us) : (ts == us) = true := by
  induction ts generalizing us with
  | nil =>
    cases us with
    | nil => rfl
    | cons u us => contradiction
  | cons t ts ih =>
    cases us with
    | nil => contradiction
    | cons u us =>
      obtain ⟨first, others⟩ := List.cons.inj one
      rw [List.cons_beq_cons, beq_of_relocate first, ih others, Bool.and_self]

theorem beqFields_of_relocate {fs gs : List (String × Located TypeExpr)}
    (one : relocateFields nowhere fs = relocateFields nowhere gs) : (fs == gs) = true := by
  induction fs generalizing gs with
  | nil =>
    cases gs with
    | nil => rfl
    | cons g gs => contradiction
  | cons f fs ih =>
    cases gs with
    | nil => contradiction
    | cons g gs =>
      obtain ⟨l, t⟩ := f
      obtain ⟨m, u⟩ := g
      obtain ⟨field, others⟩ := List.cons.inj one
      obtain ⟨rfl, first⟩ := Prod.mk.inj field
      show ((l == l && t == u) && fs == gs) = true
      rw [beq_of_relocate first, ih others, beq_self_eq_true, Bool.and_self, Bool.and_self]

theorem beqOption_of_relocate {r s : Option (Located TypeExpr)}
    (one : r.map (relocate nowhere) = s.map (relocate nowhere)) : (r == s) = true := by
  cases r with
  | none =>
    cases s with
    | none => rfl
    | some u => contradiction
  | some t =>
    cases s with
    | none => contradiction
    | some u => exact beq_of_relocate (Option.some.inj one)

end TypeExpr

namespace Pattern

mutual

theorem same_of_relocate {p q : Located Pattern} (one : relocate nowhere p = relocate nowhere q) :
    same p q = true := by
  obtain ⟨p, _⟩ := p
  obtain ⟨q, _⟩ := q
  exact sameNode_of_relocate (congrArg Located.node one)
termination_by structural p

theorem sameNode_of_relocate {p q : Pattern} (one : relocateNode nowhere p = relocateNode nowhere q) :
    sameNode p q = true := by
  cases p with
  | castAs p t =>
    cases q with
    | castAs q u =>
      obtain ⟨inner, type⟩ := castAs.inj one
      simp only [sameNode, same_of_relocate inner, TypeExpr.beq_of_relocate type, Bool.and_self]
    | variant _ payload => cases payload <;> contradiction
    | _ => contradiction
  | ascribed p t =>
    cases q with
    | ascribed q u =>
      obtain ⟨inner, type⟩ := ascribed.inj one
      simp only [sameNode, same_of_relocate inner, TypeExpr.beq_of_relocate type, Bool.and_self]
    | variant _ payload => cases payload <;> contradiction
    | _ => contradiction
  | variant l payload =>
    cases q with
    | variant m payload' =>
      cases payload with
      | none =>
        cases payload' with
        | none => exact beq_iff_eq.mpr (variant.inj one).1
        | some q => exact absurd (variant.inj one).2 nofun
      | some p =>
        cases payload' with
        | none => exact absurd (variant.inj one).2 nofun
        | some q =>
          obtain ⟨rfl, inner⟩ := variant.inj one
          simp only [sameNode, same_of_relocate (Option.some.inj inner), beq_self_eq_true, Bool.and_self]
    | _ => cases payload <;> contradiction
  | inl p =>
    cases q with
    | inl q => exact same_of_relocate (inl.inj one)
    | variant _ payload => cases payload <;> contradiction
    | _ => contradiction
  | inr p =>
    cases q with
    | inr q => exact same_of_relocate (inr.inj one)
    | variant _ payload => cases payload <;> contradiction
    | _ => contradiction
  | tuple ps =>
    cases q with
    | tuple qs => exact sameAll_of_relocate (tuple.inj one)
    | variant _ payload => cases payload <;> contradiction
    | _ => contradiction
  | record fs =>
    cases q with
    | record gs => exact sameFields_of_relocate (record.inj one)
    | variant _ payload => cases payload <;> contradiction
    | _ => contradiction
  | list ps =>
    cases q with
    | list qs => exact sameAll_of_relocate (list.inj one)
    | variant _ payload => cases payload <;> contradiction
    | _ => contradiction
  | cons h t =>
    cases q with
    | cons h' t' =>
      obtain ⟨head, tail⟩ := cons.inj one
      simp only [sameNode, same_of_relocate head, same_of_relocate tail, Bool.and_self]
    | variant _ payload => cases payload <;> contradiction
    | _ => contradiction
  | bool a =>
    cases q with
    | bool b => exact beq_iff_eq.mpr (bool.inj one)
    | variant _ payload => cases payload <;> contradiction
    | _ => contradiction
  | unit =>
    cases q with
    | unit => rfl
    | variant _ payload => cases payload <;> contradiction
    | _ => contradiction
  | nat m =>
    cases q with
    | nat n => exact beq_iff_eq.mpr (nat.inj one)
    | variant _ payload => cases payload <;> contradiction
    | _ => contradiction
  | succ p =>
    cases q with
    | succ q => exact same_of_relocate (succ.inj one)
    | variant _ payload => cases payload <;> contradiction
    | _ => contradiction
  | var x =>
    cases q with
    | var y => exact beq_iff_eq.mpr (var.inj one)
    | variant _ payload => cases payload <;> contradiction
    | _ => contradiction
termination_by structural p

theorem sameAll_of_relocate {ps qs : List (Located Pattern)}
    (one : relocateAll nowhere ps = relocateAll nowhere qs) : sameAll ps qs = true := by
  match ps, qs with
  | [], [] => rfl
  | p :: ps, q :: qs =>
    obtain ⟨first, others⟩ := List.cons.inj one
    simp only [sameAll, same_of_relocate first, sameAll_of_relocate others, Bool.and_self]
  | [], _ :: _ => contradiction
  | _ :: _, [] => contradiction
termination_by structural ps

theorem sameFields_of_relocate {fs gs : List (String × Located Pattern)}
    (one : relocateFields nowhere fs = relocateFields nowhere gs) : sameFields fs gs = true := by
  match fs, gs with
  | [], [] => rfl
  | (l, p) :: fs, (m, q) :: gs =>
    obtain ⟨field, others⟩ := List.cons.inj one
    obtain ⟨rfl, first⟩ := Prod.mk.inj field
    simp only [sameFields, same_of_relocate first, sameFields_of_relocate others, beq_self_eq_true,
      Bool.and_self]
  | [], _ :: _ => contradiction
  | _ :: _, [] => contradiction
termination_by structural fs

end

theorem beq_of_relocate {p q : Located Pattern} (one : relocate nowhere p = relocate nowhere q) :
    (p == q) = true :=
  same_of_relocate one

theorem beq_iff {p q : Located Pattern} : (p == q) = true ↔ relocate nowhere p = relocate nowhere q :=
  ⟨relocate_same, same_of_relocate⟩

end Pattern

namespace Expr

mutual

theorem same_of_relocate {e f : Located Expr} (one : relocate nowhere e = relocate nowhere f) :
    same e f = true := by
  obtain ⟨e, _⟩ := e
  obtain ⟨f, _⟩ := f
  exact sameNode_of_relocate (congrArg Located.node one)
termination_by structural e

theorem sameNode_of_relocate {e f : Expr} (one : relocateNode nowhere e = relocateNode nowhere f) :
    sameNode e f = true := by
  cases e with
  | sequence a b =>
    cases f with
    | sequence c d =>
      obtain ⟨first, second⟩ := sequence.inj one
      simp only [sameNode, same_of_relocate first, same_of_relocate second, Bool.and_self]
    | variant _ payload => cases payload <;> contradiction
    | _ => contradiction
  | assign a b =>
    cases f with
    | assign c d =>
      obtain ⟨target, value⟩ := assign.inj one
      simp only [sameNode, same_of_relocate target, same_of_relocate value, Bool.and_self]
    | variant _ payload => cases payload <;> contradiction
    | _ => contradiction
  | cond a b c =>
    cases f with
    | cond a' b' c' =>
      obtain ⟨condition, first, second⟩ := cond.inj one
      simp only [sameNode, same_of_relocate condition, same_of_relocate first,
        same_of_relocate second, Bool.and_self]
    | variant _ payload => cases payload <;> contradiction
    | _ => contradiction
  | letIn bs e =>
    cases f with
    | letIn bs' e' =>
      obtain ⟨bindings, body⟩ := letIn.inj one
      simp only [sameNode, sameBindings_of_relocate bindings, same_of_relocate body, Bool.and_self]
    | variant _ payload => cases payload <;> contradiction
    | _ => contradiction
  | letRec bs e =>
    cases f with
    | letRec bs' e' =>
      obtain ⟨bindings, body⟩ := letRec.inj one
      simp only [sameNode, sameBindings_of_relocate bindings, same_of_relocate body, Bool.and_self]
    | variant _ payload => cases payload <;> contradiction
    | _ => contradiction
  | typeAbstraction xs e =>
    cases f with
    | typeAbstraction ys e' =>
      obtain ⟨rfl, body⟩ := typeAbstraction.inj one
      simp only [sameNode, same_of_relocate body, beq_self_eq_true, Bool.and_self]
    | variant _ payload => cases payload <;> contradiction
    | _ => contradiction
  | binary op a b =>
    cases f with
    | binary op' c d =>
      obtain ⟨rfl, left, right⟩ := binary.inj one
      simp only [sameNode, same_of_relocate left, same_of_relocate right, beq_self_eq_true,
        Bool.and_self]
    | variant _ payload => cases payload <;> contradiction
    | _ => contradiction
  | ascribe e t =>
    cases f with
    | ascribe e' u =>
      obtain ⟨inner, type⟩ := ascribe.inj one
      simp only [sameNode, same_of_relocate inner, TypeExpr.beq_of_relocate type, Bool.and_self]
    | variant _ payload => cases payload <;> contradiction
    | _ => contradiction
  | cast e t =>
    cases f with
    | cast e' u =>
      obtain ⟨inner, type⟩ := cast.inj one
      simp only [sameNode, same_of_relocate inner, TypeExpr.beq_of_relocate type, Bool.and_self]
    | variant _ payload => cases payload <;> contradiction
    | _ => contradiction
  | abstraction ps e =>
    cases f with
    | abstraction qs e' =>
      obtain ⟨params, body⟩ := abstraction.inj one
      simp only [sameNode, TypeExpr.beqFields_of_relocate params, same_of_relocate body,
        Bool.and_self]
    | variant _ payload => cases payload <;> contradiction
    | _ => contradiction
  | variant l payload =>
    cases f with
    | variant m payload' =>
      cases payload with
      | none =>
        cases payload' with
        | none => exact beq_iff_eq.mpr (variant.inj one).1
        | some f => exact absurd (variant.inj one).2 nofun
      | some e =>
        cases payload' with
        | none => exact absurd (variant.inj one).2 nofun
        | some f =>
          obtain ⟨rfl, inner⟩ := variant.inj one
          simp only [sameNode, same_of_relocate (Option.some.inj inner), beq_self_eq_true, Bool.and_self]
    | _ => cases payload <;> contradiction
  | matching e cs =>
    cases f with
    | matching e' cs' =>
      obtain ⟨scrutinee, cases⟩ := matching.inj one
      simp only [sameNode, same_of_relocate scrutinee, sameBindings_of_relocate cases,
        Bool.and_self]
    | variant _ payload => cases payload <;> contradiction
    | _ => contradiction
  | list es =>
    cases f with
    | list es' => exact sameAll_of_relocate (list.inj one)
    | variant _ payload => cases payload <;> contradiction
    | _ => contradiction
  | unary op e =>
    cases f with
    | unary op' e' =>
      obtain ⟨rfl, operand⟩ := unary.inj one
      simp only [sameNode, same_of_relocate operand, beq_self_eq_true, Bool.and_self]
    | variant _ payload => cases payload <;> contradiction
    | _ => contradiction
  | application e es =>
    cases f with
    | application e' es' =>
      obtain ⟨function, args⟩ := application.inj one
      simp only [sameNode, same_of_relocate function, sameAll_of_relocate args, Bool.and_self]
    | variant _ payload => cases payload <;> contradiction
    | _ => contradiction
  | typeApplication e ts =>
    cases f with
    | typeApplication e' us =>
      obtain ⟨function, types⟩ := typeApplication.inj one
      simp only [sameNode, same_of_relocate function, TypeExpr.beqAll_of_relocate types,
        Bool.and_self]
    | variant _ payload => cases payload <;> contradiction
    | _ => contradiction
  | field e l =>
    cases f with
    | field e' m =>
      obtain ⟨inner, rfl⟩ := field.inj one
      simp only [sameNode, same_of_relocate inner, beq_self_eq_true, Bool.and_self]
    | variant _ payload => cases payload <;> contradiction
    | _ => contradiction
  | component e i =>
    cases f with
    | component e' j =>
      obtain ⟨inner, rfl⟩ := component.inj one
      simp only [sameNode, same_of_relocate inner, beq_self_eq_true, Bool.and_self]
    | variant _ payload => cases payload <;> contradiction
    | _ => contradiction
  | tuple es =>
    cases f with
    | tuple es' => exact sameAll_of_relocate (tuple.inj one)
    | variant _ payload => cases payload <;> contradiction
    | _ => contradiction
  | record fs =>
    cases f with
    | record gs => exact sameFields_of_relocate (record.inj one)
    | variant _ payload => cases payload <;> contradiction
    | _ => contradiction
  | cons h t =>
    cases f with
    | cons h' t' =>
      obtain ⟨head, tail⟩ := cons.inj one
      simp only [sameNode, same_of_relocate head, same_of_relocate tail, Bool.and_self]
    | variant _ payload => cases payload <;> contradiction
    | _ => contradiction
  | panic =>
    cases f with
    | panic => rfl
    | variant _ payload => cases payload <;> contradiction
    | _ => contradiction
  | tryCatch e p h =>
    cases f with
    | tryCatch e' p' h' =>
      obtain ⟨body, pattern, handler⟩ := tryCatch.inj one
      simp only [sameNode, same_of_relocate body, Pattern.beq_of_relocate pattern,
        same_of_relocate handler, Bool.and_self]
    | variant _ payload => cases payload <;> contradiction
    | _ => contradiction
  | tryWith a b =>
    cases f with
    | tryWith c d =>
      obtain ⟨body, fallback⟩ := tryWith.inj one
      simp only [sameNode, same_of_relocate body, same_of_relocate fallback, Bool.and_self]
    | variant _ payload => cases payload <;> contradiction
    | _ => contradiction
  | tryCast e t p a b =>
    cases f with
    | tryCast e' t' p' a' b' =>
      obtain ⟨inner, type, pattern, success, failure⟩ := tryCast.inj one
      simp only [sameNode, same_of_relocate inner, TypeExpr.beq_of_relocate type,
        Pattern.beq_of_relocate pattern, same_of_relocate success, same_of_relocate failure,
        Bool.and_self]
    | variant _ payload => cases payload <;> contradiction
    | _ => contradiction
  | natRec a b c =>
    cases f with
    | natRec a' b' c' =>
      obtain ⟨count, initial, step⟩ := natRec.inj one
      simp only [sameNode, same_of_relocate count, same_of_relocate initial, same_of_relocate step,
        Bool.and_self]
    | variant _ payload => cases payload <;> contradiction
    | _ => contradiction
  | fold t e =>
    cases f with
    | fold u e' =>
      obtain ⟨type, inner⟩ := fold.inj one
      simp only [sameNode, TypeExpr.beq_of_relocate type, same_of_relocate inner, Bool.and_self]
    | variant _ payload => cases payload <;> contradiction
    | _ => contradiction
  | unfold t e =>
    cases f with
    | unfold u e' =>
      obtain ⟨type, inner⟩ := unfold.inj one
      simp only [sameNode, TypeExpr.beq_of_relocate type, same_of_relocate inner, Bool.and_self]
    | variant _ payload => cases payload <;> contradiction
    | _ => contradiction
  | literal a =>
    cases f with
    | literal b => exact beq_iff_eq.mpr (literal.inj one)
    | variant _ payload => cases payload <;> contradiction
    | _ => contradiction
  | var x =>
    cases f with
    | var y => exact beq_iff_eq.mpr (var.inj one)
    | variant _ payload => cases payload <;> contradiction
    | _ => contradiction
termination_by structural e

theorem sameAll_of_relocate {es fs : List (Located Expr)}
    (one : relocateAll nowhere es = relocateAll nowhere fs) : sameAll es fs = true := by
  match es, fs with
  | [], [] => rfl
  | e :: es, f :: fs =>
    obtain ⟨first, others⟩ := List.cons.inj one
    simp only [sameAll, same_of_relocate first, sameAll_of_relocate others, Bool.and_self]
  | [], _ :: _ => contradiction
  | _ :: _, [] => contradiction
termination_by structural es

theorem sameFields_of_relocate {fs gs : List (String × Located Expr)}
    (one : relocateFields nowhere fs = relocateFields nowhere gs) : sameFields fs gs = true := by
  match fs, gs with
  | [], [] => rfl
  | (l, e) :: fs, (m, f) :: gs =>
    obtain ⟨field, others⟩ := List.cons.inj one
    obtain ⟨rfl, first⟩ := Prod.mk.inj field
    simp only [sameFields, same_of_relocate first, sameFields_of_relocate others, beq_self_eq_true,
      Bool.and_self]
  | [], _ :: _ => contradiction
  | _ :: _, [] => contradiction
termination_by structural fs

theorem sameBindings_of_relocate {bs cs : List (Located Pattern × Located Expr)}
    (one : relocateBindings nowhere bs = relocateBindings nowhere cs) : sameBindings bs cs = true := by
  match bs, cs with
  | [], [] => rfl
  | (p, e) :: bs, (q, f) :: cs =>
    obtain ⟨binding, others⟩ := List.cons.inj one
    obtain ⟨pattern, first⟩ := Prod.mk.inj binding
    simp only [sameBindings, Pattern.beq_of_relocate pattern, same_of_relocate first,
      sameBindings_of_relocate others, Bool.and_self]
  | [], _ :: _ => contradiction
  | _ :: _, [] => contradiction
termination_by structural bs

end

/-- Two expressions are equal if they differ in nothing but places. -/
theorem beq_iff {e f : Located Expr} : (e == f) = true ↔ relocate nowhere e = relocate nowhere f :=
  ⟨relocate_same, same_of_relocate⟩

instance : EquivBEq (Located Expr) where
  rfl := beq_iff.mpr rfl
  symm equal := beq_iff.mpr (beq_iff.mp equal).symm
  trans first second := beq_iff.mpr ((beq_iff.mp first).trans (beq_iff.mp second))

end Expr

namespace Decl

mutual

theorem same_of_relocate {d d' : Located Decl} (one : relocate nowhere d = relocate nowhere d') :
    same d d' = true := by
  obtain ⟨d, _⟩ := d
  obtain ⟨d', _⟩ := d'
  exact sameNode_of_relocate (congrArg Located.node one)
termination_by structural d

theorem sameNode_of_relocate {d d' : Decl} (one : relocateNode nowhere d = relocateNode nowhere d') :
    sameNode d d' = true := by
  cases d with
  | function as x gs ps r ts ds e =>
    cases d' with
    | function as' x' gs' ps' r' ts' ds' e' =>
      simp only [relocateNode, function.injEq] at one
      obtain ⟨rfl, rfl, rfl, params, result, throws, locals, body⟩ := one
      simp only [sameNode, beq_self_eq_true, TypeExpr.beqFields_of_relocate params,
        TypeExpr.beqOption_of_relocate result, TypeExpr.beqAll_of_relocate throws,
        sameAll_of_relocate locals, Expr.beq_iff.mpr body, Bool.and_self]
    | _ => contradiction
  | typeAlias x t =>
    cases d' with
    | typeAlias y u =>
      obtain ⟨rfl, type⟩ := typeAlias.inj one
      simp only [sameNode, TypeExpr.beq_of_relocate type, beq_self_eq_true, Bool.and_self]
    | _ => contradiction
  | exceptionType t =>
    cases d' with
    | exceptionType u => exact TypeExpr.beq_of_relocate (exceptionType.inj one)
    | _ => contradiction
  | exceptionVariant l t =>
    cases d' with
    | exceptionVariant m u =>
      obtain ⟨rfl, type⟩ := exceptionVariant.inj one
      simp only [sameNode, TypeExpr.beq_of_relocate type, beq_self_eq_true, Bool.and_self]
    | _ => contradiction
termination_by structural d

theorem sameAll_of_relocate {ds ds' : List (Located Decl)}
    (one : relocateAll nowhere ds = relocateAll nowhere ds') : sameAll ds ds' = true := by
  match ds, ds' with
  | [], [] => rfl
  | d :: ds, d' :: ds' =>
    obtain ⟨first, others⟩ := List.cons.inj one
    simp only [sameAll, same_of_relocate first, sameAll_of_relocate others, Bool.and_self]
  | [], _ :: _ => contradiction
  | _ :: _, [] => contradiction
termination_by structural ds

end

theorem beq_iff {d d' : Located Decl} : (d == d') = true ↔ relocate nowhere d = relocate nowhere d' :=
  ⟨relocate_same, same_of_relocate⟩

theorem beqAll_of_relocate {ds ds' : List (Located Decl)}
    (one : relocateAll nowhere ds = relocateAll nowhere ds') : (ds == ds') = true := by
  induction ds generalizing ds' with
  | nil =>
    cases ds' with
    | nil => rfl
    | cons d' ds' => contradiction
  | cons d ds ih =>
    cases ds' with
    | nil => contradiction
    | cons d' ds' =>
      obtain ⟨first, others⟩ := List.cons.inj one
      rw [List.cons_beq_cons, beq_iff.mpr first, ih others, Bool.and_self]

end Decl

theorem Program.beq_iff {p q : Located Program} :
    (p == q) = true ↔ Program.relocate nowhere p = Program.relocate nowhere q := by
  refine ⟨Program.relocate_beq, fun one => ?_⟩
  have program := congrArg Located.node one
  simp only [Program.relocate, Program.mk.injEq] at program
  show (p.node.extensions == q.node.extensions && p.node.decls == q.node.decls) = true
  rw [program.1, Decl.beqAll_of_relocate program.2, beq_self_eq_true, Bool.and_self]

end StellaLang.Syntax
