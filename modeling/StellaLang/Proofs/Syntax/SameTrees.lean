import StellaLang.Proofs.Syntax.Places

/-! Equality of trees. Equal trees are one and the same tree once the places are taken away. -/
namespace StellaLang.Syntax

/-- No place at all. -/
def nowhere (_ : Option Position) : Option Position :=
  none

mutual

theorem TypeExpr.relocate_same {t u : Located TypeExpr} (equal : TypeExpr.same t u = true) :
    TypeExpr.relocate nowhere t = TypeExpr.relocate nowhere u := by
  obtain ⟨t, _⟩ := t
  obtain ⟨u, _⟩ := u
  exact congrArg (Located.mk · none) (TypeExpr.relocateNode_same equal)
termination_by structural t

theorem TypeExpr.relocateNode_same {t u : TypeExpr} (equal : TypeExpr.sameNode t u = true) :
    TypeExpr.relocateNode nowhere t = TypeExpr.relocateNode nowhere u := by
  cases t with
  | auto | bool | nat | unit | top | bottom =>
    cases u with
    | auto | bool | nat | unit | top | bottom => first | rfl | contradiction
    | _ => contradiction
  | var x =>
    cases u with
    | var y => rw [eq_of_beq equal]
    | _ => contradiction
  | arrow ps r =>
    cases u with
    | arrow qs s =>
      rw [TypeExpr.sameNode, Bool.and_eq_true] at equal
      exact congrArg₂ TypeExpr.arrow (TypeExpr.relocateAll_same equal.1)
        (TypeExpr.relocate_same equal.2)
    | _ => contradiction
  | forAll xs b =>
    cases u with
    | forAll ys c =>
      rw [TypeExpr.sameNode, Bool.and_eq_true, beq_iff_eq] at equal
      exact congrArg₂ TypeExpr.forAll equal.1 (TypeExpr.relocate_same equal.2)
    | _ => contradiction
  | recursive x b =>
    cases u with
    | recursive y c =>
      rw [TypeExpr.sameNode, Bool.and_eq_true, beq_iff_eq] at equal
      exact congrArg₂ TypeExpr.recursive equal.1 (TypeExpr.relocate_same equal.2)
    | _ => contradiction
  | sum l r =>
    cases u with
    | sum l' r' =>
      rw [TypeExpr.sameNode, Bool.and_eq_true] at equal
      exact congrArg₂ TypeExpr.sum (TypeExpr.relocate_same equal.1) (TypeExpr.relocate_same equal.2)
    | _ => contradiction
  | tuple ts =>
    cases u with
    | tuple us => exact congrArg TypeExpr.tuple (TypeExpr.relocateAll_same equal)
    | _ => contradiction
  | record fs =>
    cases u with
    | record gs => exact congrArg TypeExpr.record (TypeExpr.relocateFields_same equal)
    | _ => contradiction
  | variant fs =>
    cases u with
    | variant gs => exact congrArg TypeExpr.variant (TypeExpr.relocateAlternatives_same equal)
    | _ => contradiction
  | list t =>
    cases u with
    | list u => exact congrArg TypeExpr.list (TypeExpr.relocate_same equal)
    | _ => contradiction
  | ref t =>
    cases u with
    | ref u => exact congrArg TypeExpr.ref (TypeExpr.relocate_same equal)
    | _ => contradiction
termination_by structural t

theorem TypeExpr.relocateAll_same {ts us : List (Located TypeExpr)}
    (equal : TypeExpr.sameAll ts us = true) :
    TypeExpr.relocateAll nowhere ts = TypeExpr.relocateAll nowhere us := by
  match ts, us with
  | [], [] => rfl
  | t :: ts, u :: us =>
    rw [TypeExpr.sameAll, Bool.and_eq_true] at equal
    exact congrArg₂ List.cons (TypeExpr.relocate_same equal.1) (TypeExpr.relocateAll_same equal.2)
  | [], _ :: _ => contradiction
  | _ :: _, [] => contradiction
termination_by structural ts

theorem TypeExpr.relocateFields_same {fs gs : List (String × Located TypeExpr)}
    (equal : TypeExpr.sameFields fs gs = true) :
    TypeExpr.relocateFields nowhere fs = TypeExpr.relocateFields nowhere gs := by
  match fs, gs with
  | [], [] => rfl
  | (l, t) :: fs, (m, u) :: gs =>
    rw [TypeExpr.sameFields, Bool.and_eq_true, Bool.and_eq_true, beq_iff_eq] at equal
    obtain ⟨⟨rfl, first⟩, rest⟩ := equal
    exact congrArg₂ (fun t fs => (l, t) :: fs) (TypeExpr.relocate_same first)
      (TypeExpr.relocateFields_same rest)
  | [], _ :: _ => contradiction
  | _ :: _, [] => contradiction
termination_by structural fs

theorem TypeExpr.relocateAlternatives_same {fs gs : List (String × Option (Located TypeExpr))}
    (equal : TypeExpr.sameAlternatives fs gs = true) :
    TypeExpr.relocateAlternatives nowhere fs = TypeExpr.relocateAlternatives nowhere gs := by
  match fs, gs with
  | [], [] => rfl
  | (l, none) :: fs, (m, none) :: gs =>
    rw [TypeExpr.sameAlternatives, Bool.and_eq_true, beq_iff_eq] at equal
    obtain ⟨rfl, rest⟩ := equal
    exact congrArg ((l, none) :: ·) (TypeExpr.relocateAlternatives_same rest)
  | (l, some t) :: fs, (m, some u) :: gs =>
    rw [TypeExpr.sameAlternatives, Bool.and_eq_true, Bool.and_eq_true, beq_iff_eq] at equal
    obtain ⟨⟨rfl, first⟩, rest⟩ := equal
    exact congrArg₂ (fun t fs => (l, some t) :: fs) (TypeExpr.relocate_same first)
      (TypeExpr.relocateAlternatives_same rest)
  | (_, none) :: _, (_, some _) :: _ => contradiction
  | (_, some _) :: _, (_, none) :: _ => contradiction
  | [], _ :: _ => contradiction
  | (_, none) :: _, [] => contradiction
  | (_, some _) :: _, [] => contradiction
termination_by structural fs

end

/-- The same for lists of annotations, which have an equality of their own. -/
theorem TypeExpr.relocateAll_beq {ts us : List (Located TypeExpr)} (equal : (ts == us) = true) :
    TypeExpr.relocateAll nowhere ts = TypeExpr.relocateAll nowhere us := by
  induction ts generalizing us with
  | nil =>
    cases us with
    | nil => rfl
    | cons u us => contradiction
  | cons t ts ih =>
    cases us with
    | nil => contradiction
    | cons u us =>
      rw [List.cons_beq_cons, Bool.and_eq_true] at equal
      exact congrArg₂ List.cons (TypeExpr.relocate_same equal.1) (ih equal.2)

theorem TypeExpr.relocateFields_beq {ps qs : List (String × Located TypeExpr)}
    (equal : (ps == qs) = true) :
    TypeExpr.relocateFields nowhere ps = TypeExpr.relocateFields nowhere qs := by
  induction ps generalizing qs with
  | nil =>
    cases qs with
    | nil => rfl
    | cons q qs => contradiction
  | cons p ps ih =>
    cases qs with
    | nil => contradiction
    | cons q qs =>
      obtain ⟨x, t⟩ := p
      obtain ⟨y, u⟩ := q
      have equal : ((x == y && t == u) && ps == qs) = true := equal
      rw [Bool.and_eq_true, Bool.and_eq_true, beq_iff_eq] at equal
      obtain ⟨⟨rfl, type⟩, rest⟩ := equal
      exact congrArg₂ (fun t fs => (x, t) :: fs) (TypeExpr.relocate_same type) (ih rest)

theorem TypeExpr.map_relocate_beq {r s : Option (Located TypeExpr)} (equal : (r == s) = true) :
    r.map (TypeExpr.relocate nowhere) = s.map (TypeExpr.relocate nowhere) := by
  cases r with
  | none =>
    cases s with
    | none => rfl
    | some s => contradiction
  | some r =>
    cases s with
    | none => contradiction
    | some s => exact congrArg some (TypeExpr.relocate_same equal)

mutual

theorem Pattern.relocate_same {p q : Located Pattern} (equal : Pattern.same p q = true) :
    Pattern.relocate nowhere p = Pattern.relocate nowhere q := by
  obtain ⟨p, _⟩ := p
  obtain ⟨q, _⟩ := q
  exact congrArg (Located.mk · none) (Pattern.relocateNode_same equal)
termination_by structural p

theorem Pattern.relocateNode_same {p q : Pattern} (equal : Pattern.sameNode p q = true) :
    Pattern.relocateNode nowhere p = Pattern.relocateNode nowhere q := by
  cases p with
  | castAs p t =>
    cases q with
    | castAs q u =>
      rw [Pattern.sameNode, Bool.and_eq_true] at equal
      exact congrArg₂ Pattern.castAs (Pattern.relocate_same equal.1)
        (TypeExpr.relocate_same equal.2)
    | _ => contradiction
  | ascribed p t =>
    cases q with
    | ascribed q u =>
      rw [Pattern.sameNode, Bool.and_eq_true] at equal
      exact congrArg₂ Pattern.ascribed (Pattern.relocate_same equal.1)
        (TypeExpr.relocate_same equal.2)
    | _ => contradiction
  | variant l payload =>
    cases payload with
    | none =>
      cases q with
      | variant m payload =>
        cases payload with
        | none => rw [eq_of_beq equal]
        | some _ => contradiction
      | _ => contradiction
    | some p =>
      cases q with
      | variant m payload =>
        cases payload with
        | none => contradiction
        | some q =>
          rw [Pattern.sameNode, Bool.and_eq_true, beq_iff_eq] at equal
          exact congrArg₂ (fun l p => Pattern.variant l (some p)) equal.1
            (Pattern.relocate_same equal.2)
      | _ => contradiction
  | inl p =>
    cases q with
    | inl q => exact congrArg Pattern.inl (Pattern.relocate_same equal)
    | _ => contradiction
  | inr p =>
    cases q with
    | inr q => exact congrArg Pattern.inr (Pattern.relocate_same equal)
    | _ => contradiction
  | succ p =>
    cases q with
    | succ q => exact congrArg Pattern.succ (Pattern.relocate_same equal)
    | _ => contradiction
  | tuple ps =>
    cases q with
    | tuple qs => exact congrArg Pattern.tuple (Pattern.relocateAll_same equal)
    | _ => contradiction
  | list ps =>
    cases q with
    | list qs => exact congrArg Pattern.list (Pattern.relocateAll_same equal)
    | _ => contradiction
  | record fs =>
    cases q with
    | record gs => exact congrArg Pattern.record (Pattern.relocateFields_same equal)
    | _ => contradiction
  | cons h t =>
    cases q with
    | cons h' t' =>
      rw [Pattern.sameNode, Bool.and_eq_true] at equal
      exact congrArg₂ Pattern.cons (Pattern.relocate_same equal.1) (Pattern.relocate_same equal.2)
    | _ => contradiction
  | bool a =>
    cases q with
    | bool b => rw [eq_of_beq equal]
    | _ => contradiction
  | unit =>
    cases q with
    | unit => rfl
    | _ => contradiction
  | nat m =>
    cases q with
    | nat n => rw [eq_of_beq equal]
    | _ => contradiction
  | var x =>
    cases q with
    | var y => rw [eq_of_beq equal]
    | _ => contradiction
termination_by structural p

theorem Pattern.relocateAll_same {ps qs : List (Located Pattern)}
    (equal : Pattern.sameAll ps qs = true) :
    Pattern.relocateAll nowhere ps = Pattern.relocateAll nowhere qs := by
  match ps, qs with
  | [], [] => rfl
  | p :: ps, q :: qs =>
    rw [Pattern.sameAll, Bool.and_eq_true] at equal
    exact congrArg₂ List.cons (Pattern.relocate_same equal.1) (Pattern.relocateAll_same equal.2)
  | [], _ :: _ => contradiction
  | _ :: _, [] => contradiction
termination_by structural ps

theorem Pattern.relocateFields_same {fs gs : List (String × Located Pattern)}
    (equal : Pattern.sameFields fs gs = true) :
    Pattern.relocateFields nowhere fs = Pattern.relocateFields nowhere gs := by
  match fs, gs with
  | [], [] => rfl
  | (l, p) :: fs, (m, q) :: gs =>
    rw [Pattern.sameFields, Bool.and_eq_true, Bool.and_eq_true, beq_iff_eq] at equal
    obtain ⟨⟨rfl, first⟩, rest⟩ := equal
    exact congrArg₂ (fun p fs => (l, p) :: fs) (Pattern.relocate_same first)
      (Pattern.relocateFields_same rest)
  | [], _ :: _ => contradiction
  | _ :: _, [] => contradiction
termination_by structural fs

end

mutual

theorem Expr.relocate_same {e e' : Located Expr} (equal : Expr.same e e' = true) :
    Expr.relocate nowhere e = Expr.relocate nowhere e' := by
  obtain ⟨e, _⟩ := e
  obtain ⟨e', _⟩ := e'
  exact congrArg (Located.mk · none) (Expr.relocateNode_same equal)
termination_by structural e

theorem Expr.relocateNode_same {e e' : Expr} (equal : Expr.sameNode e e' = true) :
    Expr.relocateNode nowhere e = Expr.relocateNode nowhere e' := by
  cases e with
  | sequence a b =>
    cases e' with
    | sequence c d =>
      rw [Expr.sameNode, Bool.and_eq_true] at equal
      exact congrArg₂ Expr.sequence (Expr.relocate_same equal.1) (Expr.relocate_same equal.2)
    | _ => contradiction
  | assign a b =>
    cases e' with
    | assign c d =>
      rw [Expr.sameNode, Bool.and_eq_true] at equal
      exact congrArg₂ Expr.assign (Expr.relocate_same equal.1) (Expr.relocate_same equal.2)
    | _ => contradiction
  | cond a b c =>
    cases e' with
    | cond a' b' c' =>
      simp only [Expr.sameNode, Bool.and_eq_true] at equal
      obtain ⟨⟨first, second⟩, third⟩ := equal
      simp only [Expr.relocateNode, Expr.relocate_same first, Expr.relocate_same second,
        Expr.relocate_same third]
    | _ => contradiction
  | letIn bs e =>
    cases e' with
    | letIn bs' e' =>
      rw [Expr.sameNode, Bool.and_eq_true] at equal
      exact congrArg₂ Expr.letIn (Expr.relocateBindings_same equal.1) (Expr.relocate_same equal.2)
    | _ => contradiction
  | letRec bs e =>
    cases e' with
    | letRec bs' e' =>
      rw [Expr.sameNode, Bool.and_eq_true] at equal
      exact congrArg₂ Expr.letRec (Expr.relocateBindings_same equal.1) (Expr.relocate_same equal.2)
    | _ => contradiction
  | typeAbstraction xs e =>
    cases e' with
    | typeAbstraction ys e' =>
      rw [Expr.sameNode, Bool.and_eq_true, beq_iff_eq] at equal
      exact congrArg₂ Expr.typeAbstraction equal.1 (Expr.relocate_same equal.2)
    | _ => contradiction
  | binary op a b =>
    cases e' with
    | binary op' c d =>
      simp only [Expr.sameNode, Bool.and_eq_true, beq_iff_eq] at equal
      obtain ⟨⟨rfl, first⟩, second⟩ := equal
      simp only [Expr.relocateNode, Expr.relocate_same first, Expr.relocate_same second]
    | _ => contradiction
  | ascribe e t =>
    cases e' with
    | ascribe e' u =>
      rw [Expr.sameNode, Bool.and_eq_true] at equal
      exact congrArg₂ Expr.ascribe (Expr.relocate_same equal.1) (TypeExpr.relocate_same equal.2)
    | _ => contradiction
  | cast e t =>
    cases e' with
    | cast e' u =>
      rw [Expr.sameNode, Bool.and_eq_true] at equal
      exact congrArg₂ Expr.cast (Expr.relocate_same equal.1) (TypeExpr.relocate_same equal.2)
    | _ => contradiction
  | abstraction ps e =>
    cases e' with
    | abstraction qs e' =>
      rw [Expr.sameNode, Bool.and_eq_true] at equal
      exact congrArg₂ Expr.abstraction (TypeExpr.relocateFields_beq equal.1)
        (Expr.relocate_same equal.2)
    | _ => contradiction
  | variant l payload =>
    cases payload with
    | none =>
      cases e' with
      | variant m payload =>
        cases payload with
        | none => rw [eq_of_beq equal]
        | some _ => contradiction
      | _ => contradiction
    | some e =>
      cases e' with
      | variant m payload =>
        cases payload with
        | none => contradiction
        | some e' =>
          rw [Expr.sameNode, Bool.and_eq_true, beq_iff_eq] at equal
          exact congrArg₂ (fun l e => Expr.variant l (some e)) equal.1 (Expr.relocate_same equal.2)
      | _ => contradiction
  | matching e cs =>
    cases e' with
    | matching e' ds =>
      rw [Expr.sameNode, Bool.and_eq_true] at equal
      exact congrArg₂ Expr.matching (Expr.relocate_same equal.1) (Expr.relocateBindings_same equal.2)
    | _ => contradiction
  | list es =>
    cases e' with
    | list es' => exact congrArg Expr.list (Expr.relocateAll_same equal)
    | _ => contradiction
  | unary op e =>
    cases e' with
    | unary op' e' =>
      rw [Expr.sameNode, Bool.and_eq_true, beq_iff_eq] at equal
      exact congrArg₂ Expr.unary equal.1 (Expr.relocate_same equal.2)
    | _ => contradiction
  | application e es =>
    cases e' with
    | application e' es' =>
      rw [Expr.sameNode, Bool.and_eq_true] at equal
      exact congrArg₂ Expr.application (Expr.relocate_same equal.1) (Expr.relocateAll_same equal.2)
    | _ => contradiction
  | typeApplication e ts =>
    cases e' with
    | typeApplication e' us =>
      rw [Expr.sameNode, Bool.and_eq_true] at equal
      exact congrArg₂ Expr.typeApplication (Expr.relocate_same equal.1)
        (TypeExpr.relocateAll_beq equal.2)
    | _ => contradiction
  | field e l =>
    cases e' with
    | field e' m =>
      rw [Expr.sameNode, Bool.and_eq_true, beq_iff_eq] at equal
      exact congrArg₂ Expr.field (Expr.relocate_same equal.1) equal.2
    | _ => contradiction
  | component e i =>
    cases e' with
    | component e' j =>
      rw [Expr.sameNode, Bool.and_eq_true, beq_iff_eq] at equal
      exact congrArg₂ Expr.component (Expr.relocate_same equal.1) equal.2
    | _ => contradiction
  | tuple es =>
    cases e' with
    | tuple es' => exact congrArg Expr.tuple (Expr.relocateAll_same equal)
    | _ => contradiction
  | record fs =>
    cases e' with
    | record gs => exact congrArg Expr.record (Expr.relocateFields_same equal)
    | _ => contradiction
  | cons h t =>
    cases e' with
    | cons h' t' =>
      rw [Expr.sameNode, Bool.and_eq_true] at equal
      exact congrArg₂ Expr.cons (Expr.relocate_same equal.1) (Expr.relocate_same equal.2)
    | _ => contradiction
  | panic =>
    cases e' with
    | panic => rfl
    | _ => contradiction
  | tryCatch e p h =>
    cases e' with
    | tryCatch e' p' h' =>
      simp only [Expr.sameNode, Bool.and_eq_true] at equal
      obtain ⟨⟨body, pattern⟩, handler⟩ := equal
      simp only [Expr.relocateNode, Expr.relocate_same body, Pattern.relocate_same pattern,
        Expr.relocate_same handler]
    | _ => contradiction
  | tryWith a b =>
    cases e' with
    | tryWith c d =>
      rw [Expr.sameNode, Bool.and_eq_true] at equal
      exact congrArg₂ Expr.tryWith (Expr.relocate_same equal.1) (Expr.relocate_same equal.2)
    | _ => contradiction
  | tryCast e t p a b =>
    cases e' with
    | tryCast e' t' p' a' b' =>
      simp only [Expr.sameNode, Bool.and_eq_true] at equal
      obtain ⟨⟨⟨⟨body, type⟩, pattern⟩, success⟩, failure⟩ := equal
      simp only [Expr.relocateNode, Expr.relocate_same body, TypeExpr.relocate_same type,
        Pattern.relocate_same pattern, Expr.relocate_same success, Expr.relocate_same failure]
    | _ => contradiction
  | natRec a b c =>
    cases e' with
    | natRec a' b' c' =>
      simp only [Expr.sameNode, Bool.and_eq_true] at equal
      obtain ⟨⟨first, second⟩, third⟩ := equal
      simp only [Expr.relocateNode, Expr.relocate_same first, Expr.relocate_same second,
        Expr.relocate_same third]
    | _ => contradiction
  | fold t e =>
    cases e' with
    | fold u e' =>
      rw [Expr.sameNode, Bool.and_eq_true] at equal
      exact congrArg₂ Expr.fold (TypeExpr.relocate_same equal.1) (Expr.relocate_same equal.2)
    | _ => contradiction
  | unfold t e =>
    cases e' with
    | unfold u e' =>
      rw [Expr.sameNode, Bool.and_eq_true] at equal
      exact congrArg₂ Expr.unfold (TypeExpr.relocate_same equal.1) (Expr.relocate_same equal.2)
    | _ => contradiction
  | literal a =>
    cases e' with
    | literal b => rw [eq_of_beq equal]
    | _ => contradiction
  | var x =>
    cases e' with
    | var y => rw [eq_of_beq equal]
    | _ => contradiction
termination_by structural e

theorem Expr.relocateAll_same {es es' : List (Located Expr)} (equal : Expr.sameAll es es' = true) :
    Expr.relocateAll nowhere es = Expr.relocateAll nowhere es' := by
  match es, es' with
  | [], [] => rfl
  | e :: es, e' :: es' =>
    rw [Expr.sameAll, Bool.and_eq_true] at equal
    exact congrArg₂ List.cons (Expr.relocate_same equal.1) (Expr.relocateAll_same equal.2)
  | [], _ :: _ => contradiction
  | _ :: _, [] => contradiction
termination_by structural es

theorem Expr.relocateFields_same {fs gs : List (String × Located Expr)}
    (equal : Expr.sameFields fs gs = true) :
    Expr.relocateFields nowhere fs = Expr.relocateFields nowhere gs := by
  match fs, gs with
  | [], [] => rfl
  | (l, e) :: fs, (m, e') :: gs =>
    rw [Expr.sameFields, Bool.and_eq_true, Bool.and_eq_true, beq_iff_eq] at equal
    obtain ⟨⟨rfl, first⟩, rest⟩ := equal
    exact congrArg₂ (fun e fs => (l, e) :: fs) (Expr.relocate_same first)
      (Expr.relocateFields_same rest)
  | [], _ :: _ => contradiction
  | _ :: _, [] => contradiction
termination_by structural fs

theorem Expr.relocateBindings_same {bs cs : List (Located Pattern × Located Expr)}
    (equal : Expr.sameBindings bs cs = true) :
    Expr.relocateBindings nowhere bs = Expr.relocateBindings nowhere cs := by
  match bs, cs with
  | [], [] => rfl
  | (p, e) :: bs, (q, e') :: cs =>
    rw [Expr.sameBindings, Bool.and_eq_true, Bool.and_eq_true] at equal
    obtain ⟨⟨pattern, first⟩, rest⟩ := equal
    rw [Expr.relocateBindings, Expr.relocateBindings, Pattern.relocate_same pattern,
      Expr.relocate_same first, Expr.relocateBindings_same rest]
  | [], _ :: _ => contradiction
  | _ :: _, [] => contradiction
termination_by structural bs

end

mutual

theorem Decl.relocate_same {d d' : Located Decl} (equal : Decl.same d d' = true) :
    Decl.relocate nowhere d = Decl.relocate nowhere d' := by
  obtain ⟨d, _⟩ := d
  obtain ⟨d', _⟩ := d'
  exact congrArg (Located.mk · none) (Decl.relocateNode_same equal)
termination_by structural d

theorem Decl.relocateNode_same {d d' : Decl} (equal : Decl.sameNode d d' = true) :
    Decl.relocateNode nowhere d = Decl.relocateNode nowhere d' := by
  cases d with
  | function as x gs ps r ts ds e =>
    cases d' with
    | function as' x' gs' ps' r' ts' ds' e' =>
      simp only [Decl.sameNode, Bool.and_eq_true, beq_iff_eq] at equal
      obtain ⟨⟨⟨⟨⟨⟨⟨rfl, rfl⟩, rfl⟩, params⟩, result⟩, throws⟩, locals⟩, body⟩ := equal
      rw [Decl.relocateNode, Decl.relocateNode, TypeExpr.relocateFields_beq params,
        TypeExpr.map_relocate_beq result, TypeExpr.relocateAll_beq throws,
        Decl.relocateAll_same locals, Expr.relocate_same body]
    | _ => contradiction
  | typeAlias x t =>
    cases d' with
    | typeAlias y u =>
      rw [Decl.sameNode, Bool.and_eq_true, beq_iff_eq] at equal
      exact congrArg₂ Decl.typeAlias equal.1 (TypeExpr.relocate_same equal.2)
    | _ => contradiction
  | exceptionType t =>
    cases d' with
    | exceptionType u => exact congrArg Decl.exceptionType (TypeExpr.relocate_same equal)
    | _ => contradiction
  | exceptionVariant l t =>
    cases d' with
    | exceptionVariant m u =>
      rw [Decl.sameNode, Bool.and_eq_true, beq_iff_eq] at equal
      exact congrArg₂ Decl.exceptionVariant equal.1 (TypeExpr.relocate_same equal.2)
    | _ => contradiction
termination_by structural d

theorem Decl.relocateAll_same {ds ds' : List (Located Decl)} (equal : Decl.sameAll ds ds' = true) :
    Decl.relocateAll nowhere ds = Decl.relocateAll nowhere ds' := by
  match ds, ds' with
  | [], [] => rfl
  | d :: ds, d' :: ds' =>
    rw [Decl.sameAll, Bool.and_eq_true] at equal
    exact congrArg₂ List.cons (Decl.relocate_same equal.1) (Decl.relocateAll_same equal.2)
  | [], _ :: _ => contradiction
  | _ :: _, [] => contradiction
termination_by structural ds

end

theorem Decl.relocateAll_beq {ds ds' : List (Located Decl)} (equal : (ds == ds') = true) :
    Decl.relocateAll nowhere ds = Decl.relocateAll nowhere ds' := by
  induction ds generalizing ds' with
  | nil =>
    cases ds' with
    | nil => rfl
    | cons d' ds' => contradiction
  | cons d ds ih =>
    cases ds' with
    | nil => contradiction
    | cons d' ds' =>
      rw [List.cons_beq_cons, Bool.and_eq_true] at equal
      exact congrArg₂ List.cons (Decl.relocate_same equal.1) (ih equal.2)

/-- Equal programs differ in nothing but places. -/
theorem Program.relocate_beq {p q : Located Program} (equal : (p == q) = true) :
    Program.relocate nowhere p = Program.relocate nowhere q := by
  have equal : (p.node.extensions == q.node.extensions && p.node.decls == q.node.decls) = true := equal
  rw [Bool.and_eq_true, beq_iff_eq] at equal
  rw [Program.relocate, Program.relocate, equal.1, Decl.relocateAll_beq equal.2]
  rfl

end StellaLang.Syntax
