import StellaLang.Proofs.Typing.CoreSoundness
import StellaLang.Ty.Equality
import StellaLang.Typing.Checker

/-! On the core of the language the checker is complete: it finds the type that the typing rules
give an expression, and no fault. With soundness, it decides the rules there. -/
namespace StellaLang.Typing

open Check
open Syntax (Expr Pattern TypeExpr UnaryOp)

/-- That a checker which looks for errors answers so, and reports nothing. -/
def Returns (x : Check α) (a : α) : Prop :=
  ∀ p : Progress, p.halted = false → p.CacheSound →
    ∃ q : Progress, x p = (a, q) ∧ q.errors = p.errors ∧ q.halted = false ∧ q.CacheSound

namespace Returns

variable {β : Type} {x : Check α} {a : α}

theorem answer (a : α) : Returns (pure a) a :=
  fun p active sound => ⟨p, rfl, rfl, active, sound⟩

theorem bind {f : α → Check β} {b : β} (first : Returns x a) (next : Returns (f a) b) :
    Returns (x >>= f) b := by
  intro p active sound
  obtain ⟨q, ran, errors, active, sound⟩ := first p active sound
  obtain ⟨r, ranNext, more, active, sound⟩ := next q active sound
  refine ⟨r, ?_, more.trans errors, active, sound⟩
  rw [bind_apply, ran]
  exact ranNext

theorem map (first : Returns x a) (f : α → β) : Returns (x >>= fun a => pure (f a)) (f a) :=
  first.bind (.answer (f a))

theorem guarded {skipped : α} (inner : Returns x a) : Returns (Check.guarded skipped x) a := by
  intro p active sound
  rw [guarded_of_active skipped x active]
  exact inner p active sound

theorem judge (ctx : Context) (e : Located Expr) (t : Ty) : Returns (Check.judge ctx e t) () :=
  fun _ active sound => ⟨_, rfl, rfl, active, sound.of_entries rfl⟩

theorem require {ctx : Context} {t u : Ty} {position : Option Position}
    (conforming : ctx.conforms t u = true) : Returns (Check.require ctx t u position) () := by
  rw [Check.require, if_pos conforming]
  exact .answer ()

/-- Steps that keep to the operations of the checker need only answer and be quiet. -/
theorem of_built (built : Built x) (run : ∀ p : Progress, p.halted = false → p.CacheSound →
    (x p).1 = a ∧ (x p).2.errors = p.errors) : Returns x a := by
  intro p active sound
  obtain ⟨answered, errors⟩ := run p active sound
  refine ⟨(x p).2, Prod.ext answered rfl, errors, ?_, built.cacheSound sound⟩
  exact ((built.grown p).quiet errors).trans active

theorem meaning (ctx : Context) {type : Located TypeExpr} (core : (annotated type).isCore = true) :
    Returns (meaning ctx type) (annotated type) := by
  refine .of_built (meaning_follows ctx type).built fun p _ sound => ⟨?_, ?_⟩
  · rw [meaning_answer ctx type sound, denote_core ctx core]
  · rw [meaning_apply]
    split
    · rw [resolve_core ctx [] core]
    split
    · rfl
    · rw [resolve_core ctx [] core]

end Returns

/-- Whether the types of all variables are types of the core. -/
def Assignment.Core (Γ : Assignment) : Prop :=
  ∀ x t, Γ x = some t → t.isCore = true

theorem Assignment.Core.bind {Γ : Assignment} (core : Γ.Core) (x : String) {t : Ty}
    (type : t.isCore = true) : (Γ.bind x t).Core := by
  intro y u found
  rw [Assignment.bind, Function.update_apply] at found
  split at found
  · exact Option.some.inj found ▸ type
  · exact core y u found

theorem Assignment.Core.bindParams {Γ : Assignment} (core : Γ.Core)
    {params : List (String × Located TypeExpr)}
    (all : params.all (fun param => (annotated param.2).isCore) = true) :
    Assignment.Core (Assignment.bindParams Γ params) := by
  induction params generalizing Γ with
  | nil => exact core
  | cons param params ih =>
    rw [List.all_cons, Bool.and_eq_true] at all
    exact ih (core.bind param.1 all.1) all.2

section Completeness

/-- The check of an expression without the frame that a `let` opens. -/
def inside (ctx : Context) (position : Option Position) : Expr → Check Ty
  | .letIn bs body => synthBindings ctx bs >>= fun inner => synth inner body
  | e => synthNode ctx position e

/-- That the checker finds a type for an expression wherever variables have these types. -/
structure Found (Γ : Assignment) (e : Expr) (t : Ty) : Prop where
  core : t.isCore = true
  returns : ∀ ctx position, ctx.subtyping = false → ctx.scope.lookup = Γ →
    Returns (inside ctx position e) t

variable {Γ : Assignment} {ctx : Context} {t : Ty}

theorem Found.of_node {e : Expr} (core : t.isCore = true) (noLet : ∀ ctx position,
      inside ctx position e = synthNode ctx position e)
    (returns : ∀ ctx position, ctx.subtyping = false → ctx.scope.lookup = Γ →
      Returns (synthNode ctx position e) t) : Found Γ e t :=
  ⟨core, fun ctx position exact scope => noLet ctx position ▸ returns ctx position exact scope⟩

theorem Found.synthNode {e : Expr} (found : Found Γ e t) (exact : ctx.subtyping = false)
    (scope : ctx.scope.lookup = Γ) (position : Option Position) :
    Returns (synthNode ctx position e) t := by
  cases e with
  | letIn bs body => exact found.returns ctx.push position exact scope
  | _ => exact found.returns ctx position exact scope

theorem Found.synth {e : Located Expr} (found : Found Γ e.node t) (exact : ctx.subtyping = false)
    (scope : ctx.scope.lookup = Γ) : Returns (synth ctx e) t := by
  obtain ⟨e, position⟩ := e
  refine .guarded ((found.synthNode exact scope position).bind ?_)
  exact (Returns.judge ctx ⟨e, position⟩ t).bind (.answer t)

theorem conforms_self (exact : ctx.subtyping = false) (core : t.isCore = true) :
    ctx.conforms t t = true := by
  rw [Context.conforms, exact]
  exact (Ty.conforms_core_iff core core).mpr rfl

theorem join_self (exact : ctx.subtyping = false) (core : t.isCore = true)
    (position : Option Position) : Returns (Check.join ctx t t position) t := by
  have compatible : compatible ctx t t = true := by
    unfold compatible
    split
    · contradiction
    · rw [related, conforms_self exact core]
      rfl
  rw [Check.join, if_pos compatible, Ty.merge_self core]
  exact .answer t

theorem join_unknown (ctx : Context) (core : t.isCore = true) (position : Option Position) :
    Returns (Check.join ctx .unknown t position) t := by
  rw [Check.join, if_pos (compatible_unknown ctx t), merge_unknown core]
  exact .answer t

theorem Applies.core {op : UnaryOp} {r : Ty} (applies : Applies op t r) (core : t.isCore = true) :
    r.isCore = true := by
  cases applies with
  | succ | pred | isZero | not | isEmpty => rfl
  | fix => simpa [Ty.isCore, Ty.isCoreAll] using core
  | ref | deref | head | tail => exact core

theorem Applies.found {op : UnaryOp} {r : Ty} (applies : Applies op t r) (core : t.isCore = true)
    (exact : ctx.subtyping = false) (operation operand : Option Position) :
    Returns (unaryType ctx operation operand op t) r := by
  have result := applies.core core
  cases applies with
  | succ | pred | isZero | not => exact (Returns.require (conforms_self exact rfl)).map _
  | fix =>
    rw [unaryType, if_pos (conforms_self exact result), Ty.merge_self result]
    exact .answer _
  | ref | deref | head | tail | isEmpty => exact .answer _

theorem Operates.found {op : Syntax.BinaryOp} {r : Ty} {a b : Located Expr}
    (operates : Operates op t r) (left : Found Γ a.node t) (right : Found Γ b.node t) :
    Found Γ (.binary op a b) r := by
  have required (known : operandType? op = (some t, r)) (result : r.isCore = true) :
      Found Γ (.binary op a b) r := by
    refine .of_node result (fun _ _ => rfl) fun ctx position exact scope => ?_
    simp only [Typing.synthNode, known]
    have conforming := conforms_self exact left.core
    refine (left.synth exact scope).bind ((Returns.require conforming).bind ?_)
    exact (right.synth exact scope).bind ((Returns.require conforming).map _)
  have compared (known : operandType? op = (none, r)) (result : r.isCore = true) :
      Found Γ (.binary op a b) r := by
    refine .of_node result (fun _ _ => rfl) fun ctx position exact scope => ?_
    simp only [Typing.synthNode, known]
    refine (left.synth exact scope).bind ((right.synth exact scope).bind ?_)
    exact (join_self exact left.core _).map _
  cases operates with
  | equal | notEqual => exact compared rfl rfl
  | _ => exact required rfl rfl

section Lists

variable {es : List (Located Expr)} {ts : List Ty}
  (each : List.Forall₂ (fun e t => Found Γ (Located.node e) t) es ts)

include each

theorem Found.coreAll : Ty.isCoreAll ts = true := by
  induction each with
  | nil => rfl
  | cons first _ rest =>
    rw [Ty.isCoreAll, first.core, rest]
    rfl

theorem synthAll_found (exact : ctx.subtyping = false) (scope : ctx.scope.lookup = Γ) :
    Returns (synthAll ctx es) ts := by
  induction each with
  | nil => exact .answer []
  | cons first _ rest => exact (first.synth exact scope).bind (rest.map _)

theorem expectEach_found (exact : ctx.subtyping = false) (scope : ctx.scope.lookup = Γ) :
    Returns (expectEach ctx ts es) () := by
  induction each with
  | nil => exact .answer ()
  | cons first _ rest =>
    have conforming := conforms_self exact first.core
    exact (first.synth exact scope).bind ((Returns.require conforming).bind rest)

end Lists

theorem joinAll_found {es : List (Located Expr)} (core : t.isCore = true)
    (each : ∀ e ∈ es, Found Γ e.node t) (exact : ctx.subtyping = false)
    (scope : ctx.scope.lookup = Γ) : Returns (joinAll ctx t es) t := by
  induction es with
  | nil => exact .answer t
  | cons e es ih =>
    obtain ⟨first, rest⟩ := List.forall_mem_cons.mp each
    exact (first.synth exact scope).bind ((join_self exact core _).bind (ih rest))

theorem bindParams_found (params : List (String × Located TypeExpr))
    (all : params.all (fun param => (annotated param.2).isCore) = true)
    (exact : ctx.subtyping = false) : ∃ inner : Context, inner.subtyping = false ∧
      inner.scope.lookup = Assignment.bindParams ctx.scope.lookup params ∧
      Returns (bindParams ctx params) (inner, params.map fun param => annotated param.2) := by
  induction params generalizing ctx with
  | nil => exact ⟨ctx, exact, rfl, .answer _⟩
  | cons param params ih =>
    obtain ⟨x, type⟩ := param
    rw [List.all_cons, Bool.and_eq_true] at all
    have same : (ctx.bind x (annotated type)).subtyping = false := exact
    obtain ⟨inner, mode, types, rest⟩ := ih all.2 same
    rw [Context.lookup_bind] at types
    exact ⟨inner, mode, types, (Returns.meaning ctx all.1).bind (rest.map _)⟩

theorem coreExpr_node (e : Located Expr) : coreExpr e = coreNode e.node := by
  cases e
  rfl

theorem coreExprs_iff {es : List (Located Expr)} :
    coreExprs es = true ↔ ∀ e ∈ es, coreNode e.node = true := by
  induction es with
  | nil => simp [coreExprs]
  | cons e es ih => simp [coreExprs, coreExpr_node, ih]

/-- By induction on the derivation; what the checker finds does not depend on the frames of the
scope, only on the types of variables in it. -/
theorem Typed.found {e : Expr} (typed : Typed Γ e t) (vars : Γ.Core) (core : coreNode e = true) :
    Found Γ e t := by
  induction typed with
  | bool | unit | nat => exact .of_node rfl (fun _ _ => rfl) fun _ _ _ _ => .answer _
  | @var Γ t x found =>
    refine .of_node (vars x t found) (fun _ _ => rfl) fun ctx position exact scope => ?_
    rw [Typing.synthNode, scope, found]
    exact .answer t
  | @abstraction r Γ params e _ body =>
    rw [coreNode, Bool.and_eq_true, coreExpr_node] at core
    have found := body (vars.bindParams core.1) core.2
    have all : Ty.isCoreAll (params.map fun param => annotated param.2) = true := by
      rw [Ty.isCoreAll_iff, List.forall_mem_map]
      exact List.all_eq_true.mp core.1
    refine .of_node ?_ (fun _ _ => rfl) fun ctx position exact scope => ?_
    · rw [Ty.isCore, all, found.core]
      rfl
    · have same : ctx.push.subtyping = false := exact
      obtain ⟨inner, mode, types, bound⟩ := bindParams_found params core.1 same
      rw [show ctx.push.scope.lookup = Γ from scope] at types
      exact bound.bind ((found.synth mode types).map _)
  | application _ length _ function each =>
    rw [coreNode, Bool.and_eq_true, coreExpr_node, coreExprs_iff] at core
    have found := function vars core.1
    have args := List.forall₂_iff_zip.mpr ⟨length, fun {e t} member =>
      each e t member vars (core.2 e (List.of_mem_zip member).1)⟩
    have result := found.core
    rw [Ty.isCore, Bool.and_eq_true] at result
    refine .of_node result.2 (fun _ _ => rfl) fun ctx position exact scope => ?_
    refine (found.synth exact scope).bind ?_
    dsimp only
    rw [if_pos length.symm]
    exact (expectEach_found args exact scope).map _
  | cond _ _ _ condition first second =>
    rw [coreNode, Bool.and_eq_true, Bool.and_eq_true, coreExpr_node, coreExpr_node,
      coreExpr_node] at core
    have tested := condition vars core.1.1
    have one := first vars core.1.2
    have other := second vars core.2
    refine .of_node one.core (fun _ _ => rfl) fun ctx position exact scope => ?_
    refine (tested.synth exact scope).bind ((Returns.require (conforms_self exact rfl)).bind ?_)
    exact (one.synth exact scope).bind ((other.synth exact scope).bind (join_self exact one.core _))
  | letNil _ body =>
    rw [coreNode, coreBindings, Bool.true_and, coreExpr_node] at core
    have found := body vars core
    refine ⟨found.core, fun ctx position exact scope => ?_⟩
    exact (Returns.answer ctx).bind (found.synth exact scope)
  | @letCons Γ u x bs body t position e _ _ bound rest =>
    rw [coreNode, coreBindings, Bool.and_assoc, Bool.and_eq_true, coreExpr_node] at core
    have first := bound vars core.1
    have others := rest (vars.bind x first.core) (by rw [coreNode]; exact core.2)
    refine ⟨others.core, fun ctx position' exact scope => ?_⟩
    have types : (ctx.bind x u).scope.lookup = Assignment.bind Γ x u := by
      rw [Context.lookup_bind, scope]
    have first_then_rest : inside ctx position' (.letIn ((⟨.var x, position⟩, e) :: bs) body) =
        synth ctx e >>= fun t => bindings ctx t ⟨.var x, position⟩ >>= fun bound =>
          inside (ctx.bindAll bound) position' (.letIn bs body) := by
      simp only [inside, synthBindings, bind_assoc]
    rw [first_then_rest]
    refine (first.synth exact scope).bind ?_
    exact (Returns.guarded (.answer [(x, u)])).bind (others.returns (ctx.bind x u) position' exact types)
  | sequence _ _ first second =>
    rw [coreNode, Bool.and_eq_true, coreExpr_node, coreExpr_node] at core
    have one := first vars core.1
    have other := second vars core.2
    refine .of_node other.core (fun _ _ => rfl) fun ctx position exact scope => ?_
    refine (one.synth exact scope).bind ((Returns.require (conforms_self exact rfl)).bind ?_)
    exact other.synth exact scope
  | binary operator _ _ left right =>
    rw [coreNode, Bool.and_eq_true, coreExpr_node, coreExpr_node] at core
    have one := left vars core.1
    have other := right vars core.2
    exact operator.found one other
  | unary operator _ operand =>
    rw [coreNode, Bool.and_eq_true, coreExpr_node] at core
    have found := operand vars core.2
    refine .of_node (operator.core found.core) (fun _ _ => rfl) fun ctx position exact scope => ?_
    exact (found.synth exact scope).bind (operator.found found.core exact position _)
  | natRec _ _ _ count initial step =>
    rw [coreNode, Bool.and_eq_true, Bool.and_eq_true, coreExpr_node, coreExpr_node,
      coreExpr_node] at core
    have counting := count vars core.1.1
    have starting := initial vars core.1.2
    have stepping := step vars core.2
    refine .of_node starting.core (fun _ _ => rfl) fun ctx position exact scope => ?_
    refine (counting.synth exact scope).bind ((Returns.require (conforms_self exact rfl)).bind ?_)
    refine (starting.synth exact scope).bind ((stepping.synth exact scope).bind ?_)
    exact (Returns.require (conforms_self exact stepping.core)).map _
  | tuple length _ each =>
    rw [coreNode, coreExprs_iff] at core
    have elements := List.forall₂_iff_zip.mpr ⟨length, fun {e t} member =>
      each e t member vars (core e (List.of_mem_zip member).1)⟩
    refine .of_node (Found.coreAll elements) (fun _ _ => rfl) fun ctx position exact scope => ?_
    exact (synthAll_found elements exact scope).map _
  | component _ found product =>
    rw [coreNode, coreExpr_node] at core
    have whole := product vars core
    have elements := whole.core
    rw [Ty.isCore, Ty.isCoreAll_iff] at elements
    refine .of_node (elements _ (List.mem_of_getElem? found)) (fun _ _ => rfl) ?_
    intro ctx position exact scope
    refine (whole.synth exact scope).bind ?_
    dsimp only
    rw [found]
    exact .answer _
  | @list es Γ t present _ each =>
    rw [coreNode, Bool.and_eq_true, coreExprs_iff] at core
    have elements := fun e member => each e member vars (core.2 e member)
    cases es with
    | nil => contradiction
    | cons e es =>
      obtain ⟨first, rest⟩ := List.forall_mem_cons.mp elements
      refine .of_node first.core (fun _ _ => rfl) fun ctx position exact scope => ?_
      refine ((first.synth exact scope).bind ?_).map _
      exact (join_unknown ctx first.core _).bind (joinAll_found first.core rest exact scope)
  | cons _ _ first rest =>
    rw [coreNode, Bool.and_eq_true, coreExpr_node, coreExpr_node] at core
    have one := first vars core.1
    have others := rest vars core.2
    refine .of_node others.core (fun _ _ => rfl) fun ctx position exact scope => ?_
    refine (one.synth exact scope).bind ((others.synth exact scope).bind ?_)
    have merged := Ty.merge_self others.core
    refine (Returns.require (conforms_self exact others.core)).bind ?_
    rw [merged]
    exact .answer _
  | assign _ _ target value =>
    rw [coreNode, Bool.and_eq_true, coreExpr_node, coreExpr_node] at core
    have referring := target vars core.1
    have assigned := value vars core.2
    refine .of_node rfl (fun _ _ => rfl) fun ctx position exact scope => ?_
    refine (referring.synth exact scope).bind ((assigned.synth exact scope).bind ?_)
    exact (Returns.require (conforms_self exact assigned.core)).map _
  | ascribe _ inner =>
    rw [coreNode, Bool.and_eq_true, coreExpr_node] at core
    have found := inner vars core.1
    refine .of_node found.core (fun _ _ => rfl) fun ctx position exact scope => ?_
    refine (Returns.meaning ctx core.2).bind ((found.synth exact scope).bind ?_)
    exact (Returns.require (conforms_self exact found.core)).map _

end Completeness

/-- `let f = fn(x : Nat) {return succ(x)}, y = f(0) in if Nat::iszero(y) then [y] else cons(1, [y])` -/
def counting : Located Expr :=
  let nat (n : Nat) : Located Expr := ⟨.literal (.nat n), none⟩
  let var (x : String) : Located Expr := ⟨.var x, none⟩
  let f : Located Expr :=
    ⟨.abstraction [("x", ⟨.nat, none⟩)] ⟨.unary .succ (var "x"), none⟩, none⟩
  let call : Located Expr := ⟨.application (var "f") [nat 0], none⟩
  let single : Located Expr := ⟨.list [var "y"], none⟩
  let choice : Located Expr :=
    ⟨.cond ⟨.unary .isZero (var "y"), none⟩ single ⟨.cons (nat 1) single, none⟩, none⟩
  ⟨.letIn [(⟨.var "f", none⟩, f), (⟨.var "y", none⟩, call)] choice, none⟩

end StellaLang.Typing
