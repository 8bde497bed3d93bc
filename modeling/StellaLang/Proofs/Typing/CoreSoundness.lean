import StellaLang.Proofs.Typing.Core
import StellaLang.Proofs.Typing.FollowingExpr

/-! On the core of the language the checker is sound: where it finds no fault in an expression,
the typing rules give the expression the type it finds. -/
namespace StellaLang.Typing

open Check
open Syntax (Expr Pattern TypeExpr UnaryOp)

/-- A context of the core: types are compared exactly, and variables have types of the core. -/
structure Context.Core (ctx : Context) : Prop where
  exact : ctx.subtyping = false
  vars : ∀ x t, ctx.scope.lookup x = some t → t.isCore = true

namespace Context

variable {ctx : Context}

theorem lookup_bind (x : String) (t : Ty) :
    (ctx.bind x t).scope.lookup = Assignment.bind ctx.scope.lookup x t := by
  funext y
  rw [Context.bind, Scope.lookup_bind, Assignment.bind, Function.update_apply]

namespace Core

theorem push (core : ctx.Core) : ctx.push.Core :=
  ⟨core.exact, core.vars⟩

theorem bind (core : ctx.Core) (x : String) {t : Ty} (type : t.isCore = true) : (ctx.bind x t).Core := by
  refine ⟨core.exact, fun y u found => ?_⟩
  rw [Context.bind, Scope.lookup_bind] at found
  split at found
  · exact Option.some.inj found ▸ type
  · exact core.vars y u found

theorem conforms_iff (core : ctx.Core) {t u : Ty} (first : t.isCore = true) (second : u.isCore = true) :
    ctx.conforms t u = true ↔ t = u := by
  rw [Context.conforms, core.exact]
  exact Ty.conforms_core_iff first second

theorem compatible_iff (core : ctx.Core) {t u : Ty} (first : t.isCore = true)
    (second : u.isCore = true) : compatible ctx t u = true ↔ t = u := by
  unfold compatible
  split
  · contradiction
  · rw [related, Bool.or_eq_true, core.conforms_iff first second, core.conforms_iff second first]
    exact ⟨fun same => same.elim id Eq.symm, .inl⟩

end Core

end Context

section Unknown

variable (ctx : Context)

/-- The elements of a list start from an unknown type, which is related to any other. -/
theorem compatible_unknown (t : Ty) : compatible ctx .unknown t = true := by
  rw [compatible, related, Context.conforms, Ty.conforms_of_wildcard rfl]
  · rfl
  · simp

theorem merge_unknown {t : Ty} (core : t.isCore = true) : Ty.unknown.merge t = t := by
  cases t <;> first | contradiction | simp [Ty.merge, Ty.isError, Ty.isWildcard]

end Unknown

section Soundness

variable {kept : Judgement → Prop} {given : Prop} {ctx : Context}

theorem require_sound {t u : Ty} {position : Option Position}
    (enough : given → ctx.Core ∧ t.isCore = true ∧ u.isCore = true) :
    Yields kept given (fun _ => t = u) (Check.require ctx t u position) := by
  refine Yields.require.imp id fun _ present conforming => ?_
  obtain ⟨core, first, second⟩ := enough present
  exact (core.conforms_iff first second).mp conforming

theorem join_sound {t u : Ty} {position : Option Position}
    (enough : given → ctx.Core ∧ t.isCore = true ∧ u.isCore = true) :
    Yields kept given (fun r => t = u ∧ r = t) (Check.join ctx t u position) := by
  unfold Check.join
  split
  · rename_i compatible
    refine .answer fun present => ?_
    obtain ⟨core, first, second⟩ := enough present
    obtain rfl := (core.compatible_iff first second).mp compatible
    exact ⟨rfl, Ty.merge_self first⟩
  · exact Yields.report.imp id fun _ _ => False.elim

theorem join_unknown_sound {t : Ty} {position : Option Position} (enough : given → t.isCore = true) :
    Yields kept given (fun r => r = t) (Check.join ctx .unknown t position) := by
  rw [Check.join, if_pos (compatible_unknown ctx t)]
  exact .answer fun present => merge_unknown (enough present)

theorem eliminate_sound {t : Ty} {fault : Ty → Fault} {position : Option Position}
    (enough : given → t.isCore = true) :
    Yields kept given (fun _ => False) (eliminate t fault position) := by
  unfold eliminate
  split
  · refine .answer fun present => ?_
    cases t <;> simp_all [Ty.isError, Ty.isCore]
  split
  · exact .answer fun present => by simp_all [Ty.isWildcard_of_isCore (enough present)]
  · exact .report

theorem unaryType_sound (operation operand : Option Position) {op : UnaryOp}
    (core : coreOperator op = true) (t : Ty) :
    Yields kept (ctx.Core ∧ t.isCore = true) (fun r => r.isCore = true ∧ Applies op t r)
      (unaryType ctx operation operand op t) := by
  have refused {fault : Ty → Fault} {good : Ty → Prop} :
      Yields kept (ctx.Core ∧ t.isCore = true) good (eliminate t fault operand) :=
    (eliminate_sound And.right).imp id fun _ _ => False.elim
  have required {expected answer : Ty} (known : expected.isCore = true) (result : answer.isCore = true)
      (applies : Applies op expected answer) :
      Yields kept (ctx.Core ∧ t.isCore = true) (fun r => r.isCore = true ∧ Applies op t r)
        (Check.require ctx t expected operand >>= fun _ => pure answer) := by
    refine (require_sound fun ⟨core, type⟩ => ⟨core, type, known⟩).map ?_
    rintro _ ⟨rfl, -⟩
    exact ⟨result, applies⟩
  cases op with
  | ref => exact .answer fun ⟨_, type⟩ => ⟨type, .ref t⟩
  | succ => exact required rfl rfl .succ
  | pred => exact required rfl rfl .pred
  | isZero => exact required rfl rfl .isZero
  | not => exact required rfl rfl .not
  | deref =>
    cases t with
    | ref u => exact .answer fun ⟨_, type⟩ => ⟨type, .deref u⟩
    | _ => exact refused
  | head =>
    cases t with
    | list u => exact .answer fun ⟨_, type⟩ => ⟨type, .head u⟩
    | _ => exact refused
  | tail =>
    cases t with
    | list u => exact .answer fun ⟨_, type⟩ => ⟨type, .tail u⟩
    | _ => exact refused
  | isEmpty =>
    cases t with
    | list u => exact .answer fun _ => ⟨rfl, .isEmpty u⟩
    | _ => exact (eliminate_sound And.right).map fun _ h => h.1.elim
  | fix =>
    cases t with
    | arrow ps r =>
      match ps with
      | [p] =>
        unfold unaryType
        dsimp only
        split
        · rename_i conforming
          refine .answer fun ⟨core, type⟩ => ?_
          simp only [Ty.isCore, Ty.isCoreAll, Bool.and_true, Bool.and_eq_true] at type
          obtain rfl := (core.conforms_iff type.2 type.1).mp conforming
          rw [Ty.merge_self type.1]
          exact ⟨type.1, .fix r⟩
        · exact Yields.report.imp id fun _ _ => False.elim
      | [] | _ :: _ :: _ => exact refused
    | _ => exact refused
  | inl | inr | throw => contradiction

theorem meaning_sound {type : Located TypeExpr} (core : (annotated type).isCore = true) :
    Yields kept given (fun t => t = annotated type) (meaning ctx type) := by
  refine .meaning ⟨(resolve_follows ctx [] type).built, fun _ p _ => ?_⟩ fun _ => denote_core ctx core
  rw [resolve_core ctx [] core]
  exact ⟨rfl, [], rfl, by simp⟩

theorem bindParams_sound (ctx : Context) (params : List (String × Located TypeExpr))
    (core : params.all (fun param => (annotated param.2).isCore) = true) :
    Yields kept ctx.Core (fun (inner, ts) => inner.Core ∧ Ty.isCoreAll ts = true ∧
        inner.scope.lookup = Assignment.bindParams ctx.scope.lookup params ∧
        ts = params.map fun param => annotated param.2)
      (bindParams ctx params) := by
  induction params generalizing ctx with
  | nil => exact .answer fun inner => ⟨inner, rfl, rfl, rfl⟩
  | cons param params ih =>
    obtain ⟨x, type⟩ := param
    rw [List.all_cons, Bool.and_eq_true] at core
    refine .bind (meaning_sound core.1) fun t => ?_
    refine .map ((ih (ctx.bind x t) core.2).of_given fun ⟨stands, inner⟩ =>
      inner.bind x (stands ▸ core.1)) ?_
    rintro ⟨last, ts⟩ ⟨⟨inner, all, types, rest⟩, rfl, _⟩
    rw [Context.lookup_bind] at types
    refine ⟨inner, ?_, types, congrArg _ rest⟩
    rw [Ty.isCoreAll, Bool.and_eq_true]
    exact ⟨core.1, all⟩

mutual

theorem synth_sound (ctx : Context) {e : Located Expr} (core : coreExpr e = true) :
    Yields (fun _ => True) ctx.Core
      (fun t => t.isCore = true ∧ Typed ctx.scope.lookup e.node t) (synth ctx e) := by
  obtain ⟨e, position⟩ := e
  refine .guarded (.bind (synthNode_sound ctx position core) fun t => ?_)
  exact .bind (.judge fun _ => trivial) fun _ => .answer fun h => h.2.1
termination_by structural e

theorem synthNode_sound (ctx : Context) (position : Option Position) {e : Expr}
    (core : coreNode e = true) :
    Yields (fun _ => True) ctx.Core
      (fun t => t.isCore = true ∧ Typed ctx.scope.lookup e t) (synthNode ctx position e) := by
  cases e with
  | sequence a b =>
    rw [coreNode, Bool.and_eq_true] at core
    refine .bind (synth_sound ctx core.1) fun t => ?_
    refine .bind (require_sound fun ⟨⟨type, _⟩, inner⟩ => ⟨inner, type, rfl⟩) fun _ => ?_
    refine (synth_sound ctx core.2).imp (fun ⟨_, _, inner⟩ => inner) ?_
    rintro u ⟨rfl, ⟨_, first⟩, _⟩ ⟨type, second⟩
    exact ⟨type, .sequence first second⟩
  | assign target value =>
    rw [coreNode, Bool.and_eq_true] at core
    refine .bind (synth_sound ctx core.1) fun t => ?_
    have assigned : Yields (fun _ => True)
        ((t.isCore = true ∧ Typed ctx.scope.lookup target.node t) ∧ ctx.Core)
        (fun u => u.isCore = true ∧ Typed ctx.scope.lookup value.node u) (synth ctx value) :=
      (synth_sound ctx core.2).of_given And.right
    cases t with
    | ref referent =>
      refine assigned.bind fun u => .map (require_sound fun ⟨⟨type, _⟩, ⟨referring, _⟩, inner⟩ =>
        ⟨inner, type, referring⟩) ?_
      rintro _ ⟨rfl, ⟨_, second⟩, ⟨_, first⟩, _⟩
      exact ⟨rfl, .assign first second⟩
    | never | unknown | error => exact assigned.map fun _ ⟨_, ⟨type, _⟩, _⟩ => by contradiction
    | _ => exact assigned.bind fun _ => Yields.report.bind fun _ => .answer fun h => h.1.elim
  | cond condition a b =>
    rw [coreNode, Bool.and_eq_true, Bool.and_eq_true] at core
    refine .bind (synth_sound ctx core.1.1) fun t => ?_
    refine .bind (require_sound fun ⟨⟨type, _⟩, inner⟩ => ⟨inner, type, rfl⟩) fun _ => ?_
    refine .bind ((synth_sound ctx core.1.2).of_given fun ⟨_, _, inner⟩ => inner) fun first => ?_
    refine .bind ((synth_sound ctx core.2).of_given fun ⟨_, _, _, inner⟩ => inner) fun second => ?_
    refine (join_sound fun ⟨⟨type, _⟩, ⟨type', _⟩, _, _, inner⟩ => ⟨inner, type', type⟩).imp id ?_
    rintro r ⟨⟨_, other⟩, ⟨type, one⟩, rfl, ⟨_, tested⟩, _⟩ ⟨rfl, rfl⟩
    exact ⟨type, .cond tested one other⟩
  | letIn bs body =>
    rw [coreNode, Bool.and_eq_true] at core
    refine .bind ((synthBindings_sound ctx.push core.1).of_given .push) fun inner => ?_
    refine (synth_sound inner core.2).imp (fun h => h.1.1) ?_
    rintro t ⟨⟨_, around⟩, _⟩ ⟨type, typed⟩
    exact ⟨type, around body t typed⟩
  | binary op a b =>
    rw [coreNode, Bool.and_eq_true] at core
    refine .bind (synth_sound ctx core.1) fun first => ?_
    have asked {operand answer : Ty} (known : operand.isCore = true) (result : answer.isCore = true)
        (operates : Operates op operand answer) : Yields (fun _ => True)
          ((first.isCore = true ∧ Typed ctx.scope.lookup a.node first) ∧ ctx.Core)
          (fun t => t.isCore = true ∧ Typed ctx.scope.lookup (.binary op a b) t)
          (Check.require ctx first operand a.position >>= fun _ => synth ctx b >>= fun second =>
            Check.require ctx second operand b.position >>= fun _ => pure answer) := by
      refine .bind (require_sound fun ⟨⟨type, _⟩, inner⟩ => ⟨inner, type, known⟩) fun _ => ?_
      refine .bind ((synth_sound ctx core.2).of_given fun ⟨_, _, inner⟩ => inner) fun second => ?_
      refine .map (require_sound fun ⟨⟨type, _⟩, _, _, inner⟩ => ⟨inner, type, known⟩) ?_
      rintro _ ⟨rfl, ⟨_, right⟩, rfl, ⟨_, left⟩, _⟩
      exact ⟨result, .binary operates left right⟩
    have compared (operates : ∀ t, Operates op t .bool) : Yields (fun _ => True)
          ((first.isCore = true ∧ Typed ctx.scope.lookup a.node first) ∧ ctx.Core)
          (fun t => t.isCore = true ∧ Typed ctx.scope.lookup (.binary op a b) t)
          (synth ctx b >>= fun second => Check.join ctx first second b.position >>= fun _ =>
            pure .bool) := by
      refine .bind ((synth_sound ctx core.2).of_given And.right) fun second => ?_
      refine .map (join_sound fun ⟨⟨type, _⟩, ⟨type', _⟩, inner⟩ => ⟨inner, type', type⟩) ?_
      rintro _ ⟨⟨rfl, _⟩, ⟨_, right⟩, ⟨_, left⟩, _⟩
      exact ⟨rfl, .binary (operates _) left right⟩
    cases op with
    | add => exact asked rfl rfl .add
    | subtract => exact asked rfl rfl .subtract
    | multiply => exact asked rfl rfl .multiply
    | divide => exact asked rfl rfl .divide
    | or => exact asked rfl rfl .or
    | and => exact asked rfl rfl .and
    | less => exact asked rfl rfl .less
    | lessOrEqual => exact asked rfl rfl .lessOrEqual
    | greater => exact asked rfl rfl .greater
    | greaterOrEqual => exact asked rfl rfl .greaterOrEqual
    | equal => exact compared .equal
    | notEqual => exact compared .notEqual
  | ascribe e type =>
    rw [coreNode, Bool.and_eq_true] at core
    refine .bind (meaning_sound core.2) fun ascribed => ?_
    refine .bind ((synth_sound ctx core.1).of_given And.right) fun t => ?_
    refine .map (require_sound fun ⟨⟨known, _⟩, stands, inner⟩ => ⟨inner, known, stands ▸ core.2⟩) ?_
    rintro _ ⟨rfl, ⟨known, typed⟩, stands, _⟩
    subst stands
    exact ⟨known, .ascribe typed⟩
  | abstraction params body =>
    rw [coreNode, Bool.and_eq_true] at core
    refine .bind ((bindParams_sound ctx.push params core.1).of_given .push) fun (inner, ts) => ?_
    refine .map ((synth_sound inner core.2).of_given fun h => h.1.1) ?_
    rintro r ⟨⟨result, typed⟩, ⟨_, all, types, rfl⟩, _⟩
    rw [types] at typed
    refine ⟨?_, .abstraction typed⟩
    rw [Ty.isCore, Bool.and_eq_true]
    exact ⟨all, result⟩
  | list es =>
    cases es with
    | nil => contradiction
    | cons e es =>
      simp only [coreNode, List.isEmpty_cons, Bool.not_false, Bool.true_and, coreExprs,
        Bool.and_eq_true] at core
      have elements : Yields (fun _ => True) ctx.Core
          (fun r => r.isCore = true ∧ ∀ e' ∈ e :: es, Typed ctx.scope.lookup e'.node r)
          (joinAll ctx .unknown (e :: es)) := by
        refine .bind (synth_sound ctx core.1) fun t => ?_
        refine .bind (join_unknown_sound fun h => h.1.1) fun u => ?_
        refine (joinAll_sound ctx u core.2).imp ?_ ?_
        · rintro ⟨rfl, ⟨type, _⟩, inner⟩
          exact ⟨inner, type⟩
        · rintro r ⟨rfl, ⟨type, typed⟩, _⟩ ⟨rfl, each⟩
          exact ⟨type, List.forall_mem_cons.mpr ⟨typed, each⟩⟩
      refine elements.map fun r ⟨⟨type, each⟩, _⟩ => ?_
      exact ⟨type, .list (List.cons_ne_nil e es) each⟩
  | unary op e =>
    rw [coreNode, Bool.and_eq_true] at core
    refine .bind (synth_sound ctx core.2) fun t => ?_
    refine (unaryType_sound position e.position core.1 t).imp (fun ⟨⟨type, _⟩, inner⟩ => ⟨inner, type⟩) ?_
    rintro r ⟨⟨_, operand⟩, _⟩ ⟨type, applies⟩
    exact ⟨type, .unary applies operand⟩
  | application f args =>
    rw [coreNode, Bool.and_eq_true] at core
    refine .bind (synth_sound ctx core.1) fun t => ?_
    have applied : Yields (fun _ => True)
        ((t.isCore = true ∧ Typed ctx.scope.lookup f.node t) ∧ ctx.Core) (fun _ => True)
        (synthAll ctx args) :=
      (synthAll_sound ctx core.2).imp And.right fun _ _ _ => trivial
    have refused {fault : Ty → Fault} {position : Option Position} : Yields (fun _ => True)
        ((t.isCore = true ∧ Typed ctx.scope.lookup f.node t) ∧ ctx.Core)
        (fun r => r.isCore = true ∧ Typed ctx.scope.lookup (.application f args) r)
        (synthAll ctx args >>= fun _ => eliminate t fault position) :=
      applied.bind fun _ => (eliminate_sound fun h => h.2.1.1).imp id fun _ _ => False.elim
    cases t with
    | arrow ps r =>
      dsimp only
      split
      · rename_i same
        refine .map ((expectEach_sound ctx core.2 same).of_given fun ⟨⟨type, _⟩, inner⟩ => ?_) ?_
        · rw [Ty.isCore, Bool.and_eq_true] at type
          exact ⟨inner, type.1⟩
        · rintro _ ⟨each, ⟨type, function⟩, _⟩
          rw [Ty.isCore, Bool.and_eq_true] at type
          exact ⟨type.2, .application function same.symm each⟩
      · exact applied.bind fun _ => Yields.report.bind fun _ => .answer fun h => h.1.elim
    | _ => exact refused
  | component e index =>
    rw [coreNode] at core
    refine .bind (synth_sound ctx core) fun t => ?_
    cases t with
    | tuple ts =>
      cases index with
      | zero => exact Yields.report.imp id fun _ _ => False.elim
      | succ i =>
        dsimp only
        cases found : ts[i]? with
        | some t =>
          refine .answer fun ⟨⟨type, product⟩, _⟩ => ⟨?_, .component product found⟩
          rw [Ty.isCore, Ty.isCoreAll_iff] at type
          exact type t (List.mem_of_getElem? found)
        | none => exact Yields.report.imp id fun _ _ => False.elim
    | _ => exact (eliminate_sound fun h => h.1.1).imp id fun _ _ => False.elim
  | tuple es =>
    rw [coreNode] at core
    refine .map (synthAll_sound ctx core) fun ts ⟨⟨all, length, each⟩, _⟩ => ?_
    exact ⟨all, .tuple length each⟩
  | cons h tail =>
    rw [coreNode, Bool.and_eq_true] at core
    refine .bind (synth_sound ctx core.1) fun t => ?_
    refine .bind ((synth_sound ctx core.2).of_given And.right) fun u => ?_
    refine .map (require_sound fun ⟨⟨type, _⟩, ⟨type', _⟩, inner⟩ => ⟨inner, type, type'⟩) ?_
    rintro _ ⟨rfl, ⟨type, rest⟩, ⟨_, first⟩, _⟩
    rw [Ty.merge_self type]
    exact ⟨type, .cons first rest⟩
  | natRec count initial step =>
    rw [coreNode, Bool.and_eq_true, Bool.and_eq_true] at core
    refine .bind (synth_sound ctx core.1.1) fun t => ?_
    refine .bind (require_sound fun ⟨⟨type, _⟩, inner⟩ => ⟨inner, type, rfl⟩) fun _ => ?_
    refine .bind ((synth_sound ctx core.1.2).of_given fun ⟨_, _, inner⟩ => inner) fun result => ?_
    refine .bind ((synth_sound ctx core.2).of_given fun ⟨_, _, _, inner⟩ => inner) fun u => ?_
    refine .map (require_sound fun ⟨⟨type, _⟩, ⟨type', _⟩, _, _, inner⟩ =>
      ⟨inner, type, by simp [Ty.isCore, Ty.isCoreAll, type']⟩) ?_
    rintro _ ⟨rfl, ⟨_, stepping⟩, ⟨type, starting⟩, rfl, ⟨_, counting⟩, _⟩
    exact ⟨type, .natRec counting starting stepping⟩
  | literal l =>
    cases l with
    | bool b => exact .answer fun _ => ⟨rfl, .bool b⟩
    | unit => exact .answer fun _ => ⟨rfl, .unit⟩
    | nat n => exact .answer fun _ => ⟨rfl, .nat n⟩
    | address => contradiction
  | var x =>
    rw [synthNode]
    cases found : ctx.scope.lookup x with
    | some t => exact .answer fun inner => ⟨inner.vars x t found, .var found⟩
    | none => exact Yields.report.imp id fun _ _ => False.elim
  | _ => contradiction
termination_by structural e

theorem synthAll_sound (ctx : Context) {es : List (Located Expr)} (core : coreExprs es = true) :
    Yields (fun _ => True) ctx.Core
      (fun ts => Ty.isCoreAll ts = true ∧ es.length = ts.length ∧
        ∀ e t, (e, t) ∈ es.zip ts → Typed ctx.scope.lookup e.node t)
      (synthAll ctx es) := by
  match es with
  | [] => exact .answer fun _ => ⟨rfl, rfl, fun _ _ member => nomatch member⟩
  | e :: es =>
    rw [coreExprs, Bool.and_eq_true] at core
    refine .bind (synth_sound ctx core.1) fun t => ?_
    refine .map ((synthAll_sound ctx core.2).of_given And.right) ?_
    rintro ts ⟨⟨all, length, each⟩, ⟨type, typed⟩, _⟩
    refine ⟨by rw [Ty.isCoreAll, type, all]; rfl, congrArg Nat.succ length, fun e' t' member => ?_⟩
    rcases List.mem_cons.mp member with first | rest
    · cases first
      exact typed
    · exact each e' t' rest
termination_by structural es

theorem expectEach_sound (ctx : Context) {expected : List Ty} {es : List (Located Expr)}
    (core : coreExprs es = true) (same : expected.length = es.length) :
    Yields (fun _ => True) (ctx.Core ∧ Ty.isCoreAll expected = true)
      (fun _ => ∀ e t, (e, t) ∈ es.zip expected → Typed ctx.scope.lookup e.node t)
      (expectEach ctx expected es) := by
  match es, expected with
  | [], [] => exact .answer fun _ _ _ member => nomatch member
  | e :: es, u :: us =>
    rw [coreExprs, Bool.and_eq_true] at core
    refine .bind ((synth_sound ctx core.1).of_given And.left) fun t => ?_
    refine .bind (require_sound fun ⟨⟨type, _⟩, inner, all⟩ => ?_) fun _ => ?_
    · rw [Ty.isCoreAll, Bool.and_eq_true] at all
      exact ⟨inner, type, all.1⟩
    · refine (expectEach_sound ctx core.2 (Nat.succ.inj same)).imp ?_ ?_
      · rintro ⟨_, _, inner, all⟩
        rw [Ty.isCoreAll, Bool.and_eq_true] at all
        exact ⟨inner, all.2⟩
      · rintro _ ⟨rfl, ⟨_, typed⟩, _⟩ each e' t' member
        rcases List.mem_cons.mp member with first | rest
        · cases first
          exact typed
        · exact each e' t' rest
termination_by structural es

theorem joinAll_sound (ctx : Context) (common : Ty) {es : List (Located Expr)}
    (core : coreExprs es = true) :
    Yields (fun _ => True) (ctx.Core ∧ common.isCore = true)
      (fun r => r = common ∧ ∀ e ∈ es, Typed ctx.scope.lookup e.node common)
      (joinAll ctx common es) := by
  match es with
  | [] => exact .answer fun _ => ⟨rfl, fun _ member => nomatch member⟩
  | e :: es =>
    rw [coreExprs, Bool.and_eq_true] at core
    refine .bind ((synth_sound ctx core.1).of_given And.left) fun t => ?_
    refine .bind (join_sound fun ⟨⟨type, _⟩, inner, known⟩ => ⟨inner, known, type⟩) fun u => ?_
    refine (joinAll_sound ctx u core.2).imp ?_ ?_
    · rintro ⟨⟨rfl, rfl⟩, _, inner, known⟩
      exact ⟨inner, known⟩
    · rintro r ⟨⟨rfl, rfl⟩, ⟨_, typed⟩, _⟩ ⟨rfl, each⟩
      exact ⟨rfl, List.forall_mem_cons.mpr ⟨typed, each⟩⟩
termination_by structural es

/-- What the bindings of a `let` make of its body. -/
theorem synthBindings_sound (ctx : Context) {bs : List (Located Pattern × Located Expr)}
    (core : coreBindings bs = true) :
    Yields (fun _ => True) ctx.Core
      (fun inner => inner.Core ∧ ∀ body t, Typed inner.scope.lookup body.node t →
        Typed ctx.scope.lookup (.letIn bs body) t)
      (synthBindings ctx bs) := by
  match bs with
  | [] => exact .answer fun inner => ⟨inner, fun _ _ => .letNil⟩
  | (⟨.var x, position⟩, e) :: bs =>
    rw [coreBindings, Bool.and_eq_true] at core
    refine .bind (synth_sound ctx core.1) fun t => ?_
    have bound : Yields (fun _ => True) ((t.isCore = true ∧ Typed ctx.scope.lookup e.node t) ∧ ctx.Core)
        (fun bound => bound = [(x, t)]) (bindings ctx t ⟨.var x, position⟩) :=
      .guarded (.answer fun _ => rfl)
    refine bound.bind fun bound => (synthBindings_sound (ctx.bindAll bound) core.2).imp ?_ ?_
    · rintro ⟨rfl, ⟨type, _⟩, inner⟩
      exact inner.bind x type
    · rintro last ⟨rfl, ⟨_, typed⟩, _⟩ ⟨inner, around⟩
      refine ⟨inner, fun body u rest => .letCons typed ?_⟩
      have wrapped := around body u rest
      rwa [show ctx.bindAll [(x, t)] = ctx.bind x t from rfl, Context.lookup_bind] at wrapped
termination_by structural bs

end

end Soundness

end StellaLang.Typing
