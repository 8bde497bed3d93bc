import StellaLang.Proofs.Ty.Parts
import StellaLang.Proofs.Typing.Following
import StellaLang.Proofs.Typing.Quiet
import StellaLang.Ty.Equality

/-! Types without errors in them. Where nothing is reported, no annotation means a type with
an error in it, and no pattern binds a name to one. -/
namespace StellaLang

namespace Ty

/-- That no part of a type is an error. -/
def ErrorFree (t : Ty) : Prop :=
  error ∉ t.parts

instance (t : Ty) : Decidable t.ErrorFree :=
  inferInstanceAs (Decidable (_ ∉ _))

namespace ErrorFree

@[simp] theorem arrow_iff {ps : List Ty} {r : Ty} :
    (arrow ps r).ErrorFree ↔ (∀ p ∈ ps, p.ErrorFree) ∧ r.ErrorFree := by
  simp [ErrorFree, parts, mem_partsAll]

@[simp] theorem forAll_iff {xs : List String} {b : Ty} : (forAll xs b).ErrorFree ↔ b.ErrorFree := by
  simp [ErrorFree, parts]

@[simp] theorem recursive_iff {x : String} {b : Ty} : (recursive x b).ErrorFree ↔ b.ErrorFree := by
  simp [ErrorFree, parts]

@[simp] theorem tuple_iff {ts : List Ty} : (tuple ts).ErrorFree ↔ ∀ t ∈ ts, t.ErrorFree := by
  simp [ErrorFree, parts, mem_partsAll]

@[simp] theorem sum_iff {l r : Ty} : (sum l r).ErrorFree ↔ l.ErrorFree ∧ r.ErrorFree := by
  simp [ErrorFree, parts]

@[simp] theorem record_iff {fs : List (String × Ty)} :
    (record fs).ErrorFree ↔ ∀ l t, (l, t) ∈ fs → t.ErrorFree := by
  simp [ErrorFree, parts, mem_partsFields]

@[simp] theorem variant_iff {fs : List (String × Option Ty)} :
    (variant fs).ErrorFree ↔ ∀ l t, (l, some t) ∈ fs → t.ErrorFree := by
  simp [ErrorFree, parts, mem_partsAlternatives]

@[simp] theorem list_iff {t : Ty} : (list t).ErrorFree ↔ t.ErrorFree := by
  simp [ErrorFree, parts]

@[simp] theorem ref_iff {t : Ty} : (ref t).ErrorFree ↔ t.ErrorFree := by
  simp [ErrorFree, parts]

theorem not_isError {t : Ty} (free : t.ErrorFree) : t.isError = false := by
  cases t with
  | error => simp [ErrorFree, parts] at free
  | _ => rfl

/-- An error in a type that looks like another one part by part is in that one too. -/
theorem not_outlined {t : Ty} (free : t.ErrorFree) : ¬Outlined t error := by
  rintro ⟨v, part, outline⟩
  rw [outline.error rfl] at part
  exact free part

theorem merge {t u : Ty} (first : t.ErrorFree) (second : u.ErrorFree) : (t.merge u).ErrorFree :=
  fun part => (parts_merge t u part).elim first.not_outlined second.not_outlined

theorem unfold {t : Ty} (free : t.ErrorFree) : t.unfold.ErrorFree :=
  fun part => free.not_outlined (parts_unfold part)

theorem instantiate {xs : List String} {b : Ty} {args : List Ty} (body : b.ErrorFree)
    (all : ∀ arg ∈ args, arg.ErrorFree) : (instantiate xs b args).ErrorFree := by
  intro part
  rcases parts_instantiate part with ⟨arg, member, outlined⟩ | outlined
  · exact (all arg member).not_outlined outlined
  · exact body.not_outlined outlined

end ErrorFree

end Ty

namespace Typing

open Check
open Syntax (Pattern TypeExpr)
open Ty (ErrorFree)

/-- That no name stands for a type with an error in it. -/
structure Context.Clean (ctx : Context) : Prop where
  vars : ∀ x t, ctx.scope.lookup x = some t → t.ErrorFree
  aliases : ∀ x t, ctx.aliases.lookup x = some t → t.ErrorFree
  exceptions : ∀ t, ctx.exception? = some t → t.ErrorFree

/-- The contexts inside another one, where every type that was bound on the way in is free
of errors. -/
inductive Context.Inner (base : Context) : Context → Prop where
  | here : Inner base base
  | push (inner : Inner base ctx) : Inner base ctx.push
  | bind (x : String) {t : Ty} (inner : Inner base ctx) (free : t.ErrorFree) :
      Inner base (ctx.bind x t)
  | bindTypeVars (xs : List String) (inner : Inner base ctx) : Inner base (ctx.bindTypeVars xs)


namespace Context

variable {base ctx : Context}

theorem Clean.of_inner (clean : base.Clean) (inner : base.Inner ctx) : ctx.Clean := by
  induction inner with
  | here => exact clean
  | push _ ih => exact ⟨ih.vars, ih.aliases, ih.exceptions⟩
  | bind x _ free ih =>
    refine ⟨fun y u found => ?_, ih.aliases, ih.exceptions⟩
    rw [Context.bind, Scope.lookup_bind] at found
    split at found
    · exact Option.some.inj found ▸ free
    · exact ih.vars y u found
  | bindTypeVars xs _ ih =>
    refine ⟨fun y u found => ih.vars y u ?_, ih.aliases, ih.exceptions⟩
    rwa [Context.bindTypeVars, Scope.lookup_bindTypeVars] at found

theorem Inner.bindAll (inner : base.Inner ctx) {bound : Bindings}
    (free : ∀ b ∈ bound, b.2.ErrorFree) : base.Inner (ctx.bindAll bound) := by
  induction bound generalizing ctx with
  | nil => exact inner
  | cons b bound ih =>
    have first := inner.bind b.1 (free b List.mem_cons_self)
    exact ih first fun c member => free c (List.mem_cons_of_mem b member)

end Context

section Annotations

variable {kept : Judgement → Prop} (ctx : Context)

mutual

/-- An annotation that names nothing stands for a type without errors. -/
theorem denote_errorFree (bound : List String) {t : Located TypeExpr}
    (nameless : Nameless (TypeExpr.postOrder t)) : (denote ctx bound t).ErrorFree := by
  obtain ⟨t, position⟩ := t
  rw [TypeExpr.postOrder] at nameless
  exact denoteNode_errorFree bound (nameless.right ⟨t, position⟩ (List.mem_singleton.mpr rfl))
    nameless.left
termination_by structural t

theorem denoteNode_errorFree (bound : List String) {t : TypeExpr} (noVar : t.isVar = false)
    (nameless : Nameless (TypeExpr.inside t)) : (denoteNode ctx bound t).ErrorFree := by
  cases t with
  | auto | bool | nat | unit | top | bottom => rw [denoteNode]; decide
  | var => contradiction
  | arrow ps r =>
    exact ErrorFree.arrow_iff.mpr
      ⟨denoteAll_errorFree bound nameless.left, denote_errorFree bound nameless.right⟩
  | forAll xs b => exact ErrorFree.forAll_iff.mpr (denote_errorFree _ nameless)
  | recursive x b => exact ErrorFree.recursive_iff.mpr (denote_errorFree _ nameless)
  | sum l r =>
    exact ErrorFree.sum_iff.mpr
      ⟨denote_errorFree bound nameless.left, denote_errorFree bound nameless.right⟩
  | tuple ts => exact ErrorFree.tuple_iff.mpr (denoteAll_errorFree bound nameless)
  | record fs => exact ErrorFree.record_iff.mpr (denoteFields_errorFree bound nameless)
  | variant fs => exact ErrorFree.variant_iff.mpr (denoteAlternatives_errorFree bound nameless)
  | list t => exact ErrorFree.list_iff.mpr (denote_errorFree bound nameless)
  | ref t => exact ErrorFree.ref_iff.mpr (denote_errorFree bound nameless)
termination_by structural t

theorem denoteAll_errorFree (bound : List String) {ts : List (Located TypeExpr)}
    (nameless : Nameless (TypeExpr.postOrderAll ts)) :
    ∀ u ∈ denoteAll ctx bound ts, u.ErrorFree := by
  match ts with
  | [] => exact fun _ member => nomatch member
  | t :: ts =>
    exact List.forall_mem_cons.mpr
      ⟨denote_errorFree bound nameless.left, denoteAll_errorFree bound nameless.right⟩
termination_by structural ts

theorem denoteFields_errorFree (bound : List String) {fs : List (String × Located TypeExpr)}
    (nameless : Nameless (TypeExpr.postOrderFields fs)) :
    ∀ l u, (l, u) ∈ denoteFields ctx bound fs → u.ErrorFree := by
  match fs with
  | [] => exact fun _ _ member => nomatch member
  | (l, t) :: fs =>
    intro m u member
    rcases List.mem_cons.mp member with first | rest
    · cases first
      exact denote_errorFree bound nameless.left
    · exact denoteFields_errorFree bound nameless.right m u rest
termination_by structural fs

theorem denoteAlternatives_errorFree (bound : List String)
    {fs : List (String × Option (Located TypeExpr))}
    (nameless : Nameless (TypeExpr.postOrderAlternatives fs)) :
    ∀ l u, (l, some u) ∈ denoteAlternatives ctx bound fs → u.ErrorFree := by
  match fs with
  | [] => exact fun _ _ member => nomatch member
  | (l, none) :: fs =>
    have others : Nameless (TypeExpr.postOrderAlternatives fs) := nameless
    intro m u member
    rcases List.mem_cons.mp member with first | rest
    · cases first
    · exact denoteAlternatives_errorFree bound others m u rest
  | (l, some t) :: fs =>
    intro m u member
    rcases List.mem_cons.mp member with first | rest
    · cases first
      exact denote_errorFree bound nameless.left
    · exact denoteAlternatives_errorFree bound nameless.right m u rest
termination_by structural fs

end

mutual

/-- An annotation of which every name is known stands for a type without errors. -/
theorem resolve_yields (bound : List String) (t : Located TypeExpr) :
    Yields kept ctx.Clean ErrorFree (resolve ctx bound t) := by
  obtain ⟨t, position⟩ := t
  exact resolveNode_yields bound position t
termination_by structural t

theorem resolveNode_yields (bound : List String) (position : Option Position) (t : TypeExpr) :
    Yields kept ctx.Clean ErrorFree (resolveNode ctx bound position t) := by
  cases t with
  | auto | bool | nat | unit | top | bottom => exact .answer fun _ => by decide
  | var x =>
    rw [resolveNode]
    split
    · exact .answer fun _ => by simp [ErrorFree, Ty.parts]
    · split
      · exact .answer fun clean => clean.aliases x _ ‹_›
      · exact Yields.report.imp id fun _ _ => False.elim
  | arrow ps r =>
    refine .bind (resolveAll_yields bound ps) fun us => ?_
    refine .map ((resolve_yields bound r).of_given And.right) fun u h => ?_
    exact ErrorFree.arrow_iff.mpr ⟨h.2.1, h.1⟩
  | forAll xs b =>
    exact .map (resolve_yields _ b) fun _ h => ErrorFree.forAll_iff.mpr h.1
  | recursive x b =>
    exact .map (resolve_yields _ b) fun _ h => ErrorFree.recursive_iff.mpr h.1
  | sum l r =>
    refine .bind (resolve_yields bound l) fun t => ?_
    refine .map ((resolve_yields bound r).of_given And.right) fun u h => ?_
    exact ErrorFree.sum_iff.mpr ⟨h.2.1, h.1⟩
  | tuple ts => exact .map (resolveAll_yields bound ts) fun _ h => ErrorFree.tuple_iff.mpr h.1
  | record fs =>
    exact .map (resolveFields_yields bound fs) fun _ h => ErrorFree.record_iff.mpr h.1
  | variant fs =>
    exact .map (resolveAlternatives_yields bound fs) fun _ h => ErrorFree.variant_iff.mpr h.1
  | list t => exact .map (resolve_yields bound t) fun _ h => ErrorFree.list_iff.mpr h.1
  | ref t => exact .map (resolve_yields bound t) fun _ h => ErrorFree.ref_iff.mpr h.1
termination_by structural t

theorem resolveAll_yields (bound : List String) (ts : List (Located TypeExpr)) :
    Yields kept ctx.Clean (fun us => ∀ u ∈ us, u.ErrorFree) (resolveAll ctx bound ts) := by
  match ts with
  | [] => exact .answer fun _ _ member => nomatch member
  | t :: ts =>
    refine .bind (resolve_yields bound t) fun u => ?_
    refine .map ((resolveAll_yields bound ts).of_given And.right) fun us h => ?_
    exact List.forall_mem_cons.mpr ⟨h.2.1, h.1⟩
termination_by structural ts

theorem resolveFields_yields (bound : List String)
    (fs : List (String × Located TypeExpr)) :
    Yields kept ctx.Clean (fun gs => ∀ l u, (l, u) ∈ gs → u.ErrorFree) (resolveFields ctx bound fs) := by
  match fs with
  | [] => exact .answer fun _ _ _ member => nomatch member
  | (l, t) :: fs =>
    refine .bind (resolve_yields bound t) fun u => ?_
    refine .map ((resolveFields_yields bound fs).of_given And.right) fun gs h => ?_
    intro m v member
    rcases List.mem_cons.mp member with first | rest
    · cases first
      exact h.2.1
    · exact h.1 m v rest
termination_by structural fs

theorem resolveAlternatives_yields (bound : List String)
    (fs : List (String × Option (Located TypeExpr))) :
    Yields kept ctx.Clean (fun gs => ∀ l u, (l, some u) ∈ gs → u.ErrorFree)
      (resolveAlternatives ctx bound fs) := by
  match fs with
  | [] => exact .answer fun _ _ _ member => nomatch member
  | (l, none) :: fs =>
    refine .map (resolveAlternatives_yields bound fs) fun gs h => ?_
    intro m v member
    rcases List.mem_cons.mp member with first | rest
    · cases first
    · exact h.1 m v rest
  | (l, some t) :: fs =>
    refine .bind (resolve_yields bound t) fun u => ?_
    refine .map ((resolveAlternatives_yields bound fs).of_given And.right) fun gs h => ?_
    intro m v member
    rcases List.mem_cons.mp member with first | rest
    · cases first
      exact h.2.1
    · exact h.1 m v rest
termination_by structural fs

end

theorem meaning_yields (t : Located TypeExpr) :
    Yields kept ctx.Clean ErrorFree (meaning ctx t) :=
  .meaning (resolve_yields ctx [] t) fun closed =>
    denote_errorFree ctx [] (nameless_of_closed closed)

theorem meanings_yields (ts : List (Located TypeExpr)) :
    Yields kept ctx.Clean (fun us => ∀ u ∈ us, u.ErrorFree) (meanings ctx ts) := by
  induction ts with
  | nil => exact .answer fun _ _ member => nomatch member
  | cons t ts ih =>
    refine .bind (meaning_yields ctx t) fun u => ?_
    refine .map (ih.of_given And.right) fun us h => ?_
    exact List.forall_mem_cons.mpr ⟨h.2.1, h.1⟩

end Annotations

section Patterns

variable {kept : Judgement → Prop}

/-- That no type given to a name has an error in it. -/
def FreeBindings (bound : Bindings) : Prop :=
  ∀ b ∈ bound, b.2.ErrorFree

theorem FreeBindings.append {bound more : Bindings} (first : FreeBindings bound)
    (second : FreeBindings more) : FreeBindings (bound ++ more) :=
  fun b member => (List.mem_append.mp member).elim (first b) (second b)

theorem unexpectedPattern_yields {given : Prop} {t : Ty} {position : Option Position} :
    Yields kept given FreeBindings (unexpectedPattern t position) :=
  Yields.report.map fun _ h => h.1.elim

theorem literalBindings_yields {given : Prop} {ctx : Context} {t expected : Ty}
    {position : Option Position} :
    Yields kept given FreeBindings (literalBindings ctx t expected position) := by
  unfold literalBindings
  split
  · exact .answer fun _ _ member => nomatch member
  · exact unexpectedPattern_yields

mutual

theorem bindings_yields (ctx : Context) (t : Ty) (q : Located Pattern) :
    Yields kept (ctx.Clean ∧ t.ErrorFree) FreeBindings (bindings ctx t q) := by
  obtain ⟨q, position⟩ := q
  exact .guarded (bindingsNode_yields ctx t position q)
termination_by structural q

theorem bindingsNode_yields (ctx : Context) (t : Ty) (position : Option Position) (q : Pattern) :
    Yields kept (ctx.Clean ∧ t.ErrorFree) FreeBindings (bindingsNode ctx t position q) := by
  have nothing {given : Prop} : Yields kept given FreeBindings (pure []) :=
    .answer fun _ _ member => nomatch member
  have refused {given : Prop} {fault : Fault} : Yields kept given FreeBindings
      (Check.report fault position >>= fun _ => pure []) :=
    Yields.report.map fun _ h => h.1.elim
  cases q with
  | castAs q type =>
    refine .bind ((meaning_yields ctx type).of_given And.left) fun target => ?_
    dsimp only
    split
    · exact (bindings_yields ctx target q).of_given fun ⟨free, clean, _⟩ => ⟨clean, free⟩
    · exact .bind .report fun _ => (bindings_yields ctx target q).of_given fun h => h.1.elim
  | ascribed q type =>
    refine .bind ((meaning_yields ctx type).of_given And.left) fun ascribed => .bind .require fun _ => ?_
    exact (bindings_yields ctx ascribed q).of_given fun ⟨_, free, clean, _⟩ => ⟨clean, free⟩
  | variant l payload =>
    cases t with
    | variant fs =>
      rw [bindingsNode_variant]
      rcases found : fs.lookup l with _ | _ | u
      · exact refused
      · cases payload with
        | none => exact nothing
        | some q => exact unexpectedPattern_yields
      · cases payload with
        | none => exact unexpectedPattern_yields
        | some q =>
          refine (bindings_yields ctx u q).of_given fun ⟨clean, free⟩ => ⟨clean, ?_⟩
          exact ErrorFree.variant_iff.mp free l u (mem_of_lookup found)
    | never | unknown | error =>
      cases payload with
      | none => exact nothing
      | some q => exact bindings_yields ctx _ q
    | _ => exact refused
  | inl q =>
    cases t with
    | sum l _ =>
      exact (bindings_yields ctx l q).of_given fun ⟨clean, free⟩ => ⟨clean, (ErrorFree.sum_iff.mp free).1⟩
    | never | unknown | error => exact bindings_yields ctx _ q
    | _ => exact unexpectedPattern_yields
  | inr q =>
    cases t with
    | sum _ r =>
      exact (bindings_yields ctx r q).of_given fun ⟨clean, free⟩ => ⟨clean, (ErrorFree.sum_iff.mp free).2⟩
    | never | unknown | error => exact bindings_yields ctx _ q
    | _ => exact unexpectedPattern_yields
  | tuple qs =>
    cases t with
    | tuple ts =>
      simp only [bindingsNode]
      split
      · exact (bindingsEach_yields ctx ts qs).of_given fun ⟨clean, free⟩ =>
          ⟨clean, ErrorFree.tuple_iff.mp free⟩
      · exact unexpectedPattern_yields
    | never | unknown | error => exact bindingsAll_yields ctx _ qs
    | _ => exact unexpectedPattern_yields
  | record fs =>
    cases t with
    | record gs =>
      exact (bindingsFields_yields ctx gs position fs).of_given fun ⟨clean, free⟩ =>
        ⟨clean, ErrorFree.record_iff.mp free⟩
    | never | unknown | error => exact bindingsFieldsAll_yields ctx _ fs
    | _ => exact unexpectedPattern_yields
  | list qs =>
    cases t with
    | list u =>
      exact (bindingsAll_yields ctx u qs).of_given fun ⟨clean, free⟩ => ⟨clean, ErrorFree.list_iff.mp free⟩
    | never | unknown | error => exact bindingsAll_yields ctx _ qs
    | _ => exact unexpectedPattern_yields
  | cons h tail =>
    cases t with
    | list u =>
      refine .bind ((bindings_yields ctx u h).of_given fun ⟨clean, free⟩ =>
        ⟨clean, ErrorFree.list_iff.mp free⟩) fun _ => ?_
      refine .map ((bindings_yields ctx (.list u) tail).of_given And.right) fun _ both => ?_
      exact .append both.2.1 both.1
    | never | unknown | error =>
      refine .bind (bindings_yields ctx _ h) fun _ => ?_
      refine .map ((bindings_yields ctx _ tail).of_given And.right) fun _ both => ?_
      exact .append both.2.1 both.1
    | _ => exact unexpectedPattern_yields
  | bool | unit | nat => exact literalBindings_yields
  | succ q =>
    refine .bind literalBindings_yields fun _ => ?_
    refine .map ((bindings_yields ctx .nat q).of_given fun h => ⟨h.2.1, by decide⟩) fun _ both => ?_
    exact .append both.2.1 both.1
  | var x => exact .answer fun h b member => by simp_all
termination_by structural q

theorem bindingsAll_yields (ctx : Context) (t : Ty) (qs : List (Located Pattern)) :
    Yields kept (ctx.Clean ∧ t.ErrorFree) FreeBindings (bindingsAll ctx t qs) := by
  match qs with
  | [] => exact .answer fun _ _ member => nomatch member
  | q :: qs =>
    refine .bind (bindings_yields ctx t q) fun _ => ?_
    refine .map ((bindingsAll_yields ctx t qs).of_given And.right) fun _ both => ?_
    exact .append both.2.1 both.1
termination_by structural qs

theorem bindingsEach_yields (ctx : Context) (ts : List Ty) (qs : List (Located Pattern)) :
    Yields kept (ctx.Clean ∧ ∀ t ∈ ts, t.ErrorFree) FreeBindings (bindingsEach ctx ts qs) := by
  match qs, ts with
  | [], _ => exact .answer fun _ _ member => nomatch member
  | _ :: _, [] => exact .answer fun _ _ member => nomatch member
  | q :: qs, t :: ts =>
    refine .bind ((bindings_yields ctx t q).of_given fun ⟨clean, all⟩ =>
      ⟨clean, all t List.mem_cons_self⟩) fun _ => ?_
    refine .map ((bindingsEach_yields ctx ts qs).of_given fun ⟨_, clean, all⟩ =>
      ⟨clean, fun u member => all u (List.mem_cons_of_mem t member)⟩) fun _ both => ?_
    exact .append both.2.1 both.1
termination_by structural qs

theorem bindingsFields_yields (ctx : Context) (gs : List (String × Ty)) (position : Option Position)
    (fs : List (String × Located Pattern)) :
    Yields kept (ctx.Clean ∧ ∀ l t, (l, t) ∈ gs → t.ErrorFree) FreeBindings
      (bindingsFields ctx gs position fs) := by
  match fs with
  | [] => exact .answer fun _ _ member => nomatch member
  | (l, q) :: fs =>
    rw [bindingsFields_cons]
    cases found : gs.lookup l with
    | none =>
      exact .bind .report fun _ => (bindingsFields_yields ctx gs position fs).of_given fun h => h.1.elim
    | some t =>
      refine .bind ((bindings_yields ctx t q).of_given fun ⟨clean, all⟩ =>
        ⟨clean, all l t (mem_of_lookup found)⟩) fun _ => ?_
      refine .map ((bindingsFields_yields ctx gs position fs).of_given And.right) fun _ both => ?_
      exact .append both.2.1 both.1
termination_by structural fs

theorem bindingsFieldsAll_yields (ctx : Context) (t : Ty) (fs : List (String × Located Pattern)) :
    Yields kept (ctx.Clean ∧ t.ErrorFree) FreeBindings (bindingsFieldsAll ctx t fs) := by
  match fs with
  | [] => exact .answer fun _ _ member => nomatch member
  | (_, q) :: fs =>
    refine .bind (bindings_yields ctx t q) fun _ => ?_
    refine .map ((bindingsFieldsAll_yields ctx t fs).of_given And.right) fun _ both => ?_
    exact .append both.2.1 both.1
termination_by structural fs

end

end Patterns

end Typing

end StellaLang
