import StellaLang.Proofs.Ty.FreeNames
import StellaLang.Proofs.Typing.Cache

/-! Type variables in scope. The types of a well-scoped context refer to type variables of its scope
alone, and so do all types that are made of them: those that annotations mean and those that
patterns bind names to. -/
namespace StellaLang

namespace Ty

/-- That all names free in a type are such names. -/
def Within (names : String → Prop) (t : Ty) : Prop :=
  ∀ x ∈ t.freeNames, names x

namespace Within

variable {names names' : String → Prop}

theorem mono {t : Ty} (within : t.Within names) (wider : ∀ x, names x → names' x) : t.Within names' :=
  fun x free => wider x (within x free)

theorem of_closed {t : Ty} (closed : t.freeNames = []) : t.Within names := by
  intro x free
  rw [closed] at free
  contradiction

@[simp] theorem var_iff {x : String} : (var x).Within names ↔ names x := by
  simp [Within, freeNames]

@[simp] theorem arrow_iff {ps : List Ty} {r : Ty} :
    (arrow ps r).Within names ↔ (∀ p ∈ ps, p.Within names) ∧ r.Within names := by
  simp only [Within, freeNames, List.mem_append, mem_freeNamesAll]
  constructor
  · intro within
    exact ⟨fun p member x free => within x (.inl ⟨p, member, free⟩), fun x free => within x (.inr free)⟩
  · rintro ⟨params, result⟩ x (⟨p, member, free⟩ | free)
    · exact params p member x free
    · exact result x free

@[simp] theorem tuple_iff {ts : List Ty} : (tuple ts).Within names ↔ ∀ t ∈ ts, t.Within names := by
  simp only [Within, freeNames, mem_freeNamesAll]
  exact ⟨fun within t member x free => within x ⟨t, member, free⟩,
    fun each x ⟨t, member, free⟩ => each t member x free⟩

@[simp] theorem sum_iff {l r : Ty} : (sum l r).Within names ↔ l.Within names ∧ r.Within names := by
  simp only [Within, freeNames, List.mem_append, or_imp, forall_and]

@[simp] theorem record_iff {fs : List (String × Ty)} :
    (record fs).Within names ↔ ∀ f ∈ fs, f.2.Within names := by
  simp only [Within, freeNames, freeNamesFields_eq, mem_freeNamesAll, List.mem_map]
  constructor
  · exact fun within f member x free => within x ⟨f.2, ⟨f, member, rfl⟩, free⟩
  · rintro each x ⟨_, ⟨f, member, rfl⟩, free⟩
    exact each f member x free

@[simp] theorem variant_iff {fs : List (String × Option Ty)} :
    (variant fs).Within names ↔ ∀ f ∈ fs, ∀ t ∈ f.2, t.Within names := by
  simp only [Within, freeNames, freeNamesAlternatives_eq, mem_freeNamesAll, List.mem_filterMap]
  constructor
  · exact fun within f member t carried x free => within x ⟨t, ⟨f, member, carried⟩, free⟩
  · rintro each x ⟨t, ⟨f, member, carried⟩, free⟩
    exact each f member t carried x free

@[simp] theorem list_iff {t : Ty} : (list t).Within names ↔ t.Within names := .rfl

@[simp] theorem ref_iff {t : Ty} : (ref t).Within names ↔ t.Within names := .rfl

/-- A binder closes its names. -/
theorem forAll_iff {xs : List String} {b : Ty} :
    (forAll xs b).Within names ↔ b.Within fun x => x ∈ xs ∨ names x := by
  simp only [Within, freeNames, List.mem_filter, decide_eq_true_eq]
  exact ⟨fun within x free => or_iff_not_imp_left.mpr fun unbound => within x ⟨free, unbound⟩,
    fun within x free => (within x free.1).resolve_left free.2⟩

theorem recursive_iff {y : String} {b : Ty} :
    (recursive y b).Within names ↔ b.Within fun x => x ∈ [y] ∨ names x := by
  simp only [Within, freeNames, List.mem_filter, decide_eq_true_eq, List.mem_singleton]
  exact ⟨fun within x free => or_iff_not_imp_left.mpr fun unbound => within x ⟨free, unbound⟩,
    fun within x free => (within x free.1).resolve_left free.2⟩

theorem merge {t u : Ty} (first : t.Within names) (second : u.Within names) :
    (t.merge u).Within names :=
  fun x free => (freeNames_merge t u free).elim (first x) (second x)

theorem unfold {t : Ty} (within : t.Within names) : t.unfold.Within names :=
  fun x free => within x (freeNames_unfold free)

theorem instantiate {xs : List String} {b : Ty} {args : List Ty} (enough : xs.length = args.length)
    (generic : (forAll xs b).Within names) (all : ∀ arg ∈ args, arg.Within names) :
    (Ty.instantiate xs b args).Within names := by
  intro x free
  rcases freeNames_instantiate enough free with inside | ⟨arg, member, inside⟩
  · exact generic x inside
  · exact all arg member x inside

end Within

/-- That a type refers to no type variables but those of a scope. -/
abbrev ScopedIn (scope : Scope) (t : Ty) : Prop :=
  t.Within fun x => scope.hasTypeVar x = true

end Ty

namespace Typing

open Check
open Syntax (Expr Node Pattern TypeExpr)
open Ty (Within)

/-- That the types of bound names refer to such names only. -/
def BoundWithin (names : String → Prop) (bound : Bindings) : Prop :=
  ∀ b ∈ bound, b.2.Within names

/-- A context whose type variables are `names`, and whose types refer to no others. -/
structure Context.ScopedBy (names : String → Prop) (ctx : Context) : Prop where
  typeVars : ∀ x, ctx.scope.hasTypeVar x = true ↔ names x
  vars : ∀ frame ∈ ctx.scope.frames, ∀ x t, frame.vars.lookup x = some t → t.Within names
  aliases : ∀ x t, ctx.aliases.lookup x = some t → t.Within names
  exceptionType : ∀ t, ctx.exceptionType = some t → t.Within names
  exceptionVariants : ∀ f ∈ ctx.exceptionVariants, ∀ t ∈ f.2, t.Within names

/-- The types of all variables, the aliases and the exceptions refer to type variables of the scope
alone. -/
abbrev Context.WellScoped (ctx : Context) : Prop :=
  ctx.ScopedBy fun x => ctx.scope.hasTypeVar x = true

namespace Context.ScopedBy

variable {names : String → Prop} {ctx : Context}

theorem wellScoped (fits : ctx.ScopedBy names) : ctx.WellScoped := by
  have within {t : Ty} (within : t.Within names) : t.ScopedIn ctx.scope :=
    within.mono fun x => (fits.typeVars x).mpr
  exact ⟨fun _ => .rfl, fun frame member x t found => within (fits.vars frame member x t found),
    fun x t found => within (fits.aliases x t found),
    fun t declared => within (fits.exceptionType t declared),
    fun f member t carried => within (fits.exceptionVariants f member t carried)⟩

theorem lookup (fits : ctx.ScopedBy names) {x : String} {t : Ty}
    (found : ctx.scope.lookup x = some t) : t.Within names := by
  obtain ⟨frame, member, known⟩ := List.exists_of_findSome?_eq_some found
  exact fits.vars frame member x t known

theorem exception? (fits : ctx.ScopedBy names) {t : Ty} (declared : ctx.exception? = some t) :
    t.Within names := by
  unfold Context.exception? at declared
  split at declared
  · rename_i u known
    exact Option.some.inj declared ▸ fits.exceptionType u known
  · split at declared
    · contradiction
    · exact Option.some.inj declared ▸ Within.variant_iff.mpr fits.exceptionVariants

theorem push (fits : ctx.ScopedBy names) : ctx.push.ScopedBy names := by
  refine ⟨fits.typeVars, fun frame member x t found => ?_, fits.aliases, fits.exceptionType,
    fits.exceptionVariants⟩
  rcases List.mem_cons.mp member with rfl | outer
  · contradiction
  · exact fits.vars frame outer x t found

theorem bind (fits : ctx.ScopedBy names) (y : String) {u : Ty} (within : u.Within names) :
    (ctx.bind y u).ScopedBy names := by
  refine ⟨fits.typeVars, fun frame member x t found => ?_, fits.aliases, fits.exceptionType,
    fits.exceptionVariants⟩
  rcases List.mem_cons.mp member with rfl | outer
  · have found : ((y, u) :: ctx.scope.current.vars).lookup x = some t := found
    rw [List.lookup_cons] at found
    split at found
    · exact Option.some.inj found ▸ within
    · exact fits.vars ctx.scope.current List.mem_cons_self x t found
  · exact fits.vars frame (List.mem_cons_of_mem _ outer) x t found

theorem bindAll (fits : ctx.ScopedBy names) {bound : Bindings}
    (within : BoundWithin names bound) : (ctx.bindAll bound).ScopedBy names := by
  induction bound generalizing ctx with
  | nil => exact fits
  | cons b bound ih =>
    exact ih (fits.bind b.1 (within b List.mem_cons_self)) fun c member =>
      within c (List.mem_cons_of_mem b member)

theorem frames_bindTypeVars (scope : Scope) (xs : List String) :
    (scope.bindTypeVars xs).frames.map (·.vars) = scope.frames.map (·.vars) := by
  induction xs generalizing scope with
  | nil => rfl
  | cons x xs ih => exact ih (scope.bindTypeVar x)

theorem bindTypeVars (fits : ctx.ScopedBy names) (xs : List String) :
    (ctx.bindTypeVars xs).ScopedBy fun x => x ∈ xs ∨ names x := by
  have wider {t : Ty} (within : t.Within names) : t.Within fun x => x ∈ xs ∨ names x :=
    within.mono fun _ => .inr
  refine ⟨fun x => ?_, fun frame member x t found => ?_, fun x t found => wider (fits.aliases x t found),
    fun t declared => wider (fits.exceptionType t declared),
    fun f member t carried => wider (fits.exceptionVariants f member t carried)⟩
  · rw [Context.bindTypeVars, Scope.hasTypeVar_bindTypeVars, Bool.or_eq_true, decide_eq_true_eq,
      fits.typeVars]
  · have same := frames_bindTypeVars ctx.scope xs
    have vars : frame.vars ∈ ctx.scope.frames.map (·.vars) := same ▸ List.mem_map_of_mem member
    obtain ⟨before, among, known⟩ := List.mem_map.mp vars
    exact wider (fits.vars before among x t (known ▸ found))

end Context.ScopedBy

/-- That a judgement was made in a well-scoped context, about a type that fits into it. -/
structure Judgement.WellScoped (j : Judgement) : Prop where
  context : j.context.WellScoped
  type : j.type.ScopedIn j.context.scope

/-- That since an earlier progress only well-scoped judgements were made. -/
def Progress.ScopedSince (q p : Progress) : Prop :=
  ∃ js, q.judgements = js ++ p.judgements ∧ ∀ j ∈ js, j.WellScoped

theorem Progress.ScopedSince.of_same {p q : Progress} (same : q.judgements = p.judgements) :
    q.ScopedSince p :=
  ⟨[], same, by simp⟩

theorem Progress.ScopedSince.trans {p q r : Progress} (later : r.ScopedSince q)
    (sooner : q.ScopedSince p) : r.ScopedSince p := by
  obtain ⟨js, added, all⟩ := sooner
  obtain ⟨ks, more, others⟩ := later
  refine ⟨ks ++ js, by rw [more, added, List.append_assoc], fun j member => ?_⟩
  exact (List.mem_append.mp member).elim (others j) (all j)

/-- That what a step answers is good, whatever it reports, and all that it judges is well scoped.
What the cache knows must be right. -/
def Check.Scoped (good : α → Prop) (x : Check α) : Prop :=
  ∀ p, p.CacheSound → good (x p).1 ∧ (x p).2.CacheSound ∧ (x p).2.ScopedSince p

namespace Check.Scoped

variable {good : α → Prop} {good' : β → Prop} {x : Check α}

theorem answer {a : α} (h : good a) : Scoped good (pure a) :=
  fun _ sound => ⟨h, sound, .of_same rfl⟩

theorem bind {f : α → Check β} (first : Scoped good x) (next : ∀ a, good a → Scoped good' (f a)) :
    Scoped good' (x >>= f) := by
  intro p sound
  obtain ⟨answer, still, sooner⟩ := first p sound
  obtain ⟨result, after, later⟩ := next _ answer _ still
  exact ⟨result, after, later.trans sooner⟩

theorem map {f : α → β} (first : Scoped good x) (each : ∀ a, good a → good' (f a)) :
    Scoped good' (x >>= fun a => pure (f a)) :=
  first.bind fun a h => answer (each a h)

theorem imp {good' : α → Prop} (inner : Scoped good x) (each : ∀ a, good a → good' a) :
    Scoped good' x :=
  fun p sound => (inner p sound).imp_left (each _)

theorem guarded {skipped : α} (h : good skipped) (inner : Scoped good x) :
    Scoped good (guarded skipped x) := by
  intro p sound
  rw [guarded_apply]
  split
  · exact ⟨h, sound, .of_same rfl⟩
  · exact inner p sound

theorem report {good : Ty → Prop} (fault : Fault) (position : Option Position) (h : good .error) :
    Scoped good (report fault position) := by
  intro p sound
  exact ⟨h, sound.of_entries (congrArg Memo.entries (Progress.record_cache _)),
    .of_same (Progress.record_judgements _)⟩

/-- The answer of a report is not looked at. -/
theorem afterReport (fault : Fault) (position : Option Position) {f : Ty → Check β}
    (next : ∀ t, Scoped good' (f t)) : Scoped good' (Check.report fault position >>= f) := by
  have reported : Scoped (fun _ => True) (Check.report fault position) := .report fault position trivial
  exact reported.bind fun t _ => next t

theorem note (level : Log.Level) (topic text : String) :
    Scoped (fun _ => True) (note level topic text) :=
  fun _ sound => ⟨trivial, sound, .of_same rfl⟩

theorem judge {ctx : Context} {e : Located Expr} {t : Ty}
    (wellScoped : Judgement.WellScoped ⟨ctx, e, t⟩) : Scoped (fun _ => True) (judge ctx e t) :=
  fun _ sound => ⟨trivial, sound, [⟨ctx, e, t⟩], rfl, by simpa using wellScoped⟩

theorem require (ctx : Context) (found expected : Ty) (position : Option Position) :
    Scoped (fun _ => True) (require ctx found expected position) := by
  unfold Check.require
  split
  · exact .answer trivial
  · exact .afterReport _ _ fun _ => .answer trivial

end Check.Scoped

open Check.Scoped

section Annotations

variable {names : String → Prop} {ctx : Context}

mutual

/-- Below binders, an annotation may also mean a type that refers to them. -/
theorem resolve_scoped (fits : ctx.ScopedBy names) (bound : List String) (t : Located TypeExpr) :
    Scoped (Within fun x => x ∈ bound ∨ names x) (resolve ctx bound t) := by
  obtain ⟨t, position⟩ := t
  exact resolveNode_scoped fits bound position t
termination_by structural t

theorem resolveNode_scoped (fits : ctx.ScopedBy names) (bound : List String)
    (position : Option Position) (t : TypeExpr) :
    Scoped (Within fun x => x ∈ bound ∨ names x) (resolveNode ctx bound position t) := by
  cases t with
  | auto | bool | nat | unit | top | bottom => exact .answer (.of_closed rfl)
  | var x =>
    rw [resolveNode]
    split
    · rename_i known
      refine .answer (Within.var_iff.mpr ?_)
      rw [Bool.or_eq_true, fits.typeVars] at known
      exact known.imp_left (by simp)
    · split
      · rename_i t found
        exact .answer ((fits.aliases x t found).mono fun _ => .inr)
      · exact .report _ _ (.of_closed rfl)
  | arrow ps r =>
    exact .bind (resolveAll_scoped fits bound ps) fun _ params =>
      .map (resolve_scoped fits bound r) fun _ result => Within.arrow_iff.mpr ⟨params, result⟩
  | forAll xs b =>
    refine .map (resolve_scoped fits (bound ++ xs) b) fun _ body => Within.forAll_iff.mpr ?_
    exact body.mono fun x => by rw [List.mem_append, or_assoc, or_left_comm]; exact id
  | recursive y b =>
    refine .map (resolve_scoped fits (bound ++ [y]) b) fun _ body => Within.recursive_iff.mpr ?_
    exact body.mono fun x => by rw [List.mem_append, or_assoc, or_left_comm]; exact id
  | sum l r =>
    exact .bind (resolve_scoped fits bound l) fun _ left =>
      .map (resolve_scoped fits bound r) fun _ right => Within.sum_iff.mpr ⟨left, right⟩
  | tuple ts =>
    exact .map (resolveAll_scoped fits bound ts) fun _ elements => Within.tuple_iff.mpr elements
  | record fs =>
    exact .map (resolveFields_scoped fits bound fs) fun _ fields => Within.record_iff.mpr fields
  | variant fs =>
    exact .map (resolveAlternatives_scoped fits bound fs) fun _ payloads =>
      Within.variant_iff.mpr payloads
  | list t => exact .map (resolve_scoped fits bound t) fun _ element => Within.list_iff.mpr element
  | ref t => exact .map (resolve_scoped fits bound t) fun _ referent => Within.ref_iff.mpr referent
termination_by structural t

theorem resolveAll_scoped (fits : ctx.ScopedBy names) (bound : List String)
    (ts : List (Located TypeExpr)) :
    Scoped (fun us => ∀ u ∈ us, u.Within fun x => x ∈ bound ∨ names x) (resolveAll ctx bound ts) := by
  match ts with
  | [] => exact .answer (List.forall_mem_nil _)
  | t :: ts =>
    exact .bind (resolve_scoped fits bound t) fun _ first =>
      .map (resolveAll_scoped fits bound ts) fun _ rest => List.forall_mem_cons.mpr ⟨first, rest⟩
termination_by structural ts

theorem resolveFields_scoped (fits : ctx.ScopedBy names) (bound : List String)
    (fs : List (String × Located TypeExpr)) :
    Scoped (fun gs => ∀ f ∈ gs, f.2.Within fun x => x ∈ bound ∨ names x)
      (resolveFields ctx bound fs) := by
  match fs with
  | [] => exact .answer (List.forall_mem_nil _)
  | (l, t) :: fs =>
    exact .bind (resolve_scoped fits bound t) fun _ first =>
      .map (resolveFields_scoped fits bound fs) fun _ others =>
      List.forall_mem_cons.mpr ⟨first, others⟩
termination_by structural fs

theorem resolveAlternatives_scoped (fits : ctx.ScopedBy names) (bound : List String)
    (fs : List (String × Option (Located TypeExpr))) :
    Scoped (fun gs => ∀ f ∈ gs, ∀ t ∈ f.2, t.Within fun x => x ∈ bound ∨ names x)
      (resolveAlternatives ctx bound fs) := by
  match fs with
  | [] => exact .answer (List.forall_mem_nil _)
  | (l, none) :: fs =>
    exact .map (resolveAlternatives_scoped fits bound fs) fun _ others =>
      List.forall_mem_cons.mpr ⟨fun _ carried => (nomatch carried), others⟩
  | (l, some t) :: fs =>
    refine .bind (resolve_scoped fits bound t) fun u first =>
      .map (resolveAlternatives_scoped fits bound fs) fun gs others => ?_
    exact List.forall_mem_cons.mpr ⟨fun v carried => Option.some.inj carried ▸ first, others⟩
termination_by structural fs

end

theorem meaning_scoped (fits : ctx.ScopedBy names) (t : Located TypeExpr) :
    Scoped (Within names) (meaning ctx t) := by
  have resolved : Scoped (Within names) (resolve ctx [] t) :=
    (resolve_scoped fits [] t).imp fun _ within =>
      within.mono fun _ => (Or.resolve_left · List.not_mem_nil)
  intro p sound
  obtain ⟨within, -, since⟩ := resolved p sound
  refine ⟨?_, (meaning_follows ctx t).built.cacheSound sound, ?_⟩
  · rw [meaning_answer ctx t sound, ← resolve_answer ctx [] t p]
    exact within
  · rw [meaning_eq_resolve ctx t sound]
    exact since

theorem meanings_scoped (fits : ctx.ScopedBy names) (ts : List (Located TypeExpr)) :
    Scoped (fun us => ∀ u ∈ us, u.Within names) (meanings ctx ts) := by
  induction ts with
  | nil => exact .answer (List.forall_mem_nil _)
  | cons t ts ih =>
    exact .bind (meaning_scoped fits t) fun _ first =>
      .map ih fun _ rest => List.forall_mem_cons.mpr ⟨first, rest⟩

end Annotations

section Patterns

variable {names : String → Prop} {ctx : Context}

theorem BoundWithin.nil : BoundWithin names [] :=
  List.forall_mem_nil _

theorem BoundWithin.append {bound others : Bindings} (first : BoundWithin names bound)
    (second : BoundWithin names others) : BoundWithin names (bound ++ others) :=
  fun b member => (List.mem_append.mp member).elim (first b) (second b)

/-- The names that two patterns bind, one after the other. -/
theorem appended_scoped {x y : Check Bindings} (first : Scoped (BoundWithin names) x)
    (second : Scoped (BoundWithin names) y) :
    Scoped (BoundWithin names) (x >>= fun bound => y >>= fun others => pure (bound ++ others)) :=
  first.bind fun _ bound => second.map fun _ others => bound.append others

theorem reported_scoped (fault : Fault) (position : Option Position) :
    Scoped (BoundWithin names) (Check.report fault position >>= fun _ => pure []) :=
  .afterReport fault position fun _ => .answer .nil

theorem literalBindings_scoped (ctx : Context) (t expected : Ty) (position : Option Position) :
    Scoped (BoundWithin names) (literalBindings ctx t expected position) := by
  unfold literalBindings
  split
  · exact .answer .nil
  · exact reported_scoped _ _

mutual

theorem bindings_scoped (fits : ctx.ScopedBy names) {t : Ty} (within : t.Within names)
    (p : Located Pattern) : Scoped (BoundWithin names) (bindings ctx t p) := by
  obtain ⟨p, position⟩ := p
  exact .guarded .nil (bindingsNode_scoped fits within position p)
termination_by structural p

theorem bindingsNode_scoped (fits : ctx.ScopedBy names) {t : Ty} (within : t.Within names)
    (position : Option Position) (p : Pattern) :
    Scoped (BoundWithin names) (bindingsNode ctx t position p) := by
  cases p with
  | castAs q type =>
    refine .bind (meaning_scoped fits type) fun target meant => ?_
    dsimp only
    split
    · exact bindings_scoped fits meant q
    · exact .afterReport _ _ fun _ => bindings_scoped fits meant q
  | ascribed q type =>
    exact .bind (meaning_scoped fits type) fun ascribed meant =>
      .bind (.require ctx t ascribed position) fun _ _ => bindings_scoped fits meant q
  | variant l payload =>
    cases t with
    | variant fs =>
      rw [bindingsNode_variant]
      cases found : fs.lookup l with
      | none => exact reported_scoped _ _
      | some carried =>
        cases carried with
        | none =>
          cases payload with
          | none => exact .answer .nil
          | some q => exact reported_scoped _ _
        | some u =>
          cases payload with
          | none => exact reported_scoped _ _
          | some q =>
            have member := mem_of_lookup found
            exact bindings_scoped fits (Within.variant_iff.mp within _ member u rfl) q
    | never | unknown | error =>
      cases payload with
      | none => exact .answer .nil
      | some q => exact bindings_scoped fits within q
    | _ => exact reported_scoped _ _
  | inl q =>
    cases t with
    | sum l r => exact bindings_scoped fits (Within.sum_iff.mp within).1 q
    | never | unknown | error => exact bindings_scoped fits within q
    | _ => exact reported_scoped _ _
  | inr q =>
    cases t with
    | sum l r => exact bindings_scoped fits (Within.sum_iff.mp within).2 q
    | never | unknown | error => exact bindings_scoped fits within q
    | _ => exact reported_scoped _ _
  | tuple ps =>
    cases t with
    | tuple ts =>
      simp only [bindingsNode]
      split
      · exact bindingsEach_scoped fits (Within.tuple_iff.mp within) ps
      · exact reported_scoped _ _
    | never | unknown | error => exact bindingsAll_scoped fits within ps
    | _ => exact reported_scoped _ _
  | record fs =>
    cases t with
    | record gs => exact bindingsFields_scoped fits (Within.record_iff.mp within) position fs
    | never | unknown | error => exact bindingsFieldsAll_scoped fits within fs
    | _ => exact reported_scoped _ _
  | list ps =>
    cases t with
    | list u => exact bindingsAll_scoped fits (Within.list_iff.mp within) ps
    | never | unknown | error => exact bindingsAll_scoped fits within ps
    | _ => exact reported_scoped _ _
  | cons h tail =>
    cases t with
    | list u =>
      exact appended_scoped (bindings_scoped fits (Within.list_iff.mp within) h)
        (bindings_scoped fits within tail)
    | never | unknown | error =>
      exact appended_scoped (bindings_scoped fits within h) (bindings_scoped fits within tail)
    | _ => exact reported_scoped _ _
  | bool _ => exact literalBindings_scoped ctx t .bool position
  | unit => exact literalBindings_scoped ctx t .unit position
  | nat _ => exact literalBindings_scoped ctx t .nat position
  | succ q =>
    exact appended_scoped (literalBindings_scoped ctx t .nat position)
      (bindings_scoped fits (.of_closed rfl) q)
  | var x => exact .answer fun b member => List.mem_singleton.mp member ▸ within
termination_by structural p

theorem bindingsAll_scoped (fits : ctx.ScopedBy names) {t : Ty} (within : t.Within names)
    (ps : List (Located Pattern)) : Scoped (BoundWithin names) (bindingsAll ctx t ps) := by
  match ps with
  | [] => exact .answer .nil
  | p :: ps =>
    exact appended_scoped (bindings_scoped fits within p) (bindingsAll_scoped fits within ps)
termination_by structural ps

theorem bindingsEach_scoped (fits : ctx.ScopedBy names) {ts : List Ty}
    (each : ∀ t ∈ ts, t.Within names) (ps : List (Located Pattern)) :
    Scoped (BoundWithin names) (bindingsEach ctx ts ps) := by
  match ps, ts with
  | [], _ => exact .answer .nil
  | _ :: _, [] => exact .answer .nil
  | p :: ps, t :: ts =>
    obtain ⟨first, rest⟩ := List.forall_mem_cons.mp each
    exact appended_scoped (bindings_scoped fits first p) (bindingsEach_scoped fits rest ps)
termination_by structural ps

theorem bindingsFields_scoped (fits : ctx.ScopedBy names) {gs : List (String × Ty)}
    (each : ∀ g ∈ gs, g.2.Within names) (position : Option Position)
    (fs : List (String × Located Pattern)) :
    Scoped (BoundWithin names) (bindingsFields ctx gs position fs) := by
  match fs with
  | [] => exact .answer .nil
  | (l, p) :: fs =>
    rw [bindingsFields_cons]
    cases found : gs.lookup l with
    | some t =>
      have within := each (l, t) (mem_of_lookup found)
      exact appended_scoped (bindings_scoped fits within p) (bindingsFields_scoped fits each position fs)
    | none =>
      exact .afterReport _ _ fun _ =>
        bindingsFields_scoped fits each position fs
termination_by structural fs

theorem bindingsFieldsAll_scoped (fits : ctx.ScopedBy names) {t : Ty} (within : t.Within names)
    (fs : List (String × Located Pattern)) :
    Scoped (BoundWithin names) (bindingsFieldsAll ctx t fs) := by
  match fs with
  | [] => exact .answer .nil
  | (_, p) :: fs =>
    exact appended_scoped (bindings_scoped fits within p) (bindingsFieldsAll_scoped fits within fs)
termination_by structural fs

end

end Patterns

end Typing

end StellaLang
