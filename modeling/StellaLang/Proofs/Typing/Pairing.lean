import StellaLang.Proofs.Ty.Renaming
import StellaLang.Proofs.Typing.Meaning

/-! Two runs of the checker beside each other that call one type parameter by different names. They
report the same faults at the same places, about types that differ in the name, and halt
together. -/
namespace StellaLang.Typing

namespace Fault

/-- The types that a fault is about. -/
def types : Fault → List Ty
  | mismatch expected found => [expected, found]
  | illegalCast source target => [source, target]
  | missingRecordField _ record => [record]
  | notAFunction found | notATuple found | notARecord found | notAReference found | notASum found
  | notAList found | notAGeneric found | notAVariant found | notARecursiveType found => [found]
  | patternMismatch type => [type]
  | _ => []

/-- A fault but for its types. -/
def bare : Fault → Fault
  | mismatch .. => mismatch .unit .unit
  | illegalCast .. => illegalCast .unit .unit
  | missingRecordField l _ => missingRecordField l .unit
  | notAFunction _ => notAFunction .unit
  | notATuple _ => notATuple .unit
  | notARecord _ => notARecord .unit
  | notAReference _ => notAReference .unit
  | notASum _ => notASum .unit
  | notAList _ => notAList .unit
  | notAGeneric _ => notAGeneric .unit
  | notAVariant _ => notAVariant .unit
  | notARecursiveType _ => notARecursiveType .unit
  | patternMismatch _ => patternMismatch .unit
  | fault => fault

/-- The kinds of fault that are about one type and nothing else. -/
def aboutOne : List (Ty → Fault) :=
  [notAFunction, notATuple, notARecord, notAReference, notASum, notAList, notAGeneric, notAVariant,
    notARecursiveType, patternMismatch]

/-- One fault, about types that differ in a name. -/
structure Renamed (x y : String) (f g : Fault) : Prop where
  bare : g.bare = f.bare
  types : List.Forall₂ (Ty.Renamed x y) f.types g.types

namespace Renamed

variable {x y : String} {t u t' u' : Ty}

theorem mismatch (expected : t.Renamed x y u) (found : t'.Renamed x y u') :
    (mismatch t t').Renamed x y (mismatch u u') :=
  ⟨rfl, .cons expected (.cons found .nil)⟩

theorem illegalCast (source : t.Renamed x y u) (target : t'.Renamed x y u') :
    (illegalCast t t').Renamed x y (illegalCast u u') :=
  ⟨rfl, .cons source (.cons target .nil)⟩

theorem missingRecordField (l : String) (record : t.Renamed x y u) :
    (missingRecordField l t).Renamed x y (missingRecordField l u) :=
  ⟨rfl, .cons record .nil⟩

/-- A fault that is about one type and nothing else. -/
theorem one {fault : Ty → Fault} (member : fault ∈ aboutOne) (found : t.Renamed x y u) :
    (fault t).Renamed x y (fault u) := by
  simp only [aboutOne, List.mem_cons, List.not_mem_nil, or_false] at member
  rcases member with rfl | rfl | rfl | rfl | rfl | rfl | rfl | rfl | rfl | rfl
  all_goals exact ⟨rfl, .cons found .nil⟩

/-- A fault that is about no type. -/
theorem plain {f : Fault} (plain : f.types = []) : f.Renamed x y f :=
  ⟨rfl, plain ▸ .nil⟩

end Renamed

theorem fault_at (f : Fault) (position : Option Position) : (f.at position).fault = f := by
  cases f <;> rfl

theorem position_at_bare (f : Fault) (position : Option Position) :
    (f.bare.at position).position = (f.at position).position := by
  cases f <;> rfl

end Fault

/-- One fault at one place. -/
structure TypeError.Renamed (x y : String) (e f : TypeError) : Prop where
  position : f.position = e.position
  fault : e.fault.Renamed x y f.fault

theorem Fault.Renamed.at {x y : String} {f g : Fault} (h : f.Renamed x y g) (position : Option Position) :
    (f.at position).Renamed x y (g.at position) := by
  constructor
  · rw [← position_at_bare g, h.bare, position_at_bare]
  · rw [fault_at, fault_at]
    exact h

/-- Two states of checking that differ, since there were the errors `old`, only in the types that
errors name. -/
structure Progress.Renamed (x y : String) (old : List TypeError) (p q : Progress) : Prop where
  limits : q.limits = p.limits
  halted : q.halted = p.halted
  cache : q.cache = p.cache
  sound : p.CacheSound
  errors : ∃ es fs, p.errors = old ++ es ∧ q.errors = old ++ fs ∧ List.Forall₂ (TypeError.Renamed x y) es fs

namespace Progress.Renamed

variable {x y : String} {old : List TypeError} {p q : Progress}

theorem start (sound : p.CacheSound) : Renamed x y p.errors p p :=
  ⟨rfl, rfl, rfl, sound, [], [], (List.append_nil _).symm, (List.append_nil _).symm, .nil⟩

theorem record (h : Renamed x y old p q) {e f : TypeError} (related : e.Renamed x y f) :
    Renamed x y old (p.record e) (q.record f) := by
  cases active : p.halted with
  | true =>
    rw [record_of_halted e active, record_of_halted f (h.halted.trans active)]
    exact h
  | false =>
    have active' : q.halted = false := h.halted.trans active
    obtain ⟨es, fs, mine, yours, all⟩ := h.errors
    have length : q.errors.length = p.errors.length := by
      rw [mine, yours, List.length_append, List.length_append, all.length_eq]
    constructor
    · rw [record_limits, record_limits, h.limits]
    · rw [record_halted e active, record_halted f active', h.limits, length]
    · rw [record_cache, record_cache, h.cache]
    · exact h.sound.of_entries (congrArg Memo.entries (record_cache e))
    · refine ⟨es ++ [e], fs ++ [f], ?_, ?_, List.rel_append all (.cons related .nil)⟩
      · rw [record_errors e active, mine, List.append_assoc]
      · rw [record_errors f active', yours, List.append_assoc]

/-- The states may change in what no error and no annotation depends on. -/
theorem of_eq (h : Renamed x y old p q) {p' q' : Progress} (limits : p'.limits = p.limits)
    (limits' : q'.limits = q.limits) (halted : p'.halted = p.halted) (halted' : q'.halted = q.halted)
    (errors : p'.errors = p.errors) (errors' : q'.errors = q.errors) (cache : q'.cache = p'.cache)
    (sound : p'.CacheSound) : Renamed x y old p' q' where
  limits := limits'.trans (h.limits.trans limits.symm)
  halted := halted'.trans (h.halted.trans halted.symm)
  cache := cache
  sound := sound
  errors := by
    rw [errors, errors']
    exact h.errors

end Progress.Renamed

namespace Check

/-- That two steps keep up with each other, with related answers. -/
def Paired (x y : String) (old : List TypeError) (R : α → β → Prop) (a : Check α) (b : Check β) : Prop :=
  ∀ p q, Progress.Renamed x y old p q → R (a p).1 (b q).1 ∧ Progress.Renamed x y old (a p).2 (b q).2

namespace Paired

variable {x y : String} {old : List TypeError} {R : α → β → Prop} {S : γ → δ → Prop} {a : Check α}
  {b : Check β}

theorem answer {u : α} {v : β} (related : R u v) : Paired x y old R (pure u) (pure v) :=
  fun _ _ abreast => ⟨related, abreast⟩

theorem bind {f : α → Check γ} {g : β → Check δ} (first : Paired x y old R a b)
    (next : ∀ u v, R u v → Paired x y old S (f u) (g v)) : Paired x y old S (a >>= f) (b >>= g) := by
  intro p q abreast
  obtain ⟨answers, states⟩ := first p q abreast
  exact next _ _ answers _ _ states

theorem map {f : α → γ} {g : β → δ} (first : Paired x y old R a b) (each : ∀ u v, R u v → S (f u) (g v)) :
    Paired x y old S (a >>= fun u => pure (f u)) (b >>= fun v => pure (g v)) :=
  first.bind fun u v related => answer (each u v related)

theorem guarded {u : α} {v : β} (skipped : R u v) (inner : Paired x y old R a b) :
    Paired x y old R (guarded u a) (guarded v b) := by
  intro p q abreast
  rw [guarded_apply, guarded_apply, abreast.halted]
  split
  · exact ⟨skipped, abreast⟩
  · exact inner p q abreast

/-- A report on both sides, whatever its answer is asked to be. -/
theorem reporting {R : Ty → Ty → Prop} {f g : Fault} (related : f.Renamed x y g)
    (position : Option Position)
    (error : R .error .error) : Paired x y old R (report f position) (report g position) :=
  fun _ _ abreast => ⟨error, abreast.record (related.at position)⟩

theorem report {f g : Fault} (related : f.Renamed x y g) (position : Option Position) :
    Paired x y old (Ty.Renamed x y) (report f position) (report g position) :=
  reporting related position (.constant .error)

theorem judge (ctx ctx' : Context) (e e' : Located Syntax.Expr) (t t' : Ty) :
    Paired x y old Eq (judge ctx e t) (judge ctx' e' t') :=
  fun _ _ abreast => ⟨rfl, abreast.of_eq rfl rfl rfl rfl rfl rfl abreast.cache
    (abreast.sound.of_entries rfl)⟩

end Paired

end Check

/-- Two contexts that call one type parameter `x` and `y`. -/
structure Context.Renamed (x y : String) (ctx ctx' : Context) : Prop where
  environment : ctx'.toEnvironment = ctx.toEnvironment
  aliases : ∀ z t, ctx.aliases.lookup z = some t → t.Spares x ∧ t.Spares y
  exceptions : ∀ t, ctx.exception? = some t → Ty.Renamed x y t t
  vars : ∀ v, Option.Rel (Ty.Renamed x y) (ctx.scope.lookup v) (ctx'.scope.lookup v)
  typeVars : ∀ z, z ≠ x → z ≠ y → ctx'.scope.hasTypeVar z = ctx.scope.hasTypeVar z
  first : ctx.scope.hasTypeVar x = true
  second : ctx'.scope.hasTypeVar y = true

namespace Context.Renamed

variable {x y : String} {ctx ctx' : Context}

theorem push (h : Renamed x y ctx ctx') : Renamed x y ctx.push ctx'.push :=
  ⟨h.environment, h.aliases, h.exceptions, h.vars, h.typeVars, h.first, h.second⟩

theorem bind (h : Renamed x y ctx ctx') (v : String) {t u : Ty} (related : t.Renamed x y u) :
    Renamed x y (ctx.bind v t) (ctx'.bind v u) := by
  refine ⟨h.environment, h.aliases, h.exceptions, fun w => ?_, h.typeVars, h.first, h.second⟩
  rw [Context.bind, Context.bind, Scope.lookup_bind, Scope.lookup_bind]
  split
  · exact .some related
  · exact h.vars w

theorem bindAll (h : Renamed x y ctx ctx') {bound bound' : List (String × Ty)}
    (related : List.Forall₂ (Ty.Labelled (Ty.Renamed x y)) bound bound') :
    Renamed x y (ctx.bindAll bound) (ctx'.bindAll bound') := by
  induction related generalizing ctx ctx' with
  | nil => exact h
  | @cons b c bound bound' first _ ih =>
    obtain ⟨v, t⟩ := b
    obtain ⟨w, u⟩ := c
    obtain ⟨same, related⟩ := first
    obtain rfl : v = w := same
    exact ih (h.bind v related)

theorem bindTypeVars (h : Renamed x y ctx ctx') (zs : List String) :
    Renamed x y (ctx.bindTypeVars zs) (ctx'.bindTypeVars zs) := by
  refine ⟨h.environment, h.aliases, h.exceptions, fun v => ?_, fun z other other' => ?_, ?_, ?_⟩
  · rw [Context.bindTypeVars, Context.bindTypeVars, Scope.lookup_bindTypeVars, Scope.lookup_bindTypeVars]
    exact h.vars v
  · rw [Context.bindTypeVars, Context.bindTypeVars, Scope.hasTypeVar_bindTypeVars,
      Scope.hasTypeVar_bindTypeVars, h.typeVars z other other']
  · rw [Context.bindTypeVars, Scope.hasTypeVar_bindTypeVars, h.first, Bool.or_true]
  · rw [Context.bindTypeVars, Scope.hasTypeVar_bindTypeVars, h.second, Bool.or_true]

theorem conforms (h : Renamed x y ctx ctx') {t u t' u' : Ty} (first : t.Renamed x y u)
    (second : t'.Renamed x y u') : ctx'.conforms u u' = ctx.conforms t t' := by
  have mode : ctx'.subtyping = ctx.subtyping := congrArg Environment.subtyping h.environment
  rw [Context.conforms, Context.conforms, mode, first.conforms second]

theorem exception? (h : Renamed x y ctx ctx') : ctx'.exception? = ctx.exception? := by
  unfold Context.exception?
  rw [h.environment]

end Context.Renamed

section Steps

variable {x y : String} {old : List TypeError} {ctx ctx' : Context}

open Check (Paired)

theorem require_paired (h : ctx.Renamed x y ctx') {t u t' u' : Ty} (first : t.Renamed x y u)
    (second : t'.Renamed x y u') (position : Option Position) :
    Paired x y old Eq (Check.require ctx t t' position) (Check.require ctx' u u' position) := by
  unfold Check.require
  rw [h.conforms first second]
  split
  · exact .answer rfl
  · exact .map (.report (.mismatch second first) position) fun _ _ _ => rfl

end Steps

end StellaLang.Typing
