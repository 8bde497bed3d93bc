import StellaLang.Proofs.Typing.FollowingExpr
import StellaLang.Proofs.Typing.InPlace

/-! The checker in place restores what it changes. Each step is compared with the step that is
handed its context: what the store may look like afterwards is said of every store, and of
stores without pending binders also that both steps answer and report the same. -/
namespace StellaLang.Typing.InPlace

open Syntax (Decl Expr Pattern TypeExpr)

namespace Step

/-- What a step in place keeps of the context, and how it compares with a step of `Check`:
pending binders are restored and errors are only added. -/
structure Follows (kept : Context → Context → Prop) (R : α → Context → β → Prop) (x : Step α)
    (y : Context → Check β) : Prop where
  kept : ∀ s, kept s.context (x s).2.context
  binders : ∀ s, (x s).2.binders = s.binders
  errors : ∀ s, s.progress.errors <+: (x s).2.progress.errors
  agrees : ∀ s, s.binders = [] → R (x s).1 (x s).2.context (y s.context s.progress).1 ∧
    (x s).2.progress = (y s.context s.progress).2

/-- The context is the same afterwards. -/
abbrev Restores (x : Step α) (y : Context → Check α) : Prop :=
  Follows (fun ctx ctx' => ctx' = ctx) (fun a _ b => a = b) x y

/-- Only the current frame may have changed. -/
def Within (ctx ctx' : Context) : Prop :=
  ctx'.toEnvironment = ctx.toEnvironment ∧ ctx'.scope.outer = ctx.scope.outer

/-- The context afterwards is part of the answer of the other step. -/
abbrev Extends (kept : Context → Context → Prop) (context : β → Context) (answer : β → α)
    (x : Step α) (y : Context → Check β) : Prop :=
  Follows kept (fun a ctx b => ctx = context b ∧ a = answer b) x y

namespace Follows

variable {kept kept₁ kept₂ : Context → Context → Prop} {R : γ → Context → δ → Prop}

/-- After a step that restores, another one starts from the same context. -/
theorem after {x : Step α} {y : Context → Check α} {f : α → Step γ} {g : α → Context → Check δ}
    (first : Restores x y) (next : ∀ a, Follows kept R (f a) (g a)) :
    Follows kept R (x >>= f) (fun ctx => y ctx >>= fun a => g a ctx) where
  kept s := first.kept s ▸ (next (x s).1).kept (x s).2
  binders s := ((next (x s).1).binders (x s).2).trans (first.binders s)
  errors s := (first.errors s).trans ((next (x s).1).errors (x s).2)
  agrees s none := by
    obtain ⟨answer, progress⟩ := first.agrees s none
    have later := (next (x s).1).agrees (x s).2 ((first.binders s).trans none)
    rw [first.kept s, progress] at later
    rw [Check.bind_apply, ← answer]
    exact later

/-- After a step that changes the context, another one starts from the new context. -/
theorem bind {x : Step α} {y : Context → Check β} {context : β → Context} {answer : β → α}
    {f : α → Step γ} {g : α → Context → Check δ}
    (through : ∀ c₁ c₂ c₃, kept₁ c₁ c₂ → kept₂ c₂ c₃ → kept c₁ c₃)
    (first : Extends kept₁ context answer x y) (next : ∀ a, Follows kept₂ R (f a) (g a)) :
    Follows kept R (x >>= f) (fun ctx => y ctx >>= fun b => g (answer b) (context b)) where
  kept s := through _ _ _ (first.kept s) ((next (x s).1).kept (x s).2)
  binders s := ((next (x s).1).binders (x s).2).trans (first.binders s)
  errors s := (first.errors s).trans ((next (x s).1).errors (x s).2)
  agrees s none := by
    obtain ⟨⟨context, answer⟩, progress⟩ := first.agrees s none
    have later := (next (x s).1).agrees (x s).2 ((first.binders s).trans none)
    rw [context, progress] at later
    rw [Check.bind_apply, ← answer]
    exact later

theorem change {h : Context → Context} (keeps : ∀ ctx, kept ctx (h ctx)) :
    Extends kept id (fun _ => ()) (change h) (fun ctx => pure (h ctx)) where
  kept s := keeps s.context
  binders _ := rfl
  errors _ := List.prefix_refl _
  agrees _ _ := ⟨⟨rfl, rfl⟩, rfl⟩

/-- A step that changes nothing and answers with its context. -/
theorem unchanged {b : Context → β} {a : α} {context : β → Context} {answer : β → α}
    (refl : ∀ ctx, kept ctx ctx) (same : ∀ ctx, ctx = context (b ctx) ∧ a = answer (b ctx)) :
    Extends kept context answer (pure a) (fun ctx => pure (b ctx)) where
  kept s := refl s.context
  binders _ := rfl
  errors _ := List.prefix_refl _
  agrees s _ := ⟨same s.context, rfl⟩

/-- A step that starts from a changed context. -/
theorem changed {h : Context → Context} {x : Step γ} {y : Context → Check δ}
    (through : ∀ c₁ c₂ c₃, kept₁ c₁ c₂ → kept₂ c₂ c₃ → kept c₁ c₃)
    (keeps : ∀ ctx, kept₁ ctx (h ctx)) (next : Follows kept₂ R x y) :
    Follows kept R (Step.change h >>= fun _ => x) (fun ctx => y (h ctx)) where
  kept s := through _ _ _ (keeps s.context) (next.kept { s with context := h s.context })
  binders s := next.binders { s with context := h s.context }
  errors s := next.errors { s with context := h s.context }
  agrees s none := next.agrees { s with context := h s.context } none

/-- What is kept may be said more weakly, and the answer be changed on both sides. -/
theorem imp {S : γ → Context → δ → Prop} {x : Step γ} {y : Context → Check δ}
    (weaker : ∀ c₁ c₂, kept₁ c₁ c₂ → kept c₁ c₂) (less : ∀ a ctx b, S a ctx b → R a ctx b)
    (follows : Follows kept₁ S x y) : Follows kept R x y where
  kept s := weaker _ _ (follows.kept s)
  binders := follows.binders
  errors := follows.errors
  agrees s none := (follows.agrees s none).imp_left (less _ _ _)

/-- An answer that is made of that of the step before. -/
theorem answering {S : α → Context → β → Prop} {x : Step α} {y : Context → Check β}
    (follows : Follows kept S x y) (f : α → γ) (g : β → δ)
    (same : ∀ {a ctx b}, S a ctx b → R (f a) ctx (g b)) :
    Follows kept R (x >>= fun a => pure (f a)) (fun ctx => y ctx >>= fun b => pure (g b)) where
  kept := follows.kept
  binders := follows.binders
  errors := follows.errors
  agrees s none := (follows.agrees s none).imp_left same

end Follows

namespace Within

theorem refl (ctx : Context) : Within ctx ctx :=
  ⟨rfl, rfl⟩

theorem trans (c₁ c₂ c₃ : Context) (first : Within c₁ c₂) (second : Within c₂ c₃) : Within c₁ c₃ :=
  ⟨second.1.trans first.1, second.2.trans first.2⟩

/-- Frames are left in the order opposite to that in which they were entered. -/
theorem leave {ctx ctx' : Context} (within : Within ctx.push ctx') : Step.leave ctx' = ctx := by
  obtain ⟨environment, outer⟩ := within
  obtain ⟨environment', current, frames⟩ := ctx'
  obtain rfl : environment' = ctx.toEnvironment := environment
  obtain rfl : frames = ctx.scope.frames := outer
  rfl

theorem bind (ctx : Context) (x : String) (t : Ty) : Within ctx (ctx.bind x t) :=
  ⟨rfl, rfl⟩

theorem bindAll (ctx : Context) (bound : List (String × Ty)) : Within ctx (ctx.bindAll bound) := by
  induction bound generalizing ctx with
  | nil => exact refl ctx
  | cons b bound ih => exact trans _ _ _ (bind ctx b.1 b.2) (ih _)

theorem bindTypeVars (ctx : Context) (xs : List String) : Within ctx (ctx.bindTypeVars xs) := by
  induction xs generalizing ctx with
  | nil => exact refl ctx
  | cons x xs ih =>
    have first : Within ctx { ctx with scope := ctx.scope.bindTypeVar x } := ⟨rfl, rfl⟩
    exact trans _ _ _ first (ih _)

end Within

namespace Follows

theorem answer (a : α) : Restores (pure a) (fun _ => pure a) where
  kept _ := rfl
  binders _ := rfl
  errors _ := List.prefix_refl _
  agrees _ _ := ⟨rfl, rfl⟩

theorem map {x : Step α} {y : Context → Check α} (first : Restores x y) (f : α → β) :
    Restores (x >>= fun a => pure (f a)) (fun ctx => y ctx >>= fun a => pure (f a)) :=
  after first fun a => answer (f a)

theorem look {y : Context → Check α} (grown : ∀ ctx p, p.errors <+: (y ctx p).2.errors) :
    Restores (Step.look y) y where
  kept _ := rfl
  binders _ := rfl
  errors s := grown s.context s.progress
  agrees _ _ := ⟨rfl, rfl⟩

theorem built {y : Context → Check α} (built : ∀ ctx, Check.Built (y ctx)) :
    Restores (Step.look y) y :=
  look fun ctx p => ((built ctx).grown p).errors

theorem guarded_apply (skipped : α) (x : Step α) (s : Store) :
    Step.guarded skipped x s = if s.progress.halted = true then (skipped, s) else x s := by
  change (if s.progress.halted = true then pure skipped else x : Step α) s = _
  split <;> rfl

theorem guarded (skipped : α) {x : Step α} {y : Context → Check α} (inner : Restores x y) :
    Restores (Step.guarded skipped x) (fun ctx => Check.guarded skipped (y ctx)) where
  kept s := by
    rw [guarded_apply]
    split
    · rfl
    · exact inner.kept s
  binders s := by
    rw [guarded_apply]
    split
    · rfl
    · exact inner.binders s
  errors s := by
    rw [guarded_apply]
    split
    · exact List.prefix_refl _
    · exact inner.errors s
  agrees s none := by
    rw [guarded_apply, Check.guarded_apply]
    split
    · exact ⟨rfl, rfl⟩
    · exact inner.agrees s none

/-- A frame that is entered is left again, whatever was bound in it. -/
theorem framed {x : Step α} {y : Context → Check α}
    (inner : Follows Within (fun a _ b => a = b) x y) :
    Restores (Step.framed x) (fun ctx => y ctx.push) where
  kept s := (inner.kept { s with context := s.context.push }).leave
  binders s := inner.binders { s with context := s.context.push }
  errors s := inner.errors { s with context := s.context.push }
  agrees s none := inner.agrees { s with context := s.context.push } none

end Follows

section Frames

/-- Steps in a frame: only that frame may change. -/
abbrev Enters (x : Step α) (y : Context → Check α) : Prop :=
  Follows Within (fun a _ b => a = b) x y

variable {R : γ → Context → δ → Prop}

theorem Follows.enters {x : Step α} {y : Context → Check α} (restores : Restores x y) : Enters x y := by
  refine .imp ?_ (fun _ _ _ => id) restores
  rintro _ _ rfl
  exact .refl _

theorem Follows.bindWithin {x : Step α} {y : Context → Check β} {context : β → Context}
    {answer : β → α} {f : α → Step γ} {g : α → Context → Check δ}
    (first : Extends Within context answer x y) (next : ∀ a, Follows Within R (f a) (g a)) :
    Follows Within R (x >>= f) (fun ctx => y ctx >>= fun b => g (answer b) (context b)) :=
  .bind Within.trans first next

theorem Follows.changedWithin {h : Context → Context} {x : Step γ} {y : Context → Check δ}
    (keeps : ∀ ctx, Within ctx (h ctx)) (next : Follows Within R x y) :
    Follows Within R (Step.change h >>= fun _ => x) (fun ctx => y (h ctx)) :=
  .changed Within.trans keeps next

end Frames

/-- A step that reads the context and the pending binders, and changes the progress only. -/
def Reads (x : Step α) (y : Context → List String → Check α) : Prop :=
  ∀ s, x s = ((y s.context s.binders s.progress).1,
    { s with progress := (y s.context s.binders s.progress).2 })

namespace Reads

theorem answer (a : α) : Reads (pure a) (fun _ _ => pure a) :=
  fun _ => rfl

theorem bind {x : Step α} {y : Context → List String → Check α} {f : α → Step β}
    {g : α → Context → List String → Check β} (first : Reads x y) (next : ∀ a, Reads (f a) (g a)) :
    Reads (x >>= f) (fun ctx bound => y ctx bound >>= fun a => g a ctx bound) := by
  intro s
  rw [bind_apply, first s, next _ _]
  rfl

theorem map {x : Step α} {y : Context → List String → Check α} (first : Reads x y) (f : α → β) :
    Reads (x >>= fun a => pure (f a)) (fun ctx bound => y ctx bound >>= fun a => pure (f a)) :=
  bind first fun a => answer (f a)

/-- What is cut off are the names that were added. -/
theorem under (xs : List String) {x : Step α} {y : Context → List String → Check α}
    (inner : Reads x y) : Reads (Step.under xs x) (fun ctx bound => y ctx (bound ++ xs)) := by
  intro s
  have run := inner { s with binders := s.binders ++ xs }
  have cut : (s.binders ++ xs).take s.binders.length = s.binders := List.take_left
  change ((x { s with binders := s.binders ++ xs }).1,
    { (x { s with binders := s.binders ++ xs }).2 with
      binders := (x { s with binders := s.binders ++ xs }).2.binders.take s.binders.length }) = _
  rw [run, cut]

theorem restores {x : Step α} {y : Context → List String → Check α} (reads : Reads x y)
    (built : ∀ ctx bound, Check.Built (y ctx bound)) : Restores x (fun ctx => y ctx []) where
  kept s := by rw [reads s]
  binders s := by rw [reads s]
  errors s := by
    rw [reads s]
    exact ((built s.context s.binders).grown s.progress).errors
  agrees s none := by
    rw [reads s, none]
    exact ⟨rfl, rfl⟩

end Reads

end Step

open Step Step.Follows

section Annotations

mutual

theorem resolve_reads (t : Located TypeExpr) :
    Reads (resolve t) (fun ctx bound => Typing.resolve ctx bound t) := by
  obtain ⟨t, position⟩ := t
  exact resolveNode_reads position t
termination_by structural t

theorem resolveNode_reads (position : Option Position) (t : TypeExpr) :
    Reads (resolveNode position t) (fun ctx bound => Typing.resolveNode ctx bound position t) := by
  cases t with
  | auto | bool | nat | unit | top | bottom => exact .answer _
  | var x => exact fun s => rfl
  | arrow ps r => exact .bind (resolveAll_reads ps) fun _ => .map (resolve_reads r) _
  | forAll xs b => exact .map (.under xs (resolve_reads b)) _
  | recursive x b => exact .map (.under [x] (resolve_reads b)) _
  | sum l r => exact .bind (resolve_reads l) fun _ => .map (resolve_reads r) _
  | tuple ts => exact .map (resolveAll_reads ts) _
  | record fs => exact .map (resolveFields_reads fs) _
  | variant fs => exact .map (resolveAlternatives_reads fs) _
  | list t => exact .map (resolve_reads t) _
  | ref t => exact .map (resolve_reads t) _
termination_by structural t

theorem resolveAll_reads (ts : List (Located TypeExpr)) :
    Reads (resolveAll ts) (fun ctx bound => Typing.resolveAll ctx bound ts) := by
  match ts with
  | [] => exact .answer _
  | t :: ts => exact .bind (resolve_reads t) fun _ => .map (resolveAll_reads ts) _
termination_by structural ts

theorem resolveFields_reads (fs : List (String × Located TypeExpr)) :
    Reads (resolveFields fs) (fun ctx bound => Typing.resolveFields ctx bound fs) := by
  match fs with
  | [] => exact .answer _
  | (l, t) :: fs => exact .bind (resolve_reads t) fun _ => .map (resolveFields_reads fs) _
termination_by structural fs

theorem resolveAlternatives_reads (fs : List (String × Option (Located TypeExpr))) :
    Reads (resolveAlternatives fs) (fun ctx bound => Typing.resolveAlternatives ctx bound fs) := by
  match fs with
  | [] => exact .answer _
  | (l, none) :: fs => exact .map (resolveAlternatives_reads fs) _
  | (l, some t) :: fs => exact .bind (resolve_reads t) fun _ => .map (resolveAlternatives_reads fs) _
termination_by structural fs

end

theorem resolve_restores (t : Located TypeExpr) :
    Restores (resolve t) (fun ctx => Typing.resolve ctx [] t) :=
  (resolve_reads t).restores fun ctx bound => (resolve_follows ctx bound t).built

theorem meaning_restores (t : Located TypeExpr) :
    Restores (meaning t) (fun ctx => Typing.meaning ctx t) := by
  unfold meaning Typing.meaning
  split
  · exact resolve_restores t
  refine after (.look fun _ _ => List.prefix_refl _) fun found => ?_
  cases found with
  | some found => exact after (.built fun _ => .note ..) fun _ => .answer found
  | none =>
    exact after (resolve_restores t) fun resolved =>
      after (.look fun _ _ => List.prefix_refl _) fun _ => .answer resolved

theorem meanings_restores (ts : List (Located TypeExpr)) :
    Restores (meanings ts) (fun ctx => Typing.meanings ctx ts) := by
  induction ts with
  | nil => exact .answer _
  | cons t ts ih => exact after (meaning_restores t) fun _ => after ih fun _ => .answer _

end Annotations

theorem report_restores (fault : Fault) (position : Option Position) :
    Restores (report fault position) (fun _ => Check.report fault position) :=
  .built fun _ => .report fault position

theorem require_restores (t u : Ty) (position : Option Position) :
    Restores (require t u position) (fun ctx => Check.require ctx t u position) :=
  .built fun ctx => (require_follows ctx t u position).built

theorem join_restores (t u : Ty) (position : Option Position) :
    Restores (join t u position) (fun ctx => Check.join ctx t u position) :=
  .built fun _ => (join_follows t u position).built

/-- The type of exceptions is read from the context that there is at the time. -/
theorem exception?_followed {kept : Context → Context → Prop} {R : γ → Context → δ → Prop}
    {f : Option Ty → Step γ} {g : Option Ty → Context → Check δ}
    (next : ∀ raised, Follows kept R (f raised) (g raised)) :
    Follows kept R (exception? >>= f) (fun ctx => g ctx.exception? ctx) :=
  after (y := fun ctx => pure ctx.exception?) (.built fun _ => .answer _) next

section Patterns

theorem unexpectedPattern_restores (t : Ty) (position : Option Position) :
    Restores (unexpectedPattern t position) (fun _ => Typing.unexpectedPattern t position) :=
  .built fun _ => (unexpectedPattern_follows t position).built

theorem literalBindings_restores (t expected : Ty) (position : Option Position) :
    Restores (literalBindings t expected position)
      (fun ctx => Typing.literalBindings ctx t expected position) :=
  .built fun ctx => (literalBindings_follows ctx t expected position).built

mutual

theorem bindings_restores (t : Ty) (p : Located Pattern) :
    Restores (bindings t p) (fun ctx => Typing.bindings ctx t p) := by
  obtain ⟨p, position⟩ := p
  exact .guarded [] (bindingsNode_restores t position p)
termination_by structural p

theorem bindingsNode_restores (t : Ty) (position : Option Position) (p : Pattern) :
    Restores (bindingsNode t position p) (fun ctx => Typing.bindingsNode ctx t position p) := by
  cases p with
  | castAs q type =>
    refine after (meaning_restores type) fun target => ?_
    dsimp only
    split
    · exact bindings_restores target q
    · exact after (report_restores _ _) fun _ => bindings_restores target q
  | ascribed q type =>
    exact after (meaning_restores type) fun ascribed =>
      after (require_restores t ascribed position) fun _ => bindings_restores ascribed q
  | variant l payload =>
    cases t with
    | variant fs =>
      simp only [bindingsNode_variant]
      rw [bindingsNode.eq_def]
      dsimp only
      rcases fs.lookup l with _ | _ | u
      · exact .map (report_restores _ _) _
      · cases payload with
        | none => exact .answer _
        | some q => exact unexpectedPattern_restores _ _
      · cases payload with
        | none => exact unexpectedPattern_restores _ _
        | some q => exact bindings_restores u q
    | never | unknown | error =>
      cases payload with
      | none => exact .answer _
      | some q => exact bindings_restores _ q
    | _ => exact .map (report_restores _ _) _
  | inl q =>
    cases t with
    | sum l _ => exact bindings_restores l q
    | never | unknown | error => exact bindings_restores _ q
    | _ => exact unexpectedPattern_restores _ _
  | inr q =>
    cases t with
    | sum _ r => exact bindings_restores r q
    | never | unknown | error => exact bindings_restores _ q
    | _ => exact unexpectedPattern_restores _ _
  | tuple ps =>
    cases t with
    | tuple ts =>
      simp only [bindingsNode, Typing.bindingsNode]
      split
      · exact bindingsEach_restores ts ps
      · exact unexpectedPattern_restores _ _
    | never | unknown | error => exact bindingsAll_restores _ ps
    | _ => exact unexpectedPattern_restores _ _
  | record fs =>
    cases t with
    | record gs => exact bindingsFields_restores gs position fs
    | never | unknown | error => exact bindingsFieldsAll_restores _ fs
    | _ => exact unexpectedPattern_restores _ _
  | list ps =>
    cases t with
    | list u => exact bindingsAll_restores u ps
    | never | unknown | error => exact bindingsAll_restores _ ps
    | _ => exact unexpectedPattern_restores _ _
  | cons h tail =>
    cases t with
    | list u => exact after (bindings_restores u h) fun _ => .map (bindings_restores (.list u) tail) _
    | never | unknown | error =>
      exact after (bindings_restores _ h) fun _ => .map (bindings_restores _ tail) _
    | _ => exact unexpectedPattern_restores _ _
  | bool _ => exact literalBindings_restores t .bool position
  | unit => exact literalBindings_restores t .unit position
  | nat _ => exact literalBindings_restores t .nat position
  | succ q =>
    exact after (literalBindings_restores t .nat position) fun _ => .map (bindings_restores .nat q) _
  | var x => exact .answer _
termination_by structural p

theorem bindingsAll_restores (t : Ty) (ps : List (Located Pattern)) :
    Restores (bindingsAll t ps) (fun ctx => Typing.bindingsAll ctx t ps) := by
  match ps with
  | [] => exact .answer _
  | p :: ps => exact after (bindings_restores t p) fun _ => .map (bindingsAll_restores t ps) _
termination_by structural ps

theorem bindingsEach_restores (ts : List Ty) (ps : List (Located Pattern)) :
    Restores (bindingsEach ts ps) (fun ctx => Typing.bindingsEach ctx ts ps) := by
  match ps, ts with
  | [], _ => exact .answer _
  | _ :: _, [] => exact .answer _
  | p :: ps, t :: ts => exact after (bindings_restores t p) fun _ => .map (bindingsEach_restores ts ps) _
termination_by structural ps

theorem bindingsFields_restores (gs : List (String × Ty)) (position : Option Position)
    (fs : List (String × Located Pattern)) :
    Restores (bindingsFields gs position fs) (fun ctx => Typing.bindingsFields ctx gs position fs) := by
  match fs with
  | [] => exact .answer _
  | (l, p) :: fs =>
    simp only [bindingsFields_cons]
    rw [bindingsFields.eq_def]
    dsimp only
    cases gs.lookup l with
    | some t => exact after (bindings_restores t p) fun _ => .map (bindingsFields_restores gs position fs) _
    | none => exact after (report_restores _ _) fun _ => bindingsFields_restores gs position fs
termination_by structural fs

theorem bindingsFieldsAll_restores (t : Ty) (fs : List (String × Located Pattern)) :
    Restores (bindingsFieldsAll t fs) (fun ctx => Typing.bindingsFieldsAll ctx t fs) := by
  match fs with
  | [] => exact .answer _
  | (_, p) :: fs => exact after (bindings_restores t p) fun _ => .map (bindingsFieldsAll_restores t fs) _
termination_by structural fs

end

end Patterns

section Expressions

theorem eliminate_restores (found : Ty) (fault : Ty → Fault) (position : Option Position) :
    Restores (eliminate found fault position) (fun _ => Typing.eliminate found fault position) :=
  .built fun _ => (eliminate_follows found fault position).built

/-- A case of a match: what its pattern binds ends with it. -/
theorem caught_restores (t : Ty) (p : Located Pattern) {x : Step α} {y : Context → Check α}
    (body : Restores x y) :
    Restores (framed (bindings t p >>= fun bound => change (·.bindAll bound) >>= fun _ => x))
      (fun ctx => Typing.bindings ctx.push t p >>= fun bound => y (ctx.push.bindAll bound)) :=
  .framed (after (bindings_restores t p) fun bound => .changedWithin (.bindAll · bound) (.enters body))

theorem declareRecursive_extends (bs : List (Located Pattern × Located Expr)) :
    Extends Within Prod.fst Prod.snd (declareRecursive bs)
      (fun ctx => Typing.declareRecursive ctx bs) := by
  induction bs with
  | nil => exact .unchanged .refl fun _ => ⟨rfl, rfl⟩
  | cons b bs ih =>
    obtain ⟨⟨p, position⟩, e⟩ := b
    cases p with
    | ascribed p type =>
      exact after (meaning_restores type) fun t => after (bindings_restores t p) fun bound =>
        .changedWithin (.bindAll · bound) (.answering ih _ _ fun ⟨context, answer⟩ =>
          ⟨context, congrArg (t :: ·) answer⟩)
    | _ =>
      exact after (report_restores _ _) fun t => .answering ih _ _ fun ⟨context, answer⟩ =>
        ⟨context, congrArg (t :: ·) answer⟩

theorem bindParams_extends (params : List (String × Located TypeExpr)) :
    Extends Within Prod.fst Prod.snd (bindParams params) (fun ctx => Typing.bindParams ctx params) := by
  induction params with
  | nil => exact .unchanged .refl fun _ => ⟨rfl, rfl⟩
  | cons param params ih =>
    exact after (meaning_restores param.2) fun t => .changedWithin (.bind · param.1 t)
      (.answering ih _ _ fun ⟨context, answer⟩ => ⟨context, congrArg (t :: ·) answer⟩)

mutual

theorem synth_restores (e : Located Expr) : Restores (synth e) (fun ctx => Typing.synth ctx e) := by
  obtain ⟨e, position⟩ := e
  exact .guarded .error (after (synthNode_restores position e) fun t =>
    after (.built fun ctx => .judge ctx ⟨e, position⟩ t) fun _ => .answer t)
termination_by structural e

theorem synthNode_restores (position : Option Position) (e : Expr) :
    Restores (synthNode position e) (fun ctx => Typing.synthNode ctx position e) := by
  cases e with
  | sequence a b =>
    exact after (synth_restores a) fun t =>
      after (require_restores t .unit a.position) fun _ => synth_restores b
  | assign target value =>
    refine after (synth_restores target) fun t => ?_
    cases t with
    | ref referent =>
      exact after (synth_restores value) fun t => .map (require_restores t referent value.position) _
    | never | unknown | error => exact .map (synth_restores value) _
    | _ => exact after (synth_restores value) fun _ => .map (report_restores _ _) _
  | cond condition a b =>
    exact after (synth_restores condition) fun t =>
      after (require_restores t .bool condition.position) fun _ =>
      after (synth_restores a) fun first =>
      after (synth_restores b) fun second => join_restores first second b.position
  | letIn bs body =>
    exact .framed (.bindWithin (synthBindings_extends bs) fun _ => .enters (synth_restores body))
  | letRec bs body =>
    exact .framed (.bindWithin (declareRecursive_extends bs) fun ts =>
      .enters (after (expectBindings_restores ts bs) fun _ => synth_restores body))
  | typeAbstraction xs body =>
    exact .map (.framed (.changedWithin (.bindTypeVars · xs) (.enters (synth_restores body)))) _
  | binary op a b =>
    refine after (synth_restores a) fun first => ?_
    rcases operandType? op with ⟨_ | operand, result⟩
    · exact after (synth_restores b) fun second => .map (join_restores first second b.position) _
    · exact after (require_restores first operand a.position) fun _ =>
        after (synth_restores b) fun second => .map (require_restores second operand b.position) _
  | ascribe e type =>
    exact after (meaning_restores type) fun ascribed => after (synth_restores e) fun t =>
      .map (require_restores t ascribed e.position) _
  | cast e type =>
    refine after (meaning_restores type) fun target => after (synth_restores e) fun t => ?_
    dsimp only
    split
    · exact .answer _
    · exact .map (report_restores _ _) _
  | abstraction params body =>
    exact .framed (.bindWithin (bindParams_extends params) fun _ =>
      .enters (.map (synth_restores body) _))
  | variant l payload =>
    cases payload with
    | none => exact .answer _
    | some e => exact .map (synth_restores e) _
  | matching e cases =>
    refine after (synth_restores e) fun scrutinee => ?_
    split
    · exact report_restores _ _
    · refine after (joinCases_restores scrutinee .unknown cases) fun result => ?_
      dsimp only
      split
      · exact .answer _
      · exact .map (report_restores _ _) _
  | list es => exact .map (joinAll_restores .unknown es) _
  | unary op e =>
    cases op with
    | throw =>
      -- Here the type of exceptions is asked for first, there last; nothing changes it meanwhile.
      refine exception?_followed
        (g := fun raised ctx => Typing.synth ctx e >>= fun t =>
          match raised with
          | some exception => Check.require ctx t exception e.position >>= fun _ => pure Ty.never
          | none => Check.report .exceptionTypeNotDeclared position >>= fun _ => pure Ty.never)
        fun raised => after (synth_restores e) fun t => ?_
      cases raised with
      | some exception => exact .map (require_restores t exception e.position) _
      | none => exact .map (report_restores _ _) _
    | _ => exact after (synth_restores e) fun t => .built fun ctx => (unaryType_follows ctx _ _ _ t).built
  | application f args =>
    refine after (synth_restores f) fun t => ?_
    cases t with
    | arrow params result =>
      dsimp only
      split
      · exact .map (expectEach_restores params args) _
      · exact after (synthAll_restores args) fun _ => .map (report_restores _ _) _
    | _ => exact after (synthAll_restores args) fun _ => eliminate_restores _ _ _
  | typeApplication f types =>
    refine after (synth_restores f) fun t => after (meanings_restores types) fun args => ?_
    cases t with
    | forAll xs body =>
      dsimp only
      split
      · exact .answer _
      · exact report_restores _ _
    | _ => exact eliminate_restores _ _ _
  | field e l =>
    refine after (synth_restores e) fun t => ?_
    cases t with
    | record fs =>
      dsimp only
      cases fs.lookup l with
      | some t => exact .answer t
      | none => exact report_restores _ _
    | _ => exact eliminate_restores _ _ _
  | component e index =>
    refine after (synth_restores e) fun t => ?_
    cases t with
    | tuple ts =>
      cases index with
      | zero => exact report_restores _ _
      | succ i =>
        dsimp only
        cases ts[i]? with
        | some t => exact .answer t
        | none => exact report_restores _ _
    | _ => exact eliminate_restores _ _ _
  | tuple es => exact .map (synthAll_restores es) _
  | record fs => exact .map (synthFields_restores fs) _
  | cons h tail =>
    exact after (synth_restores h) fun t => after (synth_restores tail) fun u =>
      .map (require_restores u (.list t) tail.position) _
  | panic => exact .answer _
  | tryCatch body p handler =>
    refine after (synth_restores body) fun first => ?_
    have handled (exception : Ty) := after (caught_restores exception p (synth_restores handler))
      fun second => join_restores first second handler.position
    refine exception?_followed
      (g := fun raised ctx =>
        let rest (exception : Ty) := Typing.bindings ctx.push exception p >>= fun bound =>
          Typing.synth (ctx.push.bindAll bound) handler >>= fun second =>
          Check.join ctx first second handler.position
        match raised with
        | some exception => pure exception >>= rest
        | none => Check.report .exceptionTypeNotDeclared position >>= rest)
      fun raised => ?_
    cases raised with
    | some exception => exact handled exception
    | none => exact after (report_restores _ _) handled
  | tryWith body fallback =>
    exact after (synth_restores body) fun first => after (synth_restores fallback) fun second =>
      join_restores first second fallback.position
  | tryCast e type p success failure =>
    exact after (synth_restores e) fun _ => after (meaning_restores type) fun target =>
      after (caught_restores target p (synth_restores success)) fun first => after (synth_restores failure) fun second =>
      join_restores first second failure.position
  | natRec count initial step =>
    exact after (synth_restores count) fun t => after (require_restores t .nat count.position) fun _ =>
      after (synth_restores initial) fun result => after (synth_restores step) fun t =>
      .map (require_restores t _ step.position) _
  | fold type e | unfold type e =>
    refine after (meaning_restores type) fun target => after (synth_restores e) fun t => ?_
    cases target with
    | recursive => exact .map (require_restores t _ e.position) _
    | never | unknown | error => exact .answer _
    | _ => exact report_restores _ _
  | literal => exact .answer _
  | var x =>
    exact .built (y := fun ctx => Typing.synthNode ctx position (.var x)) fun ctx =>
      (synthNode_follows ctx position (.var x)).built
termination_by structural e

theorem synthAll_restores (es : List (Located Expr)) :
    Restores (synthAll es) (fun ctx => Typing.synthAll ctx es) := by
  match es with
  | [] => exact .answer _
  | e :: es => exact after (synth_restores e) fun _ => .map (synthAll_restores es) _
termination_by structural es

theorem synthFields_restores (fs : List (String × Located Expr)) :
    Restores (synthFields fs) (fun ctx => Typing.synthFields ctx fs) := by
  match fs with
  | [] => exact .answer _
  | (l, e) :: fs => exact after (synth_restores e) fun _ => .map (synthFields_restores fs) _
termination_by structural fs

theorem expectEach_restores (expected : List Ty) (es : List (Located Expr)) :
    Restores (expectEach expected es) (fun ctx => Typing.expectEach ctx expected es) := by
  match es, expected with
  | [], _ => exact .answer _
  | _ :: _, [] => exact .answer _
  | e :: es, u :: us =>
    exact after (synth_restores e) fun t => after (require_restores t u e.position) fun _ =>
      expectEach_restores us es
termination_by structural es

theorem joinAll_restores (common : Ty) (es : List (Located Expr)) :
    Restores (joinAll common es) (fun ctx => Typing.joinAll ctx common es) := by
  match es with
  | [] => exact .answer _
  | e :: es =>
    exact after (synth_restores e) fun t => after (join_restores common t e.position) fun joined =>
      joinAll_restores joined es
termination_by structural es

theorem synthBindings_extends (bs : List (Located Pattern × Located Expr)) :
    Extends Within id (fun _ => ()) (synthBindings bs) (fun ctx => Typing.synthBindings ctx bs) := by
  match bs with
  | [] => exact .unchanged .refl fun _ => ⟨rfl, rfl⟩
  | (p, e) :: bs =>
    exact after (synth_restores e) fun t => after (bindings_restores t p) fun bound =>
      .changedWithin (.bindAll · bound) (synthBindings_extends bs)
termination_by structural bs

theorem expectBindings_restores (expected : List Ty) (bs : List (Located Pattern × Located Expr)) :
    Restores (expectBindings expected bs) (fun ctx => Typing.expectBindings ctx expected bs) := by
  match bs, expected with
  | [], _ => exact .answer _
  | _ :: _, [] => exact .answer _
  | (_, e) :: bs, u :: us =>
    exact after (synth_restores e) fun t => after (require_restores t u e.position) fun _ =>
      expectBindings_restores us bs
termination_by structural bs

theorem joinCases_restores (scrutinee common : Ty) (cases : List (Located Pattern × Located Expr)) :
    Restores (joinCases scrutinee common cases)
      (fun ctx => Typing.joinCases ctx scrutinee common cases) := by
  match cases with
  | [] => exact .answer _
  | (p, e) :: cases =>
    exact after (caught_restores scrutinee p (synth_restores e)) fun t =>
      after (join_restores common t e.position) fun joined => joinCases_restores scrutinee joined cases
termination_by structural cases

end

end Expressions

end StellaLang.Typing.InPlace
