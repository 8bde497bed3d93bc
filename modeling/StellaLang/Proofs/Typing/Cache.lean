import StellaLang.Proofs.Typing.Limits
import StellaLang.Proofs.Typing.Quiet

/-! The cache of annotations saves work and does nothing else. To resolve an annotation that names
nothing leaves no trace, so its meaning may be kept whatever is declared later, and each miss
adds exactly one entry. -/
namespace StellaLang.Typing

open Syntax (Decl Expr Pattern Program TypeExpr)

section Nameless

variable (ctx : Context)

mutual

/-- Nothing can go wrong with an annotation that names nothing. -/
theorem resolve_nameless (bound : List String) {t : Located TypeExpr}
    (nameless : Nameless (TypeExpr.postOrder t)) (p : Progress) : (resolve ctx bound t p).2 = p := by
  obtain ⟨t, position⟩ := t
  rw [TypeExpr.postOrder] at nameless
  exact resolveNode_nameless bound position
    (nameless.right ⟨t, position⟩ (List.mem_singleton.mpr rfl)) nameless.left p
termination_by structural t

theorem resolveNode_nameless (bound : List String) (position : Option Position) {t : TypeExpr}
    (noVar : t.isVar = false) (nameless : Nameless (TypeExpr.inside t)) (p : Progress) :
    (resolveNode ctx bound position t p).2 = p := by
  cases t with
  | auto | bool | nat | unit | top | bottom => rfl
  | var => contradiction
  | arrow ps r =>
    exact (resolve_nameless bound nameless.right _).trans
      (resolveAll_nameless bound nameless.left p)
  | forAll xs b => exact resolve_nameless (bound ++ xs) nameless p
  | recursive x b => exact resolve_nameless (bound ++ [x]) nameless p
  | sum l r =>
    exact (resolve_nameless bound nameless.right _).trans (resolve_nameless bound nameless.left p)
  | tuple ts => exact resolveAll_nameless bound nameless p
  | record fs => exact resolveFields_nameless bound nameless p
  | variant fs => exact resolveAlternatives_nameless bound nameless p
  | list t => exact resolve_nameless bound nameless p
  | ref t => exact resolve_nameless bound nameless p
termination_by structural t

theorem resolveAll_nameless (bound : List String) {ts : List (Located TypeExpr)}
    (nameless : Nameless (TypeExpr.postOrderAll ts)) (p : Progress) :
    (resolveAll ctx bound ts p).2 = p := by
  match ts with
  | [] => rfl
  | t :: ts =>
    exact (resolveAll_nameless bound nameless.right _).trans
      (resolve_nameless bound nameless.left p)
termination_by structural ts

theorem resolveFields_nameless (bound : List String) {fs : List (String × Located TypeExpr)}
    (nameless : Nameless (TypeExpr.postOrderFields fs)) (p : Progress) :
    (resolveFields ctx bound fs p).2 = p := by
  match fs with
  | [] => rfl
  | (_, t) :: fs =>
    exact (resolveFields_nameless bound nameless.right _).trans
      (resolve_nameless bound nameless.left p)
termination_by structural fs

theorem resolveAlternatives_nameless (bound : List String)
    {fs : List (String × Option (Located TypeExpr))}
    (nameless : Nameless (TypeExpr.postOrderAlternatives fs)) (p : Progress) :
    (resolveAlternatives ctx bound fs p).2 = p := by
  match fs with
  | [] => rfl
  | (_, none) :: fs =>
    have others : Nameless (TypeExpr.postOrderAlternatives fs) := nameless
    exact resolveAlternatives_nameless bound others p
  | (_, some t) :: fs =>
    exact (resolveAlternatives_nameless bound nameless.right _).trans
      (resolve_nameless bound nameless.left p)
termination_by structural fs

end

theorem resolve_closed {t : Located TypeExpr} (closed : TypeExpr.isClosed t = true) (p : Progress) :
    resolve ctx [] t p = (denote ctx [] t, p) :=
  Prod.ext (resolve_answer ctx [] t p) (resolve_nameless ctx [] (nameless_of_closed closed) p)

end Nameless

/-- What is logged of the cache when the meaning of an annotation is asked for. -/
def hitNotes (p : Progress) (t : Located TypeExpr) : List Log.Entry :=
  if TypeExpr.isClosed t && p.cache.contains t then
    [⟨.trace, "stella_typecheck::check::ty",
      "type cache hit for " ++ TypeExpr.text TypeExpr.loosest t⟩]
  else []

/-- But for the cache itself and the note of a hit, to ask a sound cache first is to resolve the
annotation. -/
theorem meaning_eq_resolve (ctx : Context) (t : Located TypeExpr) {p : Progress}
    (sound : p.CacheSound) :
    meaning ctx t p =
      ((resolve ctx [] t p).1,
        { (resolve ctx [] t p).2 with
          cache := (meaning ctx t p).2.cache
          log := (resolve ctx [] t p).2.log ++ hitNotes p t }) := by
  cases closed : TypeExpr.isClosed t with
  | false =>
    have uncached : meaning ctx t p = resolve ctx [] t p := by simp [meaning_apply, closed]
    rw [uncached, hitNotes, closed, Bool.false_and, if_neg Bool.false_ne_true, List.append_nil]
    rfl
  | true =>
    have answer := meaning_answer ctx t sound
    refine Prod.ext (answer.trans (resolve_answer ctx [] t p).symm) ?_
    cases found : p.cache.get? t with
    | none => simp [meaning_apply, resolve_closed ctx closed, closed, found, hitNotes, Memo.contains]
    | some u =>
      simp [meaning_apply, resolve_closed ctx closed, closed, found, hitNotes, Memo.contains,
        Progress.note]

/-- Every miss has added an entry, and nothing else has. -/
def Progress.CacheCounted (p : Progress) : Prop :=
  p.cache.entries.length = p.cache.misses

/-- What a miss makes of the cache. -/
theorem Memo.counted_put [BEq κ] {memo : Memo κ ν} {key : κ} (unknown : memo.get? key = none)
    (value : ν) :
    ((memo.count key).put key value).entries.length = memo.entries.length + 1 ∧
      ((memo.count key).put key value).misses = memo.misses + 1 := by
  have absent : memo.contains key = false := by simp [Memo.contains, unknown]
  have still : ({ memo with misses := memo.misses + 1 } : Memo κ ν).contains key = false := absent
  simp [Memo.count, Memo.put, absent, still]

theorem Check.Built.cacheCounted {x : Check α} (built : Check.Built x) :
    ∀ {p}, p.CacheCounted → (x p).2.CacheCounted := by
  induction built with
  | answer => exact id
  | bind _ _ first next => exact fun counted => next _ (first counted)
  | guarded skipped _ inner =>
    intro p counted
    rw [Check.guarded_apply]
    split
    · exact counted
    · exact inner counted
  | report fault position =>
    intro p counted
    rw [Check.report_apply, Progress.CacheCounted, Progress.record_cache]
    exact counted
  | note => exact id
  | judge => exact id
  | @meaning ctx t _ resolved =>
    intro p counted
    rw [meaning_apply]
    split
    · exact resolved counted
    · rename_i known
      have closed : TypeExpr.isClosed t = true := by simpa using known
      cases found : p.cache.get? t with
      | none =>
        obtain ⟨entries, misses⟩ := Memo.counted_put found (denote ctx [] t)
        simp only [resolve_closed ctx closed, Progress.CacheCounted]
        rw [entries, misses, counted]
      | some u =>
        have asked : (p.cache.count t).entries.length = (p.cache.count t).misses := by
          simpa [Memo.count, Memo.contains, found, Progress.CacheCounted] using counted
        exact asked

theorem Progress.Reached.cacheCounted {p : Progress} (reached : p.Reached) : p.CacheCounted := by
  induction reached with
  | start => rfl
  | step _ built ih => exact built.cacheCounted ih
  | taken _ ih => exact ih

namespace Checker

/-- The checkers that come of a new one by operations in any order, in any scopes. Besides the
operations of a checker there are its visits of single nodes. -/
inductive Reachable : Checker → Prop where
  | new (limits : Limits) : Reachable (.new limits)
  | setSubtyping (subtyping : Bool) (before : Reachable c) : Reachable (c.setSubtyping subtyping)
  | synth (scope : Scope) (e : Located Expr) (before : Reachable c) : Reachable (c.synth scope e).2
  | resolve (scope : Scope) (t : Located TypeExpr) (before : Reachable c) :
      Reachable (c.resolve scope t).2
  | bindings (scope : Scope) (t : Ty) (q : Located Pattern) (before : Reachable c) :
      Reachable (c.bindings scope t q).2
  | declare (scope : Scope) (block : List (Located Decl)) (before : Reachable c) :
      Reachable (c.declare scope block).2
  | check (program : Located Program) (before : Reachable c) : Reachable (c.check program).2
  | visitExpr (scope : Scope) (position : Option Position) (e : Expr) (before : Reachable c) :
      Reachable (c.step (synthNode (c.within scope) position e)).2
  | visitType (scope : Scope) (position : Option Position) (t : TypeExpr) (before : Reachable c) :
      Reachable (c.step (resolveNode (c.within scope) [] position t)).2
  | visitDecl (scope : Scope) (d : Decl) (before : Reachable c) :
      Reachable (c.step (checkDeclNode (c.within scope) d)).2
  | visitProgram (program : Located Program) (before : Reachable c) :
      Reachable ⟨(c.checking program c.progress).1.toEnvironment, (c.checking program c.progress).2⟩

theorem Reachable.reached {c : Checker} (reachable : c.Reachable) : c.progress.Reached := by
  induction reachable with
  | new limits => exact .start limits
  | setSubtyping _ _ ih => exact ih
  | @synth c scope e _ ih => exact ih.step (synth_follows (c.within scope) e).built
  | @resolve c scope t _ ih => exact ih.step (meaning_follows (c.within scope) t).built
  | @bindings c scope t q _ ih =>
    exact ih.step (bindingsNode_follows (c.within scope) t q.position q.node).built
  | @declare c scope block _ ih => exact ih.step (checkBlock_follows (c.within scope) block).built
  | @check c program _ ih => exact ((ih.step (checking_built program c)).taken).step (.note _ _ _)
  | @visitExpr c scope position e _ ih =>
    exact ih.step (synthNode_follows (c.within scope) position e).built
  | @visitType c scope position t _ ih =>
    exact ih.step (resolveNode_follows (c.within scope) [] position t).built
  | @visitDecl c scope d _ ih => exact ih.step (checkDeclNode_follows (c.within scope) d).built
  | @visitProgram c program _ ih => exact ih.step (checking_built program c)

/-- The meaning of an annotation, resolved without a look at the cache. -/
def resolveAfresh (c : Checker) (scope : Scope) (t : Located TypeExpr) : Ty × Checker :=
  c.step (Typing.resolve (c.within scope) [] t)

/-- The cache is transparent. Whatever was done with a checker, in whatever scopes, an annotation
means in each scope what it means resolved afresh, with the same errors reported and the same
checker left but for the cache itself and the note that a hit logs; and there are as many entries
as there were misses. -/
theorem cache_transparent (c : Checker) (reachable : c.Reachable) (scope : Scope)
    (t : Located TypeExpr) :
    (c.resolve scope t).1 = (c.resolveAfresh scope t).1 ∧
      (c.resolve scope t).2.errors = (c.resolveAfresh scope t).2.errors ∧
      (c.resolve scope t).2 =
        { (c.resolveAfresh scope t).2 with
          progress.cache := (c.resolve scope t).2.progress.cache
          progress.log := (c.resolveAfresh scope t).2.progress.log ++ hitNotes c.progress t } ∧
      c.cacheStats.entries = c.cacheStats.misses := by
  have sound := reachable.reached.cacheSound
  have same := meaning_eq_resolve (c.within scope) t sound
  have answer := congrArg Prod.fst same
  have progress := congrArg Prod.snd same
  have errors := congrArg Progress.errors progress
  have left := congrArg (Checker.mk c.environment) progress
  exact ⟨answer, errors, left, reachable.reached.cacheCounted⟩

/-- A checker that knows lists of numbers. -/
def listReader : Checker :=
  ((Checker.new {}).resolve {} ⟨.list ⟨.nat, some ⟨1, 7, 6⟩⟩, some ⟨1, 6, 5⟩⟩).2

theorem listReader_cache_transparent :
    let t : Located TypeExpr := ⟨.list ⟨.nat, none⟩, none⟩
    listReader.Reachable ∧ listReader.progress.cache.contains t = true ∧
      (listReader.resolve {} t).1 = (listReader.resolveAfresh {} t).1 ∧
      (listReader.resolve {} t).2.errors = (listReader.resolveAfresh {} t).2.errors ∧
      (listReader.resolve {} t).2 =
        { (listReader.resolveAfresh {} t).2 with
          progress.cache := (listReader.resolve {} t).2.progress.cache
          progress.log := (listReader.resolveAfresh {} t).2.progress.log ++
            hitNotes listReader.progress t } ∧
      listReader.cacheStats.entries = listReader.cacheStats.misses := by
  have reachable : listReader.Reachable := .resolve {} _ (.new {})
  exact ⟨reachable, by decide +kernel, cache_transparent listReader reachable {} _⟩

end Checker

end StellaLang.Typing
