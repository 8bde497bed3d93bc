import Mathlib.Logic.Basic
import StellaLang.Proofs.Typing.Run

/-! What annotations stand for, whatever the checker found out before. The meaning that the
checker gives to an annotation is what it stands for, also where it comes from the
cache: equal annotations stand for the same, and those that name nothing do so
everywhere. -/
namespace StellaLang.Typing

open Syntax (Node TypeExpr)

mutual

/-- What an annotation stands for below the binders `bound`. A name that is not
declared stands for `error`. -/
def denote (ctx : Context) (bound : List String) : Located TypeExpr → Ty
  | ⟨t, _⟩ => denoteNode ctx bound t

def denoteNode (ctx : Context) (bound : List String) : TypeExpr → Ty
  | .auto => .unknown
  | .bool => .bool
  | .nat => .nat
  | .unit => .unit
  | .top => .top
  | .bottom => .bottom
  | .var x =>
    if bound.contains x || ctx.scope.hasTypeVar x then .var x
    else (ctx.aliases.lookup x).getD .error
  | .arrow ps r => .arrow (denoteAll ctx bound ps) (denote ctx bound r)
  | .forAll xs b => .forAll xs (denote ctx (bound ++ xs) b)
  | .recursive x b => .recursive x (denote ctx (bound ++ [x]) b)
  | .sum l r => .sum (denote ctx bound l) (denote ctx bound r)
  | .tuple ts => .tuple (denoteAll ctx bound ts)
  | .record fs => .record (denoteFields ctx bound fs)
  | .variant fs => .variant (denoteAlternatives ctx bound fs)
  | .list t => .list (denote ctx bound t)
  | .ref t => .ref (denote ctx bound t)

def denoteAll (ctx : Context) (bound : List String) : List (Located TypeExpr) → List Ty
  | [] => []
  | t :: ts => denote ctx bound t :: denoteAll ctx bound ts

def denoteFields (ctx : Context) (bound : List String) :
    List (String × Located TypeExpr) → List (String × Ty)
  | [] => []
  | (l, t) :: fs => (l, denote ctx bound t) :: denoteFields ctx bound fs

def denoteAlternatives (ctx : Context) (bound : List String) :
    List (String × Option (Located TypeExpr)) → List (String × Option Ty)
  | [] => []
  | (l, none) :: fs => (l, none) :: denoteAlternatives ctx bound fs
  | (l, some t) :: fs => (l, some (denote ctx bound t)) :: denoteAlternatives ctx bound fs

end

section Answers

variable (ctx : Context)

mutual

theorem resolve_answer (bound : List String) (t : Located TypeExpr) (p : Progress) :
    (resolve ctx bound t p).1 = denote ctx bound t := by
  obtain ⟨t, position⟩ := t
  exact resolveNode_answer bound position t p
termination_by structural t

theorem resolveNode_answer (bound : List String) (position : Option Position) (t : TypeExpr)
    (p : Progress) : (resolveNode ctx bound position t p).1 = denoteNode ctx bound t := by
  cases t with
  | auto | bool | nat | unit | top | bottom => rfl
  | var x =>
    rw [resolveNode, denoteNode]
    split
    · rfl
    · cases ctx.aliases.lookup x <;> rfl
  | arrow ps r => exact congrArg₂ Ty.arrow (resolveAll_answer bound ps p) (resolve_answer bound r _)
  | forAll xs b => exact congrArg (Ty.forAll xs) (resolve_answer (bound ++ xs) b p)
  | recursive x b => exact congrArg (Ty.recursive x) (resolve_answer (bound ++ [x]) b p)
  | sum l r => exact congrArg₂ Ty.sum (resolve_answer bound l p) (resolve_answer bound r _)
  | tuple ts => exact congrArg Ty.tuple (resolveAll_answer bound ts p)
  | record fs => exact congrArg Ty.record (resolveFields_answer bound fs p)
  | variant fs => exact congrArg Ty.variant (resolveAlternatives_answer bound fs p)
  | list t => exact congrArg Ty.list (resolve_answer bound t p)
  | ref t => exact congrArg Ty.ref (resolve_answer bound t p)
termination_by structural t

theorem resolveAll_answer (bound : List String) (ts : List (Located TypeExpr)) (p : Progress) :
    (resolveAll ctx bound ts p).1 = denoteAll ctx bound ts := by
  match ts with
  | [] => rfl
  | t :: ts => exact congrArg₂ List.cons (resolve_answer bound t p) (resolveAll_answer bound ts _)
termination_by structural ts

theorem resolveFields_answer (bound : List String) (fs : List (String × Located TypeExpr))
    (p : Progress) : (resolveFields ctx bound fs p).1 = denoteFields ctx bound fs := by
  match fs with
  | [] => rfl
  | (l, t) :: fs =>
    exact congrArg₂ (fun t fs => (l, t) :: fs) (resolve_answer bound t p)
      (resolveFields_answer bound fs _)
termination_by structural fs

theorem resolveAlternatives_answer (bound : List String)
    (fs : List (String × Option (Located TypeExpr))) (p : Progress) :
    (resolveAlternatives ctx bound fs p).1 = denoteAlternatives ctx bound fs := by
  match fs with
  | [] => rfl
  | (l, none) :: fs => exact congrArg ((l, none) :: ·) (resolveAlternatives_answer bound fs p)
  | (l, some t) :: fs =>
    exact congrArg₂ (fun t fs => (l, some t) :: fs) (resolve_answer bound t p)
      (resolveAlternatives_answer bound fs _)
termination_by structural fs

end

end Answers

section Equal

variable (ctx : Context)

mutual

/-- Equal annotations stand for the same type. -/
theorem denote_same (bound : List String) {t u : Located TypeExpr} (equal : TypeExpr.same t u = true) :
    denote ctx bound t = denote ctx bound u := by
  obtain ⟨t, _⟩ := t
  obtain ⟨u, _⟩ := u
  exact denoteNode_same bound equal
termination_by structural t

theorem denoteNode_same (bound : List String) {t u : TypeExpr} (equal : TypeExpr.sameNode t u = true) :
    denoteNode ctx bound t = denoteNode ctx bound u := by
  cases t with
  | auto | bool | nat | unit | top | bottom =>
    cases u with
    | auto | bool | nat | unit | top | bottom => first | rfl | contradiction
    | _ => contradiction
  | var x =>
    cases u with
    | var y => rw [eq_of_beq equal]
    | _ => contradiction
  | arrow ps r =>
    cases u with
    | arrow qs s =>
      rw [TypeExpr.sameNode, Bool.and_eq_true] at equal
      exact congrArg₂ Ty.arrow (denoteAll_same bound equal.1) (denote_same bound equal.2)
    | _ => contradiction
  | forAll xs b =>
    cases u with
    | forAll ys c =>
      rw [TypeExpr.sameNode, Bool.and_eq_true, beq_iff_eq] at equal
      obtain ⟨rfl, equal⟩ := equal
      exact congrArg (Ty.forAll xs) (denote_same (bound ++ xs) equal)
    | _ => contradiction
  | recursive x b =>
    cases u with
    | recursive y c =>
      rw [TypeExpr.sameNode, Bool.and_eq_true, beq_iff_eq] at equal
      obtain ⟨rfl, equal⟩ := equal
      exact congrArg (Ty.recursive x) (denote_same (bound ++ [x]) equal)
    | _ => contradiction
  | sum l r =>
    cases u with
    | sum l' r' =>
      rw [TypeExpr.sameNode, Bool.and_eq_true] at equal
      exact congrArg₂ Ty.sum (denote_same bound equal.1) (denote_same bound equal.2)
    | _ => contradiction
  | tuple ts =>
    cases u with
    | tuple us => exact congrArg Ty.tuple (denoteAll_same bound equal)
    | _ => contradiction
  | record fs =>
    cases u with
    | record gs => exact congrArg Ty.record (denoteFields_same bound equal)
    | _ => contradiction
  | variant fs =>
    cases u with
    | variant gs => exact congrArg Ty.variant (denoteAlternatives_same bound equal)
    | _ => contradiction
  | list t =>
    cases u with
    | list u => exact congrArg Ty.list (denote_same bound equal)
    | _ => contradiction
  | ref t =>
    cases u with
    | ref u => exact congrArg Ty.ref (denote_same bound equal)
    | _ => contradiction
termination_by structural t

theorem denoteAll_same (bound : List String) {ts us : List (Located TypeExpr)}
    (equal : TypeExpr.sameAll ts us = true) : denoteAll ctx bound ts = denoteAll ctx bound us := by
  match ts, us with
  | [], [] => rfl
  | t :: ts, u :: us =>
    rw [TypeExpr.sameAll, Bool.and_eq_true] at equal
    exact congrArg₂ List.cons (denote_same bound equal.1) (denoteAll_same bound equal.2)
  | [], _ :: _ => contradiction
  | _ :: _, [] => contradiction
termination_by structural ts

theorem denoteFields_same (bound : List String) {fs gs : List (String × Located TypeExpr)}
    (equal : TypeExpr.sameFields fs gs = true) :
    denoteFields ctx bound fs = denoteFields ctx bound gs := by
  match fs, gs with
  | [], [] => rfl
  | (l, t) :: fs, (m, u) :: gs =>
    rw [TypeExpr.sameFields, Bool.and_eq_true, Bool.and_eq_true, beq_iff_eq] at equal
    obtain ⟨⟨rfl, first⟩, rest⟩ := equal
    exact congrArg₂ (fun t fs => (l, t) :: fs) (denote_same bound first)
      (denoteFields_same bound rest)
  | [], _ :: _ => contradiction
  | _ :: _, [] => contradiction
termination_by structural fs

theorem denoteAlternatives_same (bound : List String)
    {fs gs : List (String × Option (Located TypeExpr))}
    (equal : TypeExpr.sameAlternatives fs gs = true) :
    denoteAlternatives ctx bound fs = denoteAlternatives ctx bound gs := by
  match fs, gs with
  | [], [] => rfl
  | (l, none) :: fs, (m, none) :: gs =>
    rw [TypeExpr.sameAlternatives, Bool.and_eq_true, beq_iff_eq] at equal
    obtain ⟨rfl, rest⟩ := equal
    exact congrArg ((l, none) :: ·) (denoteAlternatives_same bound rest)
  | (l, some t) :: fs, (m, some u) :: gs =>
    rw [TypeExpr.sameAlternatives, Bool.and_eq_true, Bool.and_eq_true, beq_iff_eq] at equal
    obtain ⟨⟨rfl, first⟩, rest⟩ := equal
    exact congrArg₂ (fun t fs => (l, some t) :: fs) (denote_same bound first)
      (denoteAlternatives_same bound rest)
  | (_, none) :: _, (_, some _) :: _ => contradiction
  | (_, some _) :: _, (_, none) :: _ => contradiction
  | [], _ :: _ => contradiction
  | (_, none) :: _, [] => contradiction
  | (_, some _) :: _, [] => contradiction
termination_by structural fs

end

end Equal

section Closed

/-- None of these nodes is the name of a type. -/
def Nameless (nodes : List Node) : Prop :=
  ∀ t, Node.type t ∈ nodes → t.node.isVar = false

theorem Nameless.left {ns ms : List Node} (h : Nameless (ns ++ ms)) : Nameless ns :=
  fun t member => h t (List.mem_append_left ms member)

theorem Nameless.right {ns ms : List Node} (h : Nameless (ns ++ ms)) : Nameless ms :=
  fun t member => h t (List.mem_append_right ns member)

theorem nameless_of_closed {t : Located TypeExpr} (closed : TypeExpr.isClosed t = true) :
    Nameless (TypeExpr.postOrder t) := by
  intro u member
  simpa using List.all_eq_true.mp closed (.type u) member

variable (ctx ctx' : Context)

mutual

/-- An annotation that names nothing stands for the same type everywhere. -/
theorem denote_nameless (bound bound' : List String) {t : Located TypeExpr}
    (nameless : Nameless (TypeExpr.postOrder t)) : denote ctx bound t = denote ctx' bound' t := by
  obtain ⟨t, position⟩ := t
  rw [TypeExpr.postOrder] at nameless
  exact denoteNode_nameless bound bound' (nameless.right ⟨t, position⟩ (List.mem_singleton.mpr rfl))
    nameless.left
termination_by structural t

theorem denoteNode_nameless (bound bound' : List String) {t : TypeExpr} (noVar : t.isVar = false)
    (nameless : Nameless (TypeExpr.inside t)) : denoteNode ctx bound t = denoteNode ctx' bound' t := by
  cases t with
  | auto | bool | nat | unit | top | bottom => rfl
  | var => contradiction
  | arrow ps r =>
    exact congrArg₂ Ty.arrow (denoteAll_nameless bound bound' nameless.left)
      (denote_nameless bound bound' nameless.right)
  | forAll xs b => exact congrArg (Ty.forAll xs) (denote_nameless _ _ nameless)
  | recursive x b => exact congrArg (Ty.recursive x) (denote_nameless _ _ nameless)
  | sum l r =>
    exact congrArg₂ Ty.sum (denote_nameless bound bound' nameless.left)
      (denote_nameless bound bound' nameless.right)
  | tuple ts => exact congrArg Ty.tuple (denoteAll_nameless bound bound' nameless)
  | record fs => exact congrArg Ty.record (denoteFields_nameless bound bound' nameless)
  | variant fs => exact congrArg Ty.variant (denoteAlternatives_nameless bound bound' nameless)
  | list t => exact congrArg Ty.list (denote_nameless bound bound' nameless)
  | ref t => exact congrArg Ty.ref (denote_nameless bound bound' nameless)
termination_by structural t

theorem denoteAll_nameless (bound bound' : List String) {ts : List (Located TypeExpr)}
    (nameless : Nameless (TypeExpr.postOrderAll ts)) :
    denoteAll ctx bound ts = denoteAll ctx' bound' ts := by
  match ts with
  | [] => rfl
  | t :: ts =>
    exact congrArg₂ List.cons (denote_nameless bound bound' nameless.left)
      (denoteAll_nameless bound bound' nameless.right)
termination_by structural ts

theorem denoteFields_nameless (bound bound' : List String) {fs : List (String × Located TypeExpr)}
    (nameless : Nameless (TypeExpr.postOrderFields fs)) :
    denoteFields ctx bound fs = denoteFields ctx' bound' fs := by
  match fs with
  | [] => rfl
  | (l, t) :: fs =>
    exact congrArg₂ (fun t fs => (l, t) :: fs) (denote_nameless bound bound' nameless.left)
      (denoteFields_nameless bound bound' nameless.right)
termination_by structural fs

theorem denoteAlternatives_nameless (bound bound' : List String)
    {fs : List (String × Option (Located TypeExpr))}
    (nameless : Nameless (TypeExpr.postOrderAlternatives fs)) :
    denoteAlternatives ctx bound fs = denoteAlternatives ctx' bound' fs := by
  match fs with
  | [] => rfl
  | (l, none) :: fs =>
    exact congrArg ((l, none) :: ·) (denoteAlternatives_nameless bound bound' nameless)
  | (l, some t) :: fs =>
    exact congrArg₂ (fun t fs => (l, some t) :: fs) (denote_nameless bound bound' nameless.left)
      (denoteAlternatives_nameless bound bound' nameless.right)
termination_by structural fs

end

end Closed

/-- The cache only knows annotations that name nothing, by what they stand for. -/
def Progress.CacheSound (p : Progress) : Prop :=
  ∀ t u, (t, u) ∈ p.cache.entries → TypeExpr.isClosed t = true ∧ ∀ ctx, u = denote ctx [] t

namespace Progress.CacheSound

variable {p : Progress}

theorem start (limits : Limits) : CacheSound { limits } :=
  fun _ _ member => nomatch member

/-- What the cache knows of an annotation is what it stands for. -/
theorem get? (sound : p.CacheSound) {t : Located TypeExpr} {u : Ty}
    (found : p.cache.get? t = some u) (ctx : Context) : u = denote ctx [] t := by
  obtain ⟨⟨key, value⟩, entry, rfl⟩ := Option.map_eq_some_iff.mp found
  have equal := List.find?_some entry
  rw [← denote_same ctx [] (t := key) (u := t) equal]
  exact (sound key value (List.mem_of_find?_eq_some entry)).2 ctx

theorem of_entries {q : Progress} (sound : p.CacheSound) (same : q.cache.entries = p.cache.entries) :
    q.CacheSound :=
  fun t u member => sound t u (same ▸ member)

theorem count (sound : p.CacheSound) (t : Located TypeExpr) :
    CacheSound { p with cache := p.cache.count t } := by
  refine sound.of_entries ?_
  dsimp only [Memo.count]
  split <;> rfl

theorem put (sound : p.CacheSound) {t : Located TypeExpr} (closed : TypeExpr.isClosed t = true)
    (ctx : Context) : CacheSound { p with cache := p.cache.put t (denote ctx [] t) } := by
  have everywhere (ctx' : Context) : denote ctx [] t = denote ctx' [] t :=
    denote_nameless ctx ctx' [] [] (nameless_of_closed closed)
  intro key value member
  dsimp only [Memo.put] at member
  split at member
  · obtain ⟨⟨key', value'⟩, entry, changed⟩ := List.mem_map.mp member
    split at changed
    · rename_i equal
      obtain ⟨rfl, rfl⟩ := Prod.mk.inj changed
      have equal : TypeExpr.same key' t = true := equal
      refine ⟨(sound key' value' entry).1, fun ctx' => ?_⟩
      rw [everywhere ctx', denote_same ctx' [] equal]
    · cases changed
      exact sound key value entry
  · rcases List.mem_append.mp member with entry | new
    · exact sound key value entry
    · obtain ⟨rfl, rfl⟩ := Prod.mk.inj (List.mem_singleton.mp new)
      exact ⟨closed, everywhere⟩

end Progress.CacheSound

/-- The meaning that the checker gives to an annotation is what it stands for. -/
theorem meaning_answer (ctx : Context) (t : Located TypeExpr) {p : Progress}
    (sound : p.CacheSound) : (meaning ctx t p).1 = denote ctx [] t := by
  rw [meaning_apply]
  split
  · exact resolve_answer ctx [] t p
  split
  · rename_i u found
    exact sound.get? found ctx
  · exact resolve_answer ctx [] t _

/-- No step of the checker makes the cache unsound. -/
theorem Check.Built.cacheSound {x : Check α} (built : Built x) :
    ∀ {p}, p.CacheSound → (x p).2.CacheSound := by
  induction built with
  | answer => exact id
  | bind _ _ first next => exact fun sound => next _ (first sound)
  | guarded skipped _ inner =>
    intro p sound
    rw [guarded_apply]
    split
    · exact sound
    · exact inner sound
  | report fault position =>
    intro p sound
    exact sound.of_entries (congrArg Memo.entries (Progress.record_cache _))
  | note => exact fun sound => sound.of_entries rfl
  | judge => exact fun sound => sound.of_entries rfl
  | @meaning ctx t _ resolved =>
    intro p sound
    rw [meaning_apply]
    split
    · exact resolved sound
    · rename_i closed
      have counted := sound.count t
      split
      · exact counted.of_entries rfl
      · have kept := (resolved counted).put (by simpa using closed) ctx
        rw [← resolve_answer ctx [] t { p with cache := p.cache.count t }] at kept
        exact kept

end StellaLang.Typing
