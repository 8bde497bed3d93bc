import StellaLang.Proofs.Coverage.Exhaustive
import StellaLang.Ty.Equality

/-! The variables of a pattern. A pattern that is accepted binds all of them in the order in which
they are written, and the part of a matching value that a variable stands for has the
type the variable is bound to. -/
namespace StellaLang

namespace Syntax.Pattern

mutual

/-- The variables from left to right, as often as they are written. -/
def boundNames : Located Pattern → List String
  | ⟨p, _⟩ => nodeNames p

def nodeNames : Pattern → List String
  | castAs p _ => boundNames p
  | ascribed p _ => boundNames p
  | variant _ none => []
  | variant _ (some p) => boundNames p
  | inl p => boundNames p
  | inr p => boundNames p
  | tuple ps => elementNames ps
  | record fs => fieldNames fs
  | list ps => elementNames ps
  | cons h t => boundNames h ++ boundNames t
  | bool _ | unit | nat _ => []
  | succ p => boundNames p
  | var x => [x]

def elementNames : List (Located Pattern) → List String
  | [] => []
  | p :: ps => boundNames p ++ elementNames ps

def fieldNames : List (String × Located Pattern) → List String
  | [] => []
  | (_, p) :: fs => boundNames p ++ fieldNames fs

end

mutual

/-- The parts of a value that the variables of a pattern stand for if the pattern matches. -/
def parts : Located Pattern → Value → List (String × Value)
  | ⟨p, _⟩, v => nodeParts p v
termination_by structural p => p

def nodeParts : Pattern → Value → List (String × Value)
  | castAs p _, v => parts p v
  | ascribed p _, v => parts p v
  | variant _ (some p), .variant _ (some v) => parts p v
  | inl p, .inl v => parts p v
  | inr p, .inr v => parts p v
  | tuple ps, .tuple vs => elementParts ps vs
  | record fs, .record vs => fieldParts fs vs
  | list ps, .list vs => elementParts ps vs
  | cons h t, .list (v :: vs) => parts h v ++ parts t (.list vs)
  | succ p, .nat (n + 1) => parts p (.nat n)
  | var x, v => [(x, v)]
  | _, _ => []
termination_by structural p => p

def elementParts : List (Located Pattern) → List Value → List (String × Value)
  | p :: ps, v :: vs => parts p v ++ elementParts ps vs
  | _, _ => []
termination_by structural ps => ps

def fieldParts : List (String × Located Pattern) → List (String × Value) → List (String × Value)
  | [], _ => []
  | (l, p) :: fs, vs => (vs.lookup l).elim [] (parts p) ++ fieldParts fs vs
termination_by structural fs => fs

end

end Syntax.Pattern

namespace Typing

open Check
open Syntax (Node Pattern)
open Syntax.Pattern

/-- Of two steps that bind one after the other neither reports anything. -/
theorem quiet_appended {x y : Check Bindings} {p : Progress} (built : Built x) (built' : Built y)
    (quiet : Quiet (do return (← x) ++ (← y)) p) : Quiet x p ∧ Quiet y (x p).2 := by
  obtain ⟨first, rest⟩ := quiet.bind built fun _ => .bind built' fun _ => .answer _
  exact ⟨first, (rest.bind built' fun _ => .answer _).1⟩

section Names

/-- That a step binds given names if it reports nothing. -/
structure Names (xs : List String) (x : Check Bindings) : Prop where
  built : Built x
  quiet : ∀ {p : Progress}, Quiet x p → (x p).1.map (·.1) = xs

namespace Names

variable {xs ys : List String} {x y : Check Bindings}

theorem nothing : Names [] (pure []) where
  built := .answer []
  quiet := fun _ => rfl

/-- A step that binds nothing may come first. -/
theorem after {z : Check α} (before : Built z) {f : α → Check Bindings} (next : ∀ a, Names xs (f a)) :
    Names xs (z >>= f) where
  built := .bind before fun a => (next a).built
  quiet := fun quiet => (next _).quiet (quiet.bind before fun a => (next a).built).2

theorem append (first : Names xs x) (second : Names ys y) :
    Names (xs ++ ys) (do return (← x) ++ (← y)) where
  built := .bind first.built fun _ => .bind second.built fun _ => .answer _
  quiet := by
    intro p quiet
    obtain ⟨left, right⟩ := quiet_appended first.built second.built quiet
    change ((x p).1 ++ (y (x p).2).1).map (·.1) = xs ++ ys
    rw [List.map_append, first.quiet left, second.quiet right]

theorem guarded (inner : Names xs x) : Names xs (Check.guarded [] x) where
  built := .guarded [] inner.built
  quiet := fun quiet => by
    rw [guarded_of_active [] x quiet.active]
    exact inner.quiet quiet.guarded

/-- What follows a report does not matter. -/
theorem reported {fault : Fault} {position : Option Position} {f : Ty → Check Bindings}
    (built : ∀ t, Built (f t)) : Names xs (Check.report fault position >>= f) where
  built := .bind (.report fault position) built
  quiet := fun quiet => absurd (quiet.bind (.report fault position) built).1 Quiet.not_report

theorem unexpected (t : Ty) (position : Option Position) : Names xs (unexpectedPattern t position) :=
  reported fun _ => .answer _

theorem literal (ctx : Context) (t u : Ty) (position : Option Position) :
    Names [] (literalBindings ctx t u position) := by
  unfold literalBindings
  split
  · exact nothing
  · exact unexpected t position

end Names

mutual

theorem bindings_names (ctx : Context) (t : Ty) (q : Located Pattern) :
    Names (boundNames q) (bindings ctx t q) := by
  obtain ⟨q, position⟩ := q
  exact .guarded (bindingsNode_names ctx t position q)
termination_by structural q

theorem bindingsNode_names (ctx : Context) (t : Ty) (position : Option Position) (q : Pattern) :
    Names (nodeNames q) (bindingsNode ctx t position q) := by
  cases q with
  | castAs q type =>
    refine .after (meaning_follows ctx type).built fun target => ?_
    dsimp only
    split
    · exact bindings_names ctx target q
    · exact .reported fun _ => bindings_built ctx target q
  | ascribed q type =>
    exact .after (meaning_follows ctx type).built fun ascribed =>
      .after (require_follows ctx t ascribed position).built fun _ => bindings_names ctx ascribed q
  | variant l payload =>
    cases t with
    | variant fs =>
      rw [bindingsNode_variant]
      rcases fs.lookup l with _ | _ | u
      · exact .reported fun _ => .answer _
      · cases payload with
        | none => exact .nothing
        | some q => exact .unexpected _ _
      · cases payload with
        | none => exact .unexpected _ _
        | some q => exact bindings_names ctx u q
    | never | unknown | error =>
      cases payload with
      | none => exact .nothing
      | some q => exact bindings_names ctx _ q
    | _ => exact .reported fun _ => .answer _
  | inl q =>
    cases t with
    | sum l _ => exact bindings_names ctx l q
    | never | unknown | error => exact bindings_names ctx _ q
    | _ => exact .unexpected _ _
  | inr q =>
    cases t with
    | sum _ r => exact bindings_names ctx r q
    | never | unknown | error => exact bindings_names ctx _ q
    | _ => exact .unexpected _ _
  | tuple qs =>
    cases t with
    | tuple ts =>
      rw [bindingsNode]
      split
      · rename_i same
        exact bindingsEach_names ctx same
      · exact .unexpected _ _
    | never | unknown | error => exact bindingsAll_names ctx _ qs
    | _ => exact .unexpected _ _
  | record fs =>
    cases t with
    | record gs => exact bindingsFields_names ctx gs position fs
    | never | unknown | error => exact bindingsFieldsAll_names ctx _ fs
    | _ => exact .unexpected _ _
  | list qs =>
    cases t with
    | list u => exact bindingsAll_names ctx u qs
    | never | unknown | error => exact bindingsAll_names ctx _ qs
    | _ => exact .unexpected _ _
  | cons h tail =>
    cases t with
    | list u => exact .append (bindings_names ctx u h) (bindings_names ctx (.list u) tail)
    | never | unknown | error => exact .append (bindings_names ctx _ h) (bindings_names ctx _ tail)
    | _ => exact .unexpected _ _
  | bool _ => exact .literal ctx t .bool position
  | unit => exact .literal ctx t .unit position
  | nat _ => exact .literal ctx t .nat position
  | succ q => exact .append (.literal ctx t .nat position) (bindings_names ctx .nat q)
  | var x => exact ⟨.answer _, fun _ => rfl⟩
termination_by structural q

theorem bindingsAll_names (ctx : Context) (t : Ty) (qs : List (Located Pattern)) :
    Names (elementNames qs) (bindingsAll ctx t qs) := by
  match qs with
  | [] => exact .nothing
  | q :: qs => exact .append (bindings_names ctx t q) (bindingsAll_names ctx t qs)
termination_by structural qs

theorem bindingsEach_names (ctx : Context) {ts : List Ty} {qs : List (Located Pattern)}
    (same : ts.length = qs.length) : Names (elementNames qs) (bindingsEach ctx ts qs) := by
  match qs, ts with
  | [], _ => exact .nothing
  | _ :: _, [] => contradiction
  | q :: qs, t :: ts =>
    exact .append (bindings_names ctx t q) (bindingsEach_names ctx (Nat.succ.inj same))
termination_by structural qs

theorem bindingsFields_names (ctx : Context) (gs : List (String × Ty)) (position : Option Position)
    (fs : List (String × Located Pattern)) :
    Names (fieldNames fs) (bindingsFields ctx gs position fs) := by
  match fs with
  | [] => exact .nothing
  | (l, q) :: fs =>
    rw [bindingsFields_cons]
    cases gs.lookup l with
    | some t => exact .append (bindings_names ctx t q) (bindingsFields_names ctx gs position fs)
    | none => exact .reported fun _ => (bindingsFields_follows ctx gs position fs).built
termination_by structural fs

theorem bindingsFieldsAll_names (ctx : Context) (t : Ty) (fs : List (String × Located Pattern)) :
    Names (fieldNames fs) (bindingsFieldsAll ctx t fs) := by
  match fs with
  | [] => exact .nothing
  | (_, q) :: fs => exact .append (bindings_names ctx t q) (bindingsFieldsAll_names ctx t fs)
termination_by structural fs

end

end Names

section Parts

/-- That a variable is bound to a type of the part it stands for. -/
def Stands (part : String × Value) (binding : String × Ty) : Prop :=
  part.1 = binding.1 ∧ HasType part.2 binding.2

theorem literalBindings_answer (ctx : Context) (t u : Ty) (position : Option Position) (p : Progress) :
    (literalBindings ctx t u position p).1 = [] := by
  unfold literalBindings
  split <;> rfl

theorem Stands.append {x y : Check Bindings} {p : Progress} {ps qs : List (String × Value)}
    (quiet : Quiet (do return (← x) ++ (← y)) p) (built : Built x) (built' : Built y)
    (first : Quiet x p → List.Forall₂ Stands ps (x p).1)
    (second : Quiet y (x p).2 → List.Forall₂ Stands qs (y (x p).2).1) :
    List.Forall₂ Stands (ps ++ qs) ((do return (← x) ++ (← y) : Check Bindings) p).1 := by
  obtain ⟨left, right⟩ := quiet_appended built built' quiet
  exact List.rel_append (first left) (second right)

mutual

theorem parts_of_quiet {ctx : Context} {t : Ty} {q : Located Pattern} {p : Progress}
    (quiet : Quiet (bindings ctx t q) p) (fixed : Fixed ctx (Pattern.postOrder q)) {v : Value}
    (typed : HasType v t) (caught : catches q v = true) :
    List.Forall₂ Stands (parts q v) (bindings ctx t q p).1 := by
  obtain ⟨q, position⟩ := q
  rw [bindings, guarded_of_active [] _ quiet.active]
  exact nodeParts_of_quiet quiet.guarded fixed typed caught
termination_by structural q

theorem nodeParts_of_quiet {ctx : Context} {t : Ty} {position : Option Position} {q : Pattern}
    {p : Progress} (quiet : Quiet (bindingsNode ctx t position q) p)
    (fixed : Fixed ctx (Pattern.postOrder ⟨q, position⟩)) {v : Value} (typed : HasType v t)
    (caught : catchesNode q v = true) :
    List.Forall₂ Stands (nodeParts q v) (bindingsNode ctx t position q p).1 := by
  have inside := fixed.left
  cases q with
  | castAs => contradiction
  | var x => exact .cons ⟨rfl, typed⟩ .nil
  | ascribed q type =>
    rw [bindingsNode] at quiet ⊢
    obtain ⟨-, rest⟩ := quiet.bind (meaning_follows ctx type).built fun ascribed =>
      .bind (require_follows ctx t ascribed position).built fun _ => bindings_built ctx ascribed q
    obtain ⟨required, body⟩ := rest.bind (require_follows ctx t _ position).built fun _ =>
      bindings_built ctx _ q
    have stands := meaning_answer ctx type quiet.sound
    have known := fixed q type position (by simp [Pattern.postOrder])
    rw [← stands] at known
    exact parts_of_quiet body inside.left
      (typed.of_conforms (.of_conforms required.conforms_of_require) known) caught
  | bool | unit | nat =>
    rw [bindingsNode, literalBindings_answer]
    exact .nil
  | succ q =>
    have literal := (literalBindings_follows ctx t .nat position).built
    have built := bindings_built ctx .nat q
    cases hasType_of_literal (quiet_appended literal built quiet).1 typed rfl with
    | nat n =>
      cases n with
      | zero => contradiction
      | succ n =>
        change List.Forall₂ Stands ([] ++ parts q (.nat n)) _
        refine Stands.append quiet literal built (fun _ => ?_) fun body =>
          parts_of_quiet body inside (.nat n) caught
        rw [literalBindings_answer]
        exact .nil
  | inl q =>
    cases typed with
    | inl inner => exact parts_of_quiet (q := q) quiet inside inner caught
    | inr => contradiction
    | _ => exact absurd quiet Quiet.not_reported
  | inr q =>
    cases typed with
    | inr inner => exact parts_of_quiet (q := q) quiet inside inner caught
    | inl => contradiction
    | _ => exact absurd quiet Quiet.not_reported
  | variant l payload =>
    cases typed with
    | plain found =>
      cases payload with
      | none =>
        obtain rfl := eq_of_beq caught
        rw [bindingsNode_variant, found]
        exact .nil
      | some q => contradiction
    | carrying found inner =>
      cases payload with
      | none => contradiction
      | some q =>
        rw [catchesNode, Bool.and_eq_true, beq_iff_eq] at caught
        obtain ⟨rfl, caught⟩ := caught
        rw [bindingsNode_variant, found] at quiet ⊢
        exact parts_of_quiet (q := q) quiet inside inner caught
    | _ => exact absurd quiet Quiet.not_reported
  | tuple qs =>
    cases typed with
    | tuple length elements =>
      rw [bindingsNode] at quiet ⊢
      split at quiet
      · rename_i same
        rw [if_pos same]
        exact elementParts_of_quiet quiet inside same length elements caught
      · exact absurd quiet Quiet.not_reported
    | _ => exact absurd quiet Quiet.not_reported
  | record fs =>
    cases typed with
    | record present fields => exact fieldParts_of_quiet quiet inside fields caught
    | _ => exact absurd quiet Quiet.not_reported
  | list qs =>
    cases typed with
    | list elements => exact listParts_of_quiet quiet inside elements caught
    | _ => exact absurd quiet Quiet.not_reported
  | cons h tail =>
    cases typed with
    | @list vs u elements =>
      cases vs with
      | nil => contradiction
      | cons v vs =>
        obtain ⟨first, rest⟩ := List.forall_mem_cons.mp elements
        rw [catchesNode, Bool.and_eq_true] at caught
        exact Stands.append quiet (bindings_built ctx u h) (bindings_built ctx (.list u) tail)
          (fun here => parts_of_quiet here inside.left first caught.1) fun later =>
          parts_of_quiet later inside.right (.list rest) caught.2
    | _ => exact absurd quiet Quiet.not_reported
termination_by structural q

theorem listParts_of_quiet {ctx : Context} {t : Ty} {qs : List (Located Pattern)} {p : Progress}
    (quiet : Quiet (bindingsAll ctx t qs) p) (fixed : Fixed ctx (Pattern.postOrderAll qs))
    {vs : List Value} (elements : ∀ v ∈ vs, HasType v t) (caught : catchesAll qs vs = true) :
    List.Forall₂ Stands (elementParts qs vs) (bindingsAll ctx t qs p).1 := by
  match qs, vs with
  | [], [] => exact .nil
  | q :: qs, v :: vs =>
    obtain ⟨first, rest⟩ := List.forall_mem_cons.mp elements
    rw [catchesAll, Bool.and_eq_true] at caught
    exact Stands.append quiet (bindings_built ctx t q) (bindingsAll_follows ctx t qs).built
      (fun here => parts_of_quiet here fixed.left first caught.1) fun later =>
      listParts_of_quiet later fixed.right rest caught.2
  | [], _ :: _ => contradiction
  | _ :: _, [] => contradiction
termination_by structural qs

theorem elementParts_of_quiet {ctx : Context} {ts : List Ty} {qs : List (Located Pattern)} {p : Progress}
    (quiet : Quiet (bindingsEach ctx ts qs) p) (fixed : Fixed ctx (Pattern.postOrderAll qs))
    {vs : List Value} (same : ts.length = qs.length) (length : vs.length = ts.length)
    (elements : ∀ (i : Nat) v t, vs[i]? = some v → ts[i]? = some t → HasType v t)
    (caught : catchesAll qs vs = true) :
    List.Forall₂ Stands (elementParts qs vs) (bindingsEach ctx ts qs p).1 := by
  match qs, ts, vs with
  | [], [], [] => exact .nil
  | q :: qs, t :: ts, v :: vs =>
    rw [catchesAll, Bool.and_eq_true] at caught
    exact Stands.append quiet (bindings_built ctx t q) (bindingsEach_follows ctx ts qs).built
      (fun here => parts_of_quiet here fixed.left (elements 0 v t rfl rfl) caught.1) fun later =>
      elementParts_of_quiet later fixed.right (Nat.succ.inj same) (Nat.succ.inj length)
        (fun i => elements (i + 1)) caught.2
  | [], _ :: _, _ => contradiction
  | _ :: _, [], _ => contradiction
  | [], [], _ :: _ => contradiction
  | _ :: _, _ :: _, [] => contradiction
termination_by structural qs

theorem fieldParts_of_quiet {ctx : Context} {gs : List (String × Ty)} {position : Option Position}
    {fs : List (String × Located Pattern)} {p : Progress}
    (quiet : Quiet (bindingsFields ctx gs position fs) p)
    (fixed : Fixed ctx (Pattern.postOrderFields fs)) {vs : List (String × Value)}
    (fields : ∀ l t v, (l, t) ∈ gs → vs.lookup l = some v → HasType v t)
    (caught : catchesFields fs vs = true) :
    List.Forall₂ Stands (fieldParts fs vs) (bindingsFields ctx gs position fs p).1 := by
  match fs with
  | [] => exact .nil
  | (l, q) :: fs =>
    rw [bindingsFields_cons] at quiet ⊢
    cases listed : gs.lookup l with
    | none =>
      rw [listed] at quiet
      have reported := (quiet.bind (.report _ _) fun _ =>
        (bindingsFields_follows ctx gs position fs).built).1
      exact absurd reported Quiet.not_report
    | some t =>
      rw [listed] at quiet
      rw [catchesFields, Bool.and_eq_true] at caught
      obtain ⟨here, later⟩ := caught
      cases found : vs.lookup l with
      | none =>
        rw [found] at here
        contradiction
      | some v =>
        rw [found] at here
        rw [fieldParts, found]
        have typed := fields l t v (mem_of_lookup listed) found
        exact Stands.append quiet (bindings_built ctx t q) (bindingsFields_follows ctx gs position fs).built
          (fun first => parts_of_quiet first fixed.left typed here) fun rest =>
          fieldParts_of_quiet rest fixed.right fields later
termination_by structural fs

end

end Parts

/-- A pattern that is accepted binds its variables in the order in which they are written, and for
a value of the type that it matches, each of them to a type of the part it stands for. -/
theorem accepted_bindings (ctx : Context) {t : Ty} {q : Located Pattern} {p : Progress}
    (reached : p.Reached) (active : p.halted = false)
    (silent : (bindings ctx t q p).2.errors = p.errors) :
    (bindings ctx t q p).1.map (·.1) = boundNames q ∧
      (Fixed ctx (postOrder q) → ∀ v, HasType v t → catches q v = true →
        List.Forall₂ Stands (parts q v) (bindings ctx t q p).1) := by
  have quiet : Quiet (bindings ctx t q) p := ⟨active, reached.cacheSound, silent⟩
  exact ⟨(bindings_names ctx t q).quiet quiet,
    fun fixed _ typed caught => parts_of_quiet quiet fixed typed caught⟩

/-- A queue of entries, some of them by number. -/
def queue : Ty := .record [("owner", .nat), ("entries", .list (.sum .nat .bool))]

/-- The fields are taken in the other order. -/
def queuePattern : Located Pattern :=
  ⟨.record [("entries", ⟨.cons ⟨.inl ⟨.succ ⟨.var "x", none⟩, none⟩, none⟩ ⟨.var "rest", none⟩, none⟩),
    ("owner", ⟨.ascribed ⟨.var "x", none⟩ ⟨.nat, none⟩, none⟩)], none⟩

def queueValue : Value :=
  .record [("owner", .nat 5), ("entries", .list [.inl (.nat 3), .inr (.bool true)])]

theorem queue_bindings :
    Progress.Reached {} ∧ ({} : Progress).halted = false ∧
      (bindings {} queue queuePattern {}).2.errors = ({} : Progress).errors ∧
      (bindings {} queue queuePattern {}).1.map (·.1) = ["x", "rest", "x"] ∧
      List.Forall₂ Stands [("x", .nat 2), ("rest", .list [.inr (.bool true)]), ("x", .nat 5)]
        (bindings {} queue queuePattern {}).1 := by
  have reached : Progress.Reached {} := .start {}
  have silent : (bindings {} queue queuePattern {}).2.errors = ({} : Progress).errors := by decide +kernel
  have fixed : Fixed {} (postOrder queuePattern) := .of_check (by decide +kernel)
  have typed : HasType queueValue queue := by
    refine .record ?_ ?_
    · rintro l t (_ | ⟨_, _ | ⟨_, _ | _⟩⟩)
      · exact ⟨_, rfl⟩
      · exact ⟨_, rfl⟩
    · rintro l t v (_ | ⟨_, _ | ⟨_, _ | _⟩⟩) found
      · cases found
        exact .nat 5
      · cases found
        refine .list ?_
        rintro v (_ | ⟨_, _ | ⟨_, _ | _⟩⟩)
        · exact .inl (.nat 3)
        · exact .inr (.bool true)
  obtain ⟨names, stands⟩ := accepted_bindings {} reached rfl silent
  exact ⟨reached, rfl, silent, names, stands fixed queueValue typed rfl⟩

/-- An alias may hide a wildcard, below which a variable may be given any type. -/
theorem veiled_binding :
    ¬∀ (ctx : Context) (t : Ty) (q : Located Pattern) (p : Progress), p.Reached → p.halted = false →
      (bindings ctx t q p).2.errors = p.errors → t.isData = true →
      (∀ position, Node.type ⟨.auto, position⟩ ∉ postOrder q) →
      (∀ r type position, Node.pattern ⟨.castAs r type, position⟩ ∉ postOrder q) →
      ∀ v, HasType v t → catches q v = true → List.Forall₂ Stands (parts q v) (bindings ctx t q p).1 := by
  intro typed
  let veiled : Context := { aliases := [("X", .unknown)] }
  let veil : Located Pattern :=
    ⟨.ascribed ⟨.ascribed ⟨.var "x", none⟩ ⟨.nat, none⟩, none⟩ ⟨.var "X", none⟩, none⟩
  have silent : (bindings veiled .bool veil {}).2.errors = ({} : Progress).errors := by decide +kernel
  have written (position : Option Position) : Node.type ⟨.auto, position⟩ ∉ postOrder veil := by
    simp [veil, postOrder, Pattern.inside, Syntax.TypeExpr.postOrder, Syntax.TypeExpr.inside]
  have cast (r : Located Pattern) (type : Located Syntax.TypeExpr) (position : Option Position) :
      Node.pattern ⟨.castAs r type, position⟩ ∉ postOrder veil := by
    simp [veil, postOrder, Pattern.inside, Syntax.TypeExpr.postOrder, Syntax.TypeExpr.inside]
  have stands := typed veiled .bool veil {} (.start {}) rfl silent rfl written cast (.bool true)
    (.bool true) rfl
  have answer : (bindings veiled .bool veil {}).1 = [("x", .nat)] := by decide +kernel
  rw [answer] at stands
  obtain ⟨⟨-, wrong⟩, -⟩ := List.forall₂_cons.mp stands
  cases wrong

end Typing

end StellaLang
