import StellaLang.Proofs.Coverage.Matching
import StellaLang.Proofs.Typing.Following
import StellaLang.Proofs.Typing.Quiet

/-! Patterns that the checker accepts for values of a type suit these values, unless an
ascription in them hides a wildcard. -/
namespace StellaLang.Typing

open Check
open Syntax (Node Pattern)
open Syntax.Pattern (Suits SuitsNode SuitsAll SuitsFields)

theorem Quiet.conforms_of_literal {p : Progress} {ctx : Context} {t u : Ty} {position : Option Position}
    (quiet : Quiet (literalBindings ctx t u position) p) : ctx.conforms t u = true := by
  by_contra refused
  rw [literalBindings, if_neg refused] at quiet
  exact not_reported quiet

/-- Every ascription among these nodes stands for a type without wildcards. -/
def Fixed (ctx : Context) (nodes : List Node) : Prop :=
  ∀ q type position, Node.pattern ⟨.ascribed q type, position⟩ ∈ nodes →
    (denote ctx [] type).isKnown = true

namespace Fixed

variable {ctx : Context} {ns ms : List Node}

theorem left (fixed : Fixed ctx (ns ++ ms)) : Fixed ctx ns :=
  fun q type position member => fixed q type position (List.mem_append_left ms member)

theorem right (fixed : Fixed ctx (ns ++ ms)) : Fixed ctx ms :=
  fun q type position member => fixed q type position (List.mem_append_right ns member)

/-- Whether a node is no ascription that stands for a type with wildcards. -/
def check (ctx : Context) : Node → Bool
  | .pattern ⟨.ascribed _ type, _⟩ => (denote ctx [] type).isKnown
  | _ => true

theorem of_check (checked : ns.all (check ctx) = true) : Fixed ctx ns :=
  fun _ _ _ member => List.all_eq_true.mp checked _ member

end Fixed

/-- A literal is only accepted for values of its own type. -/
theorem hasType_of_literal {ctx : Context} {t u : Ty} {position : Option Position} {p : Progress}
    {v : Value} (quiet : Quiet (literalBindings ctx t u position) p) (typed : HasType v t)
    (known : u.isKnown = true) : HasType v u :=
  typed.of_conforms (.of_conforms quiet.conforms_of_literal) known

section Suiting

theorem bindings_built (ctx : Context) (t : Ty) (q : Located Pattern) : Built (bindings ctx t q) :=
  (bindings_follows ctx t q).built

mutual

theorem suits_of_quiet {ctx : Context} {t : Ty} {q : Located Pattern} {p : Progress}
    (quiet : Quiet (bindings ctx t q) p) (fixed : Fixed ctx (Pattern.postOrder q)) {v : Value}
    (typed : HasType v t) : Suits q v := by
  obtain ⟨q, position⟩ := q
  exact suitsNode_of_quiet quiet.guarded fixed typed
termination_by structural q

theorem suitsNode_of_quiet {ctx : Context} {t : Ty} {position : Option Position} {q : Pattern}
    {p : Progress} (quiet : Quiet (bindingsNode ctx t position q) p)
    (fixed : Fixed ctx (Pattern.postOrder ⟨q, position⟩)) {v : Value} (typed : HasType v t) :
    SuitsNode q v := by
  have inside := fixed.left
  cases q with
  | castAs => trivial
  | var => trivial
  | ascribed q type =>
    rw [bindingsNode] at quiet
    obtain ⟨-, rest⟩ := quiet.bind (meaning_follows ctx type).built fun ascribed =>
      .bind (require_follows ctx t ascribed position).built fun _ => bindings_built ctx ascribed q
    obtain ⟨required, body⟩ := rest.bind (require_follows ctx t _ position).built fun _ =>
      bindings_built ctx _ q
    have stands := meaning_answer ctx type quiet.sound
    have known := fixed q type position (by simp [Pattern.postOrder])
    rw [← stands] at known
    exact suits_of_quiet body inside.left
      (typed.of_conforms (.of_conforms required.conforms_of_require) known)
  | bool b =>
    cases hasType_of_literal quiet typed rfl with
    | bool => trivial
  | unit =>
    cases hasType_of_literal quiet typed rfl with
    | unit => trivial
  | nat n =>
    cases hasType_of_literal quiet typed rfl with
    | nat => trivial
  | succ q =>
    rw [bindingsNode] at quiet
    obtain ⟨literal, rest⟩ := quiet.bind (literalBindings_follows ctx t .nat position).built fun _ =>
      .bind (bindings_built ctx .nat q) fun _ => .answer _
    obtain ⟨body, -⟩ := rest.bind (bindings_built ctx .nat q) fun _ => .answer _
    cases hasType_of_literal literal typed rfl with
    | nat n =>
      cases n with
      | zero => trivial
      | succ n => exact suits_of_quiet body inside (.nat n)
  | inl q =>
    cases typed with
    | inl inner => exact suits_of_quiet (q := q) quiet inside inner
    | inr => trivial
    | _ => exact absurd quiet Quiet.not_reported
  | inr q =>
    cases typed with
    | inr inner => exact suits_of_quiet (q := q) quiet inside inner
    | inl => trivial
    | _ => exact absurd quiet Quiet.not_reported
  | variant l payload =>
    cases typed with
    | plain found =>
      rw [bindingsNode_variant] at quiet
      cases payload with
      | none => exact fun _ => rfl
      | some q =>
        rintro rfl
        rw [found] at quiet
        exact absurd quiet Quiet.not_reported
    | carrying found inner =>
      rw [bindingsNode_variant] at quiet
      cases payload with
      | none =>
        rintro rfl
        rw [found] at quiet
        exact absurd quiet Quiet.not_reported
      | some q =>
        rintro rfl
        rw [found] at quiet
        exact suits_of_quiet (q := q) quiet inside inner
    | _ => exact absurd quiet Quiet.not_reported
  | tuple qs =>
    cases typed with
    | tuple length elements =>
      rw [bindingsNode] at quiet
      split at quiet
      · rename_i same
        exact suitsAll_of_quiet quiet inside same length elements
      · exact absurd quiet Quiet.not_reported
    | _ => exact absurd quiet Quiet.not_reported
  | record fs =>
    cases typed with
    | record present fields => exact suitsFields_of_quiet quiet inside present fields
    | _ => exact absurd quiet Quiet.not_reported
  | list qs =>
    cases typed with
    | list => trivial
    | _ => exact absurd quiet Quiet.not_reported
  | cons h tail =>
    cases typed with
    | @list vs u elements =>
      rw [bindingsNode] at quiet
      obtain ⟨first, rest⟩ := quiet.bind (bindings_built ctx u h) fun _ =>
        .bind (bindings_built ctx (.list u) tail) fun _ => .answer _
      obtain ⟨second, -⟩ := rest.bind (bindings_built ctx (.list u) tail) fun _ => .answer _
      cases vs with
      | nil => trivial
      | cons v vs =>
        refine ⟨suits_of_quiet first inside.left (elements v List.mem_cons_self), ?_⟩
        exact suits_of_quiet second inside.right
          (.list fun w member => elements w (List.mem_cons_of_mem v member))
    | _ => exact absurd quiet Quiet.not_reported
termination_by structural q

theorem suitsAll_of_quiet {ctx : Context} {ts : List Ty} {qs : List (Located Pattern)} {p : Progress}
    (quiet : Quiet (bindingsEach ctx ts qs) p) (fixed : Fixed ctx (Pattern.postOrderAll qs))
    {vs : List Value} (same : ts.length = qs.length) (length : vs.length = ts.length)
    (elements : ∀ (i : Nat) v t, vs[i]? = some v → ts[i]? = some t → HasType v t) :
    SuitsAll qs vs := by
  match qs, ts, vs with
  | [], [], [] => trivial
  | q :: qs, t :: ts, v :: vs =>
    rw [bindingsEach] at quiet
    obtain ⟨first, rest⟩ := quiet.bind (bindings_built ctx t q) fun _ =>
      .bind (bindingsEach_follows ctx ts qs).built fun _ => .answer _
    obtain ⟨others, -⟩ := rest.bind (bindingsEach_follows ctx ts qs).built fun _ => .answer _
    refine ⟨suits_of_quiet first fixed.left (elements 0 v t rfl rfl), ?_⟩
    exact suitsAll_of_quiet others fixed.right (Nat.succ.inj same) (Nat.succ.inj length)
      fun i => elements (i + 1)
  | [], _ :: _, _ => contradiction
  | _ :: _, [], _ => contradiction
  | [], [], _ :: _ => contradiction
  | _ :: _, _ :: _, [] => contradiction
termination_by structural qs

theorem suitsFields_of_quiet {ctx : Context} {gs : List (String × Ty)} {position : Option Position}
    {fs : List (String × Located Pattern)} {p : Progress}
    (quiet : Quiet (bindingsFields ctx gs position fs) p)
    (fixed : Fixed ctx (Pattern.postOrderFields fs)) {vs : List (String × Value)}
    (present : ∀ l t, (l, t) ∈ gs → ∃ v, vs.lookup l = some v)
    (fields : ∀ l t v, (l, t) ∈ gs → vs.lookup l = some v → HasType v t) : SuitsFields fs vs := by
  match fs with
  | [] => trivial
  | (l, q) :: fs =>
    rw [bindingsFields_cons] at quiet
    cases listed : gs.lookup l with
    | none =>
      rw [listed] at quiet
      have reported := (quiet.bind (.report _ _) fun _ =>
        (bindingsFields_follows ctx gs position fs).built).1
      exact absurd reported Quiet.not_report
    | some t =>
      rw [listed] at quiet
      obtain ⟨first, rest⟩ := quiet.bind (bindings_built ctx t q) fun _ =>
        .bind (bindingsFields_follows ctx gs position fs).built fun _ => .answer _
      obtain ⟨others, -⟩ := rest.bind (bindingsFields_follows ctx gs position fs).built fun _ =>
        .answer _
      obtain ⟨v, found⟩ := present l t (mem_of_lookup listed)
      refine ⟨?_, suitsFields_of_quiet others fixed.right present fields⟩
      rw [found]
      exact suits_of_quiet first fixed.left (fields l t v (mem_of_lookup listed) found)
termination_by structural fs

end

end Suiting

/-- That a checker which looks for errors finds none in a pattern for values of a type. -/
def Accepted (ctx : Context) (t : Ty) (q : Located Pattern) : Prop :=
  ∃ p : Progress, p.Reached ∧ p.halted = false ∧ (bindings ctx t q p).2.errors = p.errors

theorem Accepted.suits {ctx : Context} {t : Ty} {q : Located Pattern} (accepted : Accepted ctx t q)
    (fixed : Fixed ctx (Pattern.postOrder q)) {v : Value} (typed : HasType v t) : Suits q v := by
  obtain ⟨p, reached, active, errors⟩ := accepted
  exact suits_of_quiet ⟨active, reached.cacheSound, errors⟩ fixed typed

end StellaLang.Typing
