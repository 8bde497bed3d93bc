import StellaLang.Proofs.Typing.Spoiling

/-! Annotations and patterns where the types of some variables are lost. An annotation means what it
meant, and patterns still bind the same names: what is taken apart of a type that is an error is
an error. -/
namespace StellaLang.Typing

open Syntax (Node Pattern TypeExpr)

/-- That the names which one of these nodes binds stay apart. -/
def Apart (nodes : List Node) : Prop :=
  ∀ node ∈ nodes, Ty.Separate node.binders

namespace Apart

variable {nodes more : List Node}

theorem left (h : Apart (nodes ++ more)) : Apart nodes :=
  fun node member => h node (List.mem_append_left more member)

theorem right (h : Apart (nodes ++ more)) : Apart more :=
  fun node member => h node (List.mem_append_right nodes member)

theorem last {node : Node} (h : Apart (nodes ++ [node])) : Ty.Separate node.binders :=
  h node (List.mem_append_right nodes (List.mem_singleton.mpr rfl))

end Apart

section Annotations

variable {ctx ctx' : Context}

mutual

/-- Annotations do not depend on the types of variables. -/
theorem resolve_alike (h : ctx.Spoilt ctx') (bound : List String) (t : Located TypeExpr) :
    resolve ctx' bound t = resolve ctx bound t := by
  obtain ⟨t, position⟩ := t
  exact resolveNode_alike h bound position t
termination_by structural t

theorem resolveNode_alike (h : ctx.Spoilt ctx') (bound : List String) (position : Option Position)
    (t : TypeExpr) :
    resolveNode ctx' bound position t = resolveNode ctx bound position t := by
  cases t with
  | auto | bool | nat | unit | top | bottom => rfl
  | var x =>
    have aliases : ctx'.aliases = ctx.aliases := congrArg Environment.aliases h.environment
    rw [resolveNode, resolveNode, h.typeVars, aliases]
  | arrow ps r => rw [resolveNode, resolveNode, resolveAll_alike h bound ps, resolve_alike h bound r]
  | forAll xs b => rw [resolveNode, resolveNode, resolve_alike h (bound ++ xs) b]
  | recursive x b => rw [resolveNode, resolveNode, resolve_alike h (bound ++ [x]) b]
  | sum l r => rw [resolveNode, resolveNode, resolve_alike h bound l, resolve_alike h bound r]
  | tuple ts => rw [resolveNode, resolveNode, resolveAll_alike h bound ts]
  | record fs => rw [resolveNode, resolveNode, resolveFields_alike h bound fs]
  | variant fs => rw [resolveNode, resolveNode, resolveAlternatives_alike h bound fs]
  | list t => rw [resolveNode, resolveNode, resolve_alike h bound t]
  | ref t => rw [resolveNode, resolveNode, resolve_alike h bound t]
termination_by structural t

theorem resolveAll_alike (h : ctx.Spoilt ctx') (bound : List String) (ts : List (Located TypeExpr)) :
    resolveAll ctx' bound ts = resolveAll ctx bound ts := by
  match ts with
  | [] => rfl
  | t :: ts => rw [resolveAll, resolveAll, resolve_alike h bound t, resolveAll_alike h bound ts]
termination_by structural ts

theorem resolveFields_alike (h : ctx.Spoilt ctx') (bound : List String)
    (fs : List (String × Located TypeExpr)) :
    resolveFields ctx' bound fs = resolveFields ctx bound fs := by
  match fs with
  | [] => rfl
  | (l, t) :: fs =>
    rw [resolveFields, resolveFields, resolve_alike h bound t, resolveFields_alike h bound fs]
termination_by structural fs

theorem resolveAlternatives_alike (h : ctx.Spoilt ctx') (bound : List String)
    (fs : List (String × Option (Located TypeExpr))) :
    resolveAlternatives ctx' bound fs = resolveAlternatives ctx bound fs := by
  match fs with
  | [] => rfl
  | (l, none) :: fs =>
    rw [resolveAlternatives, resolveAlternatives, resolveAlternatives_alike h bound fs]
  | (l, some t) :: fs =>
    rw [resolveAlternatives, resolveAlternatives, resolve_alike h bound t,
      resolveAlternatives_alike h bound fs]
termination_by structural fs

end

mutual

/-- Annotations whose binders stay apart stand for tidy types. -/
theorem denote_tidy (known : ∀ z t, ctx.aliases.lookup z = some t → t.Tidy) (bound : List String)
    {t : Located TypeExpr} (apart : Apart (TypeExpr.postOrder t)) : (denote ctx bound t).Tidy := by
  obtain ⟨t, position⟩ := t
  rw [TypeExpr.postOrder] at apart
  exact denoteNode_tidy known bound position apart.last apart.left
termination_by structural t

theorem denoteNode_tidy (known : ∀ z t, ctx.aliases.lookup z = some t → t.Tidy) (bound : List String)
    (position : Option Position) {t : TypeExpr}
    (separate : Ty.Separate (Node.type ⟨t, position⟩).binders) (apart : Apart (TypeExpr.inside t)) :
    (denoteNode ctx bound t).Tidy := by
  cases t with
  | auto | bool | nat | unit | top | bottom => rw [denoteNode]; decide
  | var x =>
    rw [denoteNode]
    split
    · exact Ty.tidy_var x
    cases found : ctx.aliases.lookup x with
    | some t => exact known x t found
    | none => rw [Option.getD_none]; decide
  | arrow ps r =>
    exact Ty.tidy_arrow.mpr ⟨denoteAll_tidy known bound apart.left, denote_tidy known bound apart.right⟩
  | forAll xs b => exact Ty.tidy_forAll.mpr ⟨separate, denote_tidy known _ apart⟩
  | recursive x b => exact Ty.tidy_recursive.mpr (denote_tidy known _ apart)
  | sum l r =>
    exact Ty.tidy_sum.mpr ⟨denote_tidy known bound apart.left, denote_tidy known bound apart.right⟩
  | tuple ts => exact Ty.tidy_tuple.mpr (denoteAll_tidy known bound apart)
  | record fs => exact Ty.tidy_record.mpr (denoteFields_tidy known bound apart)
  | variant fs => exact Ty.tidy_variant.mpr (denoteAlternatives_tidy known bound apart)
  | list t => exact Ty.tidy_list.mpr (denote_tidy known bound apart)
  | ref t => exact Ty.tidy_ref.mpr (denote_tidy known bound apart)
termination_by structural t

theorem denoteAll_tidy (known : ∀ z t, ctx.aliases.lookup z = some t → t.Tidy) (bound : List String)
    {ts : List (Located TypeExpr)} (apart : Apart (TypeExpr.postOrderAll ts)) :
    ∀ u ∈ denoteAll ctx bound ts, u.Tidy := by
  match ts with
  | [] => exact fun _ member => nomatch member
  | t :: ts =>
    exact List.forall_mem_cons.mpr
      ⟨denote_tidy known bound apart.left, denoteAll_tidy known bound apart.right⟩
termination_by structural ts

theorem denoteFields_tidy (known : ∀ z t, ctx.aliases.lookup z = some t → t.Tidy) (bound : List String)
    {fs : List (String × Located TypeExpr)} (apart : Apart (TypeExpr.postOrderFields fs)) :
    ∀ l u, (l, u) ∈ denoteFields ctx bound fs → u.Tidy := by
  match fs with
  | [] => exact fun _ _ member => nomatch member
  | (l, t) :: fs =>
    intro m u member
    rcases List.mem_cons.mp member with first | rest
    · cases first
      exact denote_tidy known bound apart.left
    · exact denoteFields_tidy known bound apart.right m u rest
termination_by structural fs

theorem denoteAlternatives_tidy (known : ∀ z t, ctx.aliases.lookup z = some t → t.Tidy)
    (bound : List String) {fs : List (String × Option (Located TypeExpr))}
    (apart : Apart (TypeExpr.postOrderAlternatives fs)) :
    ∀ l u, (l, some u) ∈ denoteAlternatives ctx bound fs → u.Tidy := by
  match fs with
  | [] => exact fun _ _ member => nomatch member
  | (l, none) :: fs =>
    have others : Apart (TypeExpr.postOrderAlternatives fs) := apart
    intro m u member
    rcases List.mem_cons.mp member with first | rest
    · cases first
    · exact denoteAlternatives_tidy known bound others m u rest
  | (l, some t) :: fs =>
    intro m u member
    rcases List.mem_cons.mp member with first | rest
    · cases first
      exact denote_tidy known bound apart.left
    · exact denoteAlternatives_tidy known bound apart.right m u rest
termination_by structural fs

end

open Check (Spoils)

theorem meaning_spoils (h : ctx.Spoilt ctx') {t : Located TypeExpr} (apart : Apart (TypeExpr.postOrder t)) :
    Spoils (Shared Ty.Tidy) (meaning ctx t) (meaning ctx' t) := by
  have alike : meaning ctx' t = meaning ctx t := by
    unfold meaning
    rw [resolve_alike h [] t]
  rw [alike]
  refine .shared (.silent (meaning_follows ctx t)) fun p sound => ?_
  rw [meaning_answer ctx t sound]
  exact denote_tidy h.aliases [] apart

theorem meanings_spoils (h : ctx.Spoilt ctx') {ts : List (Located TypeExpr)}
    (apart : Apart (TypeExpr.postOrderAll ts)) :
    Spoils (List.Forall₂ Ty.Spoilt) (meanings ctx ts) (meanings ctx' ts) := by
  induction ts with
  | nil => exact .answer .nil
  | cons t ts ih =>
    apply Spoils.bind (meaning_spoils h apart.left)
    rintro t _ ⟨rfl, tidy⟩
    exact .map (ih apart.right) fun _ _ rest => .cons (.refl tidy) rest

end Annotations

section Patterns

variable {ctx ctx' : Context}

open Check (Spoils)

theorem require_spoils (h : ctx.Spoilt ctx') {t u t' u' : Ty} (first : t.Spoilt u) (second : t'.Spoilt u')
    (position : Option Position) :
    Spoils Eq (Check.require ctx t t' position) (Check.require ctx' u u' position) := by
  by_cases fits : ctx.conforms t t' = true
  · unfold Check.require
    rw [if_pos fits, if_pos (h.conforms first second fits)]
    exact .answer rfl
  · exact .noisy fun _ quiet => fits quiet.conforms_of_require

/-- The variables of a pattern on both sides. -/
abbrev SpoiltBindings : Bindings → Bindings → Prop :=
  List.Forall₂ (Ty.Labelled Ty.Spoilt)

theorem unexpectedPattern_spoils {R : Bindings → α → Prop} (t : Ty) (position : Option Position)
    {b : Check α} [Check.Built b] : Spoils R (unexpectedPattern t position) b :=
  .reported

theorem literalBindings_spoils (h : ctx.Spoilt ctx') (c : Form.Constant) {t u : Ty} (spoilt : t.Spoilt u)
    (position : Option Position) :
    Spoils SpoiltBindings (literalBindings ctx t (Ty.ofConstant c) position)
      (literalBindings ctx' u (Ty.ofConstant c) position) := by
  by_cases fits : ctx.conforms t (Ty.ofConstant c) = true
  · unfold literalBindings
    rw [if_pos fits, if_pos (h.conforms spoilt (.constant c) fits)]
    exact .answer .nil
  · rw [literalBindings, if_neg fits]
    exact unexpectedPattern_spoils t position

mutual

theorem bindings_spoils (h : ctx.Spoilt ctx') {t u : Ty} (spoilt : t.Spoilt u) {p : Located Pattern}
    (apart : Apart (Pattern.postOrder p)) :
    Spoils SpoiltBindings (bindings ctx t p) (bindings ctx' u p) := by
  obtain ⟨p, position⟩ := p
  exact .guarded (bindingsNode_spoils h spoilt position apart.left)
termination_by structural p

theorem bindingsNode_spoils (h : ctx.Spoilt ctx') {t u : Ty} (spoilt : t.Spoilt u)
    (position : Option Position) {p : Pattern} (apart : Apart (Pattern.inside p)) :
    Spoils SpoiltBindings (bindingsNode ctx t position p) (bindingsNode ctx' u position p) := by
  cases p with
  | castAs q type =>
    rw [bindingsNode, bindingsNode]
    dsimp only
    apply Spoils.bind (meaning_spoils h apart.right)
    rintro _ target ⟨rfl, tidy⟩
    have cast : target.Spoilt target := .refl tidy
    by_cases possible : t.castableTo target = true
    · rw [if_pos possible, if_pos (spoilt.castableTo cast possible)]
      exact bindings_spoils h cast apart.left
    · rw [if_neg possible]
      exact .reported
  | ascribed q type =>
    apply Spoils.bind (meaning_spoils h apart.right)
    rintro _ ascribed ⟨rfl, tidy⟩
    apply Spoils.bind (require_spoils h spoilt (.refl tidy) position)
    intro _ _ _
    exact bindings_spoils h (.refl tidy) apart.left
  | variant l payload =>
    cases spoilt.shape with
    | @variant fs gs payloads =>
      have found := Ty.rel_lookup payloads l
      cases payload with
      | none =>
        rw [bindingsNode_variant, bindingsNode_variant]
        generalize fs.lookup l = carried, gs.lookup l = carried' at found ⊢
        cases found with
        | none => exact .reported
        | some found =>
          cases found with
          | none => exact .answer .nil
          | some => exact unexpectedPattern_spoils _ position
      | some q =>
        rw [bindingsNode_variant, bindingsNode_variant]
        generalize fs.lookup l = carried, gs.lookup l = carried' at found ⊢
        cases found with
        | none => exact .reported
        | some found =>
          cases found with
          | none => exact unexpectedPattern_spoils _ position
          | some carried => exact bindings_spoils h carried apart
    | error =>
      cases payload with
      | none =>
        cases t with
        | variant fs =>
          rw [bindingsNode_variant]
          rcases fs.lookup l with _ | _ | w
          · exact .reported
          · exact .answer .nil
          · exact unexpectedPattern_spoils _ position
        | never | unknown | error => exact .answer .nil
        | _ => exact .reported
      | some q =>
        cases t with
        | variant fs =>
          have inner : ∀ w, fs.lookup l = some (some w) → w.Tidy := fun w found =>
            Ty.tidy_variant.mp spoilt.tidy l w (mem_of_lookup found)
          rw [bindingsNode_variant]
          rcases found : fs.lookup l with _ | _ | w
          · exact .reported
          · exact unexpectedPattern_spoils _ position
          · exact bindings_spoils h (.error (inner w found)) apart
        | never | unknown | error => exact bindings_spoils h spoilt apart
        | _ => exact .reported
    | constant c => cases c with
      | never | unknown | error =>
        cases payload with
        | none => exact .answer .nil
        | some q => exact bindings_spoils h spoilt apart
      | _ => cases payload <;> exact .reported
    | _ => cases payload <;> exact .reported
  | inl q =>
    cases spoilt.shape with
    | sum left => exact bindings_spoils h left apart
    | error =>
      cases t with
      | sum l r => exact bindings_spoils h (.error (Ty.tidy_sum.mp spoilt.tidy).1) apart
      | never | unknown | error => exact bindings_spoils h spoilt apart
      | _ => exact unexpectedPattern_spoils _ position
    | constant c => cases c with
      | never | unknown | error => exact bindings_spoils h spoilt apart
      | _ => exact unexpectedPattern_spoils _ position
    | _ => exact unexpectedPattern_spoils _ position
  | inr q =>
    cases spoilt.shape with
    | sum _ right => exact bindings_spoils h right apart
    | error =>
      cases t with
      | sum l r => exact bindings_spoils h (.error (Ty.tidy_sum.mp spoilt.tidy).2) apart
      | never | unknown | error => exact bindings_spoils h spoilt apart
      | _ => exact unexpectedPattern_spoils _ position
    | constant c => cases c with
      | never | unknown | error => exact bindings_spoils h spoilt apart
      | _ => exact unexpectedPattern_spoils _ position
    | _ => exact unexpectedPattern_spoils _ position
  | tuple ps =>
    cases spoilt.shape with
    | tuple elements =>
      simp only [bindingsNode, elements.length_eq]
      split
      · exact bindingsEach_spoils h elements apart
      · exact unexpectedPattern_spoils _ position
    | error =>
      cases t with
      | tuple ts =>
        rw [bindingsNode]
        split
        · rename_i length
          exact bindingsEach_lost h (Ty.tidy_tuple.mp spoilt.tidy) length apart
        · exact unexpectedPattern_spoils _ position
      | never | unknown | error => exact bindingsAll_spoils h spoilt apart
      | _ => exact unexpectedPattern_spoils _ position
    | constant c => cases c with
      | never | unknown | error => exact bindingsAll_spoils h spoilt apart
      | _ => exact unexpectedPattern_spoils _ position
    | _ => exact unexpectedPattern_spoils _ position
  | record fs =>
    cases spoilt.shape with
    | record fields => exact bindingsFields_spoils h fields position apart
    | error =>
      cases t with
      | record gs => exact bindingsFields_lost h (Ty.tidy_record.mp spoilt.tidy) position apart
      | never | unknown | error => exact bindingsFieldsAll_spoils h spoilt apart
      | _ => exact unexpectedPattern_spoils _ position
    | constant c => cases c with
      | never | unknown | error => exact bindingsFieldsAll_spoils h spoilt apart
      | _ => exact unexpectedPattern_spoils _ position
    | _ => exact unexpectedPattern_spoils _ position
  | list ps =>
    cases spoilt.shape with
    | list element => exact bindingsAll_spoils h element apart
    | error =>
      cases t with
      | list w => exact bindingsAll_spoils h (.error (Ty.tidy_list.mp spoilt.tidy)) apart
      | never | unknown | error => exact bindingsAll_spoils h spoilt apart
      | _ => exact unexpectedPattern_spoils _ position
    | constant c => cases c with
      | never | unknown | error => exact bindingsAll_spoils h spoilt apart
      | _ => exact unexpectedPattern_spoils _ position
    | _ => exact unexpectedPattern_spoils _ position
  | cons head tail =>
    -- The rest of the list has the type of the list, whether it is known or not.
    have both {w v : Ty} (element : w.Spoilt v) : Spoils SpoiltBindings
        (bindings ctx w head >>= fun first => bindings ctx t tail >>= fun rest => pure (first ++ rest))
        (bindings ctx' v head >>= fun first => bindings ctx' u tail >>= fun rest => pure (first ++ rest)) :=
      .bind (bindings_spoils h element apart.left) fun _ _ first =>
        .map (bindings_spoils h spoilt apart.right) fun _ _ rest => List.rel_append first rest
    cases spoilt.shape with
    | list element => exact both element
    | error =>
      cases t with
      | list w => exact both (.error (Ty.tidy_list.mp spoilt.tidy))
      | never | unknown | error => exact both spoilt
      | _ => exact unexpectedPattern_spoils _ position
    | constant c => cases c with
      | never | unknown | error => exact both spoilt
      | _ => exact unexpectedPattern_spoils _ position
    | _ => exact unexpectedPattern_spoils _ position
  | bool _ => exact literalBindings_spoils h .bool spoilt position
  | unit => exact literalBindings_spoils h .unit spoilt position
  | nat _ => exact literalBindings_spoils h .nat spoilt position
  | succ q =>
    apply Spoils.bind (literalBindings_spoils h .nat spoilt position)
    intro _ _ first
    exact .map (bindings_spoils h (.constant .nat) apart) fun _ _ rest => List.rel_append first rest
  | var v => exact .answer (.cons ⟨rfl, spoilt⟩ .nil)
termination_by structural p

theorem bindingsAll_spoils (h : ctx.Spoilt ctx') {t u : Ty} (spoilt : t.Spoilt u)
    {ps : List (Located Pattern)} (apart : Apart (Pattern.postOrderAll ps)) :
    Spoils SpoiltBindings (bindingsAll ctx t ps) (bindingsAll ctx' u ps) := by
  match ps with
  | [] => exact .answer .nil
  | p :: ps =>
    apply Spoils.bind (bindings_spoils h spoilt apart.left)
    intro _ _ first
    exact .map (bindingsAll_spoils h spoilt apart.right) fun _ _ rest => List.rel_append first rest
termination_by structural ps

theorem bindingsEach_spoils (h : ctx.Spoilt ctx') {ts us : List Ty}
    (elements : List.Forall₂ Ty.Spoilt ts us) {ps : List (Located Pattern)}
    (apart : Apart (Pattern.postOrderAll ps)) :
    Spoils SpoiltBindings (bindingsEach ctx ts ps) (bindingsEach ctx' us ps) := by
  match ps, elements with
  | [], _ => exact .answer .nil
  | _ :: _, .nil => exact .answer .nil
  | p :: ps, .cons spoilt elements =>
    apply Spoils.bind (bindings_spoils h spoilt apart.left)
    intro _ _ first
    exact .map (bindingsEach_spoils h elements apart.right) fun _ _ rest => List.rel_append first rest
termination_by structural ps

/-- Patterns for the elements of a tuple, where its type is lost. -/
theorem bindingsEach_lost (h : ctx.Spoilt ctx') {ts : List Ty} (tidy : ∀ t ∈ ts, t.Tidy)
    {ps : List (Located Pattern)} (length : ts.length = ps.length)
    (apart : Apart (Pattern.postOrderAll ps)) :
    Spoils SpoiltBindings (bindingsEach ctx ts ps) (bindingsAll ctx' .error ps) := by
  match ps, ts with
  | [], _ => exact .answer .nil
  | p :: ps, t :: ts =>
    obtain ⟨here, there⟩ := List.forall_mem_cons.mp tidy
    apply Spoils.bind (bindings_spoils h (.error here) apart.left)
    intro _ _ first
    exact .map (bindingsEach_lost h there (Nat.succ.inj length) apart.right) fun _ _ rest =>
      List.rel_append first rest
termination_by structural ps

theorem bindingsFields_spoils (h : ctx.Spoilt ctx') {gs gs' : List (String × Ty)}
    (fields : List.Forall₂ (Ty.Labelled Ty.Spoilt) gs gs') (position : Option Position)
    {fs : List (String × Located Pattern)} (apart : Apart (Pattern.postOrderFields fs)) :
    Spoils SpoiltBindings (bindingsFields ctx gs position fs) (bindingsFields ctx' gs' position fs) := by
  match fs with
  | [] => exact .answer .nil
  | (l, p) :: fs =>
    have found := Ty.rel_lookup fields l
    rw [bindingsFields_cons, bindingsFields_cons]
    generalize gs.lookup l = field, gs'.lookup l = field' at found ⊢
    cases found with
    | none => exact .reported
    | some spoilt =>
      apply Spoils.bind (bindings_spoils h spoilt apart.left)
      intro _ _ first
      exact .map (bindingsFields_spoils h fields position apart.right) fun _ _ rest =>
        List.rel_append first rest
termination_by structural fs

/-- Patterns for the fields of a record, where its type is lost. -/
theorem bindingsFields_lost (h : ctx.Spoilt ctx') {gs : List (String × Ty)}
    (tidy : ∀ l t, (l, t) ∈ gs → t.Tidy) (position : Option Position)
    {fs : List (String × Located Pattern)} (apart : Apart (Pattern.postOrderFields fs)) :
    Spoils SpoiltBindings (bindingsFields ctx gs position fs) (bindingsFieldsAll ctx' .error fs) := by
  match fs with
  | [] => exact .answer .nil
  | (l, p) :: fs =>
    rw [bindingsFields_cons]
    cases found : gs.lookup l with
    | none => exact .reported
    | some t =>
      apply Spoils.bind (bindings_spoils h (.error (tidy l t (mem_of_lookup found))) apart.left)
      intro _ _ first
      exact .map (bindingsFields_lost h tidy position apart.right) fun _ _ rest =>
        List.rel_append first rest
termination_by structural fs

theorem bindingsFieldsAll_spoils (h : ctx.Spoilt ctx') {t u : Ty} (spoilt : t.Spoilt u)
    {fs : List (String × Located Pattern)} (apart : Apart (Pattern.postOrderFields fs)) :
    Spoils SpoiltBindings (bindingsFieldsAll ctx t fs) (bindingsFieldsAll ctx' u fs) := by
  match fs with
  | [] => exact .answer .nil
  | (_, p) :: fs =>
    apply Spoils.bind (bindings_spoils h spoilt apart.left)
    intro _ _ first
    exact .map (bindingsFieldsAll_spoils h spoilt apart.right) fun _ _ rest => List.rel_append first rest
termination_by structural fs

end

end Patterns

end StellaLang.Typing
