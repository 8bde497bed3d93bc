import StellaLang.Proofs.Syntax.ExprReadBack
import StellaLang.Proofs.Syntax.Spelling

/-! Which trees are printed alike. Expressions are if they are read as one tree, so that a printed
expression tells the tree up to the order of `*` and the applications and projections behind it.
Types and patterns are told apart by their texts. -/
namespace StellaLang.Syntax

open Text (IndentsBlank)
open Layout (Doc Style)

/-- That the tokens of a node are read back as the node. -/
def Node.ReadBack : Node → Prop
  | type t => TypeExpr.ReadBack t
  | pattern p => Pattern.ReadBack p
  | expr e => Expr.ReadBack e
  | decl _ => True
  | program _ => True

theorem Node.Legible.readBack {n : Node} (legible : n.Legible) : n.ReadBack := by
  induction n using Node.induction with
  | step n ih =>
    have parts (c : Node) (part : c ∈ n.children) : c.ReadBack := ih c part (legible.child part)
    cases n with
    | type t => exact TypeExpr.readBack t legible.self fun u => parts (.type u)
    | pattern p =>
      exact Pattern.readBack p legible.self (fun t => parts (.type t)) fun q => parts (.pattern q)
    | expr e =>
      exact Expr.readBack e legible.self (fun t => parts (.type t)) (fun p => parts (.pattern p))
        fun f => parts (.expr f)
    | decl _ => trivial
    | program _ => trivial

namespace Expr

section Texts

variable {style : Style} {depth : Nat}

/-- What is written behind an expression is written behind its dereferences too. -/
theorem render_beneath {make : Located Expr → Expr} {suffix : String}
    (writes : ∀ place f, (docNode place (make f)).render style depth =
      (doc postfixLevel f).render style depth ++ suffix)
    {place : Nat} (bound : place ≤ postfixLevel) (e : Located Expr) :
    (doc place (beneath make e)).render style depth =
      (doc postfixLevel e).render style depth ++ suffix := by
  induction e using beneath.induct generalizing place with
  | case1 e position ih =>
    have inner := ih (Nat.le_refl postfixLevel)
    simp only [beneath, doc, docNode, render_wrapDoc, Text.render_append, wrap,
      if_neg (Nat.not_lt.mpr bound), if_neg (Nat.lt_irrefl postfixLevel), inner, String.append_assoc]
  | case2 e other =>
    rw [beneath_plain (isDeref_eq_false other), doc]
    exact writes place e

mutual

/-- An expression is printed like the tree that it is read as. -/
theorem render_asRead (depth : Nat) (e : Located Expr) {place : Nat} (bound : place ≤ postfixLevel) :
    (doc place (asRead e)).render style depth = (doc place e).render style depth := by
  obtain ⟨e, position⟩ := e
  exact render_asReadNode depth e bound
termination_by structural e

theorem render_asReadNode (depth : Nat) (e : Expr) {place : Nat} (bound : place ≤ postfixLevel) :
    (doc place (asReadNode e)).render style depth = (docNode place e).render style depth := by
  cases e with
  | panic | literal | var => rfl
  | sequence a b | assign a b | cons a b | tryWith a b =>
    simp (disch := decide) only [asReadNode, doc, docNode, render_wrapDoc, Text.render_append, Doc.render,
      render_asRead depth a, render_asRead depth b]
  | binary op a b =>
    have tight : op.precedence + 1 ≤ postfixLevel := by cases op <;> decide
    simp only [asReadNode, doc, docNode, render_wrapDoc, Text.render_append, Doc.render,
      render_asRead depth a (Nat.le_of_succ_le tight), render_asRead depth b tight]
  | cond a b c | natRec a b c =>
    simp (disch := decide) only [asReadNode, doc, docNode, render_wrapDoc, Text.render_append, Doc.render,
      render_asRead depth a, render_asRead depth b, render_asRead depth c]
  | letIn bs e | letRec bs e =>
    simp (disch := decide) only [asReadNode, doc, docNode, render_wrapDoc, Text.render_append, Doc.render,
      Text.render_join, renderAll_bindingDocs_asRead depth _ bs, render_asRead depth e]
  | matching e cs =>
    rw [asReadNode, doc, docNode, docNode, Doc.render, Doc.render, Text.render_append, Text.render_append,
      renderAll_bindingDocs_asRead (depth + 1) _ cs,
      render_asRead depth e (by decide : loosest ≤ postfixLevel)]
  | typeAbstraction xs e =>
    simp (disch := decide) only [asReadNode, doc, docNode, render_wrapDoc, Text.render_append, Doc.render,
      render_asRead depth e]
  | ascribe e t | cast e t | fold t e | unfold t e =>
    simp (disch := decide) only [asReadNode, doc, docNode, render_wrapDoc, Text.render_append, Doc.render,
      render_asRead depth e, TypeExpr.text_relocate]
  | abstraction ps e =>
    simp (disch := decide) only [asReadNode, doc, docNode, Text.render_append, Doc.render,
      render_asRead depth e, TypeExpr.fieldTexts_relocate]
  | variant l payload =>
    cases payload with
    | none => rfl
    | some e =>
      simp (disch := decide) only [asReadNode, doc, docNode, Text.render_append, Doc.render,
        render_asRead depth e]
  | list es | tuple es =>
    simp only [asReadNode, doc, docNode, Text.render_append, Doc.render, Text.render_join,
      renderAll_docs_asRead depth es]
  | record fs =>
    simp only [asReadNode, doc, docNode, Text.render_append, Doc.render, Text.render_join,
      renderAll_fieldDocs_asRead depth fs]
  | unary op e =>
    cases op with
    | deref =>
      simp (disch := decide) only [asReadNode, doc, docNode, render_wrapDoc, Text.render_append,
        render_asRead depth e]
    | _ =>
      simp (disch := decide) only [asReadNode, doc, docNode, Text.render_append, render_asRead depth e]
  | application e es =>
    have writes (place : Nat) (f : Located Expr) :
        (docNode place (application f (asReadAll es))).render style depth =
          (doc postfixLevel f).render style depth ++
            ("(" ++ (Doc.join ", " (docs es)).render style depth ++ ")") := by
      simp only [docNode, Text.render_append, Doc.render, Text.render_join, renderAll_docs_asRead depth es,
        String.append_assoc]
    rw [asReadNode, render_beneath writes bound, render_asRead depth e (Nat.le_refl _)]
    simp only [docNode, Text.render_append, Doc.render, String.append_assoc]
  | typeApplication e ts =>
    have writes (place : Nat) (f : Located Expr) :
        (docNode place (typeApplication f (TypeExpr.relocateAll nowhere ts))).render style depth =
          (doc postfixLevel f).render style depth ++
            (" [" ++ commaSeparated (TypeExpr.texts ts) ++ "]") := by
      simp only [docNode, Text.render_append, Doc.render, TypeExpr.texts_relocate, String.append_assoc]
    rw [asReadNode, render_beneath writes bound, render_asRead depth e (Nat.le_refl _)]
    simp only [docNode, Text.render_append, Doc.render, String.append_assoc]
  | field e l =>
    have writes (place : Nat) (f : Located Expr) : (docNode place (field f l)).render style depth =
        (doc postfixLevel f).render style depth ++ ("." ++ l) := by
      simp only [docNode, Text.render_append, Doc.render, String.append_assoc]
    rw [asReadNode, render_beneath writes bound, render_asRead depth e (Nat.le_refl _)]
    simp only [docNode, Text.render_append, Doc.render, String.append_assoc]
  | component e i =>
    have writes (place : Nat) (f : Located Expr) : (docNode place (component f i)).render style depth =
        (doc postfixLevel f).render style depth ++ ("." ++ toString i) := by
      simp only [docNode, Text.render_append, Doc.render, String.append_assoc]
    rw [asReadNode, render_beneath writes bound, render_asRead depth e (Nat.le_refl _)]
    simp only [docNode, Text.render_append, Doc.render, String.append_assoc]
  | tryCatch e p h =>
    simp (disch := decide) only [asReadNode, doc, docNode, Text.render_append, Doc.render,
      render_asRead depth e, Pattern.text_relocate, render_asRead depth h]
  | tryCast e t p a b =>
    simp (disch := decide) only [asReadNode, doc, docNode, Text.render_append, Doc.render,
      render_asRead depth e, TypeExpr.text_relocate, Pattern.text_relocate, render_asRead depth a,
      render_asRead depth b]
termination_by structural e

theorem renderAll_docs_asRead (depth : Nat) (es : List (Located Expr)) :
    Doc.renderAll style depth (docs (asReadAll es)) = Doc.renderAll style depth (docs es) := by
  match es with
  | [] => rfl
  | e :: es =>
    exact congrArg₂ List.cons (render_asRead depth e (Nat.zero_le _)) (renderAll_docs_asRead depth es)
termination_by structural es

theorem renderAll_fieldDocs_asRead (depth : Nat) (fs : List (String × Located Expr)) :
    Doc.renderAll style depth (fieldDocs (asReadFields fs)) = Doc.renderAll style depth (fieldDocs fs) := by
  match fs with
  | [] => rfl
  | (l, e) :: fs =>
    exact congrArg₂ (fun text texts => (l ++ " = " ++ text) :: texts)
      (render_asRead depth e (Nat.zero_le _)) (renderAll_fieldDocs_asRead depth fs)
termination_by structural fs

theorem renderAll_bindingDocs_asRead (depth : Nat) (sign : String)
    (bs : List (Located Pattern × Located Expr)) :
    Doc.renderAll style depth (bindingDocs sign (asReadBindings bs)) =
      Doc.renderAll style depth (bindingDocs sign bs) := by
  match bs with
  | [] => rfl
  | (p, e) :: bs =>
    rw [asReadBindings, bindingDocs, bindingDocs, Pattern.text_relocate]
    exact congrArg₂ (fun text texts => (Pattern.text p ++ sign ++ text) :: texts)
      (render_asRead depth e (Nat.zero_le _)) (renderAll_bindingDocs_asRead depth sign bs)
termination_by structural bs

end

end Texts

section Heads

/-- An application or projection of what is dereferenced. -/
def appliesDeref : Expr → Bool
  | application f _ | typeApplication f _ | field f _ | component f _ => f.node.isDeref
  | _ => false

/-- That nothing in an expression is an application or projection of what is dereferenced. -/
def HeadsPlain (e : Located Expr) : Prop :=
  ∀ f, .expr f ∈ (Node.expr e).postOrder → f.node.appliesDeref = false

variable {e : Located Expr}

theorem HeadsPlain.self (plain : HeadsPlain e) : e.node.appliesDeref = false := by
  refine plain e ?_
  rw [Node.postOrder_eq]
  exact List.mem_append_right _ List.mem_cons_self

theorem HeadsPlain.child (plain : HeadsPlain e) {f : Located Expr} (part : .expr f ∈ e.node.children) :
    HeadsPlain f :=
  fun g member => plain g (Node.mem_postOrder_of_child (n := .expr e) part member)

theorem asReadAll_eq {es : List (Located Expr)} (same : ∀ e ∈ es, asRead e = relocate nowhere e) :
    asReadAll es = relocateAll nowhere es := by
  induction es with
  | nil => rfl
  | cons e es ih =>
    rw [List.forall_mem_cons] at same
    rw [asReadAll, relocateAll, same.1, ih same.2]

theorem asReadFields_eq {fs : List (String × Located Expr)}
    (same : ∀ field ∈ fs, asRead field.2 = relocate nowhere field.2) :
    asReadFields fs = relocateFields nowhere fs := by
  induction fs with
  | nil => rfl
  | cons field fs ih =>
    rw [List.forall_mem_cons] at same
    rw [asReadFields, relocateFields, same.1, ih same.2]

theorem asReadBindings_eq {bs : List (Located Pattern × Located Expr)}
    (same : ∀ e, .expr e ∈ bindingChildren bs → asRead e = relocate nowhere e) :
    asReadBindings bs = relocateBindings nowhere bs := by
  induction bs with
  | nil => rfl
  | cons binding bs ih =>
    have first := same binding.2 (by simp [bindingChildren])
    rw [asReadBindings, relocateBindings, first, ih fun e member => same e (List.mem_append_right _ member)]

theorem isDeref_relocate (e : Located Expr) : (relocate nowhere e).node.isDeref = e.node.isDeref := by
  obtain ⟨e, position⟩ := e
  cases e with
  | variant l payload => cases payload <;> rfl
  | unary op e => cases op <;> rfl
  | _ => rfl

/-- An expression with plain heads is read as it is, if its parts are. -/
theorem asRead_of_parts {e : Located Expr} (plain : e.node.appliesDeref = false)
    (same : ∀ f, .expr f ∈ e.node.children → asRead f = relocate nowhere f) :
    asRead e = relocate nowhere e := by
  obtain ⟨e, position⟩ := e
  have head (f : Located Expr) (part : .expr f ∈ e.children) (other : f.node.isDeref = false)
      (make : Located Expr → Expr) :
      beneath make (asRead f) = ⟨make (relocate nowhere f), none⟩ := by
    rw [same f part]
    exact beneath_plain ((isDeref_relocate f).trans other)
  rw [asRead, relocate]
  cases e with
  | panic | literal | var => rfl
  | sequence a b | assign a b | binary _ a b | cons a b | tryWith a b =>
    rw [asReadNode, relocateNode, same a (by simp [children]), same b (by simp [children])]
    rfl
  | cond a b c | natRec a b c =>
    rw [asReadNode, relocateNode, same a (by simp [children]), same b (by simp [children]),
      same c (by simp [children])]
    rfl
  | letIn bs e | letRec bs e =>
    have bindings := asReadBindings_eq fun e member => same e (List.mem_append_left _ member)
    rw [asReadNode, relocateNode, bindings, same e (by simp [children])]
    rfl
  | typeAbstraction _ e | ascribe e _ | cast e _ | fold _ e | unfold _ e | abstraction _ e | unary _ e =>
    rw [asReadNode, relocateNode, same e (by simp [children])]
    rfl
  | variant l payload =>
    cases payload with
    | none => rfl
    | some e =>
      rw [asReadNode, relocateNode, same e (by simp [children])]
      rfl
  | matching e cs =>
    have cases := asReadBindings_eq fun e member => same e (List.mem_cons_of_mem _ member)
    rw [asReadNode, relocateNode, cases, same e List.mem_cons_self]
    rfl
  | list es | tuple es =>
    have elements := asReadAll_eq fun e member => same e (List.mem_map_of_mem member)
    rw [asReadNode, relocateNode, elements]
    rfl
  | record fs =>
    have fields := asReadFields_eq fun field member =>
      same field.2 (List.mem_map_of_mem (f := fun field => Node.expr field.2) member)
    rw [asReadNode, relocateNode, fields]
    rfl
  | application f es =>
    have args := asReadAll_eq fun e member => same e (List.mem_cons_of_mem _ (List.mem_map_of_mem member))
    rw [asReadNode, relocateNode, args, head f List.mem_cons_self plain]
    rfl
  | typeApplication f _ | field f _ | component f _ =>
    rw [asReadNode, relocateNode, head f List.mem_cons_self plain]
    rfl
  | tryCatch e _ h =>
    rw [asReadNode, relocateNode, same e (by simp [children]), same h (by simp [children])]
    rfl
  | tryCast e _ _ a b =>
    rw [asReadNode, relocateNode, same e (by simp [children]), same a (by simp [children]),
      same b (by simp [children])]
    rfl

theorem HeadsPlain.asRead_eq {e : Located Expr} (plain : HeadsPlain e) : asRead e = relocate nowhere e := by
  have all (n : Node) : ∀ e, n = .expr e → HeadsPlain e → asRead e = relocate nowhere e := by
    induction n using Node.induction with
    | step n ih =>
      rintro e rfl plain
      exact asRead_of_parts plain.self fun f part => ih (.expr f) part f rfl (plain.child part)
  exact all (.expr e) e rfl plain

end Heads

section Alike

variable {style : Style} {e f : Located Expr} {place : Nat}

/-- What is read from the printed words is the tree that an expression is read as. -/
theorem read_words (blank : IndentsBlank style) (legible : (Node.expr e).Legible)
    (bound : place ≤ postfixLevel) (depth : Nat) :
    read loosest (Text.words ((doc place e).render style depth).toList) = some (asRead e, []) := by
  have spelled := legible.spelled blank place depth
  have back : ReadBack e := legible.readBack
  have whole := back.2 loosest place [] (Nat.zero_le _) bound (Nat.zero_le _)
  rw [List.append_nil, climb_closed rfl] at whole
  rw [spelled.words_eq, whole]

/-- Two expressions are printed alike if and only if they are read as one tree. If no application or
projection in them is one of what is dereferenced, then they are equal. -/
theorem printed_alike_iff (blank : IndentsBlank style) (legible : (Node.expr e).Legible)
    (legible' : (Node.expr f).Legible) (bound : place ≤ postfixLevel) (depth : Nat) :
    ((doc place e).render style depth = (doc place f).render style depth ↔ asRead e = asRead f) ∧
      (HeadsPlain e → HeadsPlain f →
        (doc place e).render style depth = (doc place f).render style depth → (e == f) = true) := by
  have one_tree (alike : (doc place e).render style depth = (doc place f).render style depth) :
      asRead e = asRead f := by
    -- both are read from the words of one text
    have first := read_words blank legible bound depth
    rw [alike, read_words blank legible' bound depth] at first
    exact (Prod.mk.inj (Option.some.inj first)).1.symm
  refine ⟨⟨one_tree, fun same => ?_⟩, fun plain plain' alike => ?_⟩
  · rw [← render_asRead depth e bound, same, render_asRead depth f bound]
  · rw [beq_iff, ← plain.asRead_eq, one_tree alike, plain'.asRead_eq]

/-- A call of a dereferenced function. -/
def callOfDeref : Located Expr :=
  ⟨application ⟨unary .deref ⟨var "f", none⟩, none⟩ [⟨var "x", none⟩], none⟩

/-- What a call results in, dereferenced. -/
def derefOfCall : Located Expr :=
  ⟨unary .deref ⟨application ⟨var "f", none⟩ [⟨var "x", none⟩], none⟩, none⟩

theorem legible_calls : (Node.expr callOfDeref).Legible ∧ (Node.expr derefOfCall).Legible := by
  unfold Node.Legible
  decide

theorem indentsBlank_default : IndentsBlank {} :=
  List.all_eq_true.mp rfl

/-- The two calls are read as one tree, since they are printed alike. -/
theorem calls_read_as_one :
    IndentsBlank {} ∧ (Node.expr callOfDeref).Legible ∧ (Node.expr derefOfCall).Legible ∧
      loosest ≤ postfixLevel ∧ asRead callOfDeref = asRead derefOfCall :=
  ⟨indentsBlank_default, legible_calls.1, legible_calls.2, by decide,
    (printed_alike_iff indentsBlank_default legible_calls.1 legible_calls.2
      (by decide : loosest ≤ postfixLevel) 0).1.mp rfl⟩

/-- The two calls are printed alike, and they are not equal. -/
theorem calls_printed_alike :
    (Node.expr callOfDeref).Legible ∧ (Node.expr derefOfCall).Legible ∧
      (doc loosest callOfDeref).render {} 0 = "*f(x)" ∧ (doc loosest derefOfCall).render {} 0 = "*f(x)" ∧
      (callOfDeref == derefOfCall) = false :=
  ⟨legible_calls.1, legible_calls.2, rfl, rfl, rfl⟩

end Alike

end Expr

section Annotations

/-- What is read from the words of a printed type is the type, without its places. -/
theorem TypeExpr.read_words {t : Located TypeExpr} (legible : (Node.type t).Legible) (place : Nat) :
    read (Text.words (text place t).toList) = some (relocate nowhere t, []) := by
  have spelled := legible.spelled Expr.indentsBlank_default place
  have back : ReadBack t := legible.readBack
  have whole := back.2 place [] (by decide)
  rw [List.append_nil] at whole
  rw [spelled.words_eq, whole]

theorem Pattern.read_words {p : Located Pattern} (legible : (Node.pattern p).Legible) :
    read (Text.words (text p).toList) = some (relocate nowhere p, []) := by
  have spelled : Text.Spells (text p) (tokens p) := legible.spelled Expr.indentsBlank_default
  have back : ReadBack p := legible.readBack
  have whole := back.whole (r := []) (by simp [Done])
  rw [List.append_nil] at whole
  rw [spelled.words_eq, whole]

/-- Printed types and patterns are unambiguous. If their names are names and none of the tuples and
records in them is empty, two types are printed alike at a place, and two patterns anywhere, if and
only if they are equal. -/
theorem annotations_told_apart :
    (∀ place t u, (Node.type t).Legible → (Node.type u).Legible →
      (TypeExpr.text place t = TypeExpr.text place u ↔ (t == u) = true)) ∧
      ∀ p q, (Node.pattern p).Legible → (Node.pattern q).Legible →
        (Pattern.text p = Pattern.text q ↔ (p == q) = true) := by
  constructor
  · intro place t u legible legible'
    rw [TypeExpr.beq_iff]
    constructor
    · intro alike
      have first := TypeExpr.read_words legible place
      rw [alike, TypeExpr.read_words legible' place] at first
      exact (Prod.mk.inj (Option.some.inj first)).1.symm
    · intro same
      rw [← TypeExpr.text_relocate nowhere place t, same, TypeExpr.text_relocate]
  · intro p q legible legible'
    rw [Pattern.beq_iff]
    constructor
    · intro alike
      have first := Pattern.read_words legible
      rw [alike, Pattern.read_words legible'] at first
      exact (Prod.mk.inj (Option.some.inj first)).1.symm
    · intro same
      rw [← Pattern.text_relocate nowhere p, same, Pattern.text_relocate]

/-- A type `fn(A) -> (B + C)`, which takes no parentheses. -/
def toSum : Located TypeExpr :=
  ⟨.arrow [⟨.var "A", none⟩] ⟨.sum ⟨.var "B", none⟩ ⟨.var "C", none⟩, none⟩, none⟩

/-- A type `(fn(A) -> B) + C` of the same parts. -/
def sumOfArrow : Located TypeExpr :=
  ⟨.sum ⟨.arrow [⟨.var "A", none⟩] ⟨.var "B", none⟩, none⟩ ⟨.var "C", none⟩, none⟩

/-- A pattern `x as A cast as B`, or with the two types the other way round. -/
def twiceTyped (first second : String) : Located Pattern :=
  ⟨.castAs ⟨.ascribed ⟨.var "x", none⟩ ⟨.var first, none⟩, none⟩ ⟨.var second, none⟩, none⟩

/-- The two types are told apart by parentheses alone, and the two patterns by the order of what stands
behind the variable. -/
theorem sums_told_apart :
    (Node.type toSum).Legible ∧ (Node.type sumOfArrow).Legible ∧
      TypeExpr.text TypeExpr.loosest toSum ≠ TypeExpr.text TypeExpr.loosest sumOfArrow ∧
      (Node.pattern (twiceTyped "A" "B")).Legible ∧ (Node.pattern (twiceTyped "B" "A")).Legible ∧
      Pattern.text (twiceTyped "A" "B") ≠ Pattern.text (twiceTyped "B" "A") := by
  have types : (Node.type toSum).Legible ∧ (Node.type sumOfArrow).Legible := by
    unfold Node.Legible
    decide
  have patterns : (Node.pattern (twiceTyped "A" "B")).Legible ∧
      (Node.pattern (twiceTyped "B" "A")).Legible := by
    unfold Node.Legible
    decide
  refine ⟨types.1, types.2, ?_, patterns.1, patterns.2, ?_⟩
  · intro alike
    have same := (annotations_told_apart.1 TypeExpr.loosest _ _ types.1 types.2).mp alike
    exact absurd same (by decide)
  · intro alike
    have same := (annotations_told_apart.2 _ _ patterns.1 patterns.2).mp alike
    exact absurd same (by decide)

end Annotations

end StellaLang.Syntax
