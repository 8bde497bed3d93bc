import StellaLang.Proofs.Syntax.Tokens

/-! The words of a printed type, pattern or expression are its tokens, however it is laid out. -/
namespace StellaLang.Syntax

open Text (Spells Ends Starts IndentsBlank separated)
open Layout (Doc Style)

section Words

variable {s : String} {ws : List String} {parts : List String} {wss : List (List String)}

theorem spells_name {x : String} (name : isName x = true) : Spells x [x] := by
  rw [isName, Bool.and_eq_true] at name
  exact Text.spells_identifier name.1

theorem spells_names {xs : List String} (names : ∀ x ∈ xs, isName x = true) :
    List.Forall₂ Spells xs (xs.map fun x => [x]) := by
  rw [List.forall₂_map_right_iff, List.forall₂_same]
  exact fun x member => spells_name (names x member)

/-- A label, a sign and what is labelled. -/
theorem spells_labelled {l separator sign : String} (name : isName l = true) (spelled : Spells s ws)
    (between : Ends separator [sign]) (apart : Starts separator) :
    Spells (l ++ separator ++ s) ([l] ++ [sign] ++ ws) :=
  (spells_name name).next between apart spelled

theorem spells_commaSeparated (spelled : List.Forall₂ Spells parts wss) :
    Spells (commaSeparated parts) (separated "," wss) :=
  Text.spells_intercalate (fun _ => rfl) (fun _ => rfl) spelled

theorem spells_wrap {own place : Nat} (spelled : Spells s ws) :
    Spells (wrap own place s) (enclose own place ws) := by
  unfold wrap enclose
  split
  · have opened : Ends "(" ["("] := fun _ => rfl
    exact (opened.append spelled).ended (fun _ => rfl) fun _ => rfl
  · exact spelled

theorem spells_closing : Spells " |>" ["|>"] := by
  have blank : Ends " " [] := fun _ => rfl
  have sign : Spells "|>" ["|>"] := Text.spells_word rfl
  exact blank.append sign

theorem UnaryOp.ends_text (op : UnaryOp) (word : op ≠ .deref) :
    Ends (op.text ++ "(") ([op.text] ++ ["("]) := by
  have named : Spells op.text [op.text] := by
    cases op with
    | deref => contradiction
    | _ => exact Text.spells_word rfl
  exact named.close (fun _ => rfl) fun _ => rfl

/-- An operator between blanks. -/
theorem BinaryOp.ends_text (op : BinaryOp) : Ends (" " ++ op.text ++ " ") [op.text] := by
  cases op <;> exact fun _ => rfl

theorem BinaryOp.starts_text (op : BinaryOp) : Starts (" " ++ op.text ++ " ") := by
  cases op <;> exact fun _ => rfl

theorem mem_toDigits {base n : Nat} (large : 1 < base) {c : Char} (member : c ∈ Nat.toDigits base n) :
    ∃ d < base, c = d.digitChar := by
  induction n using Nat.strongRecOn with
  | ind n ih =>
    by_cases one : n < base
    · rw [Nat.toDigits_of_lt_base one, List.mem_singleton] at member
      exact ⟨n, one, member⟩
    · have below : n / base < n := Nat.div_lt_self (by omega) large
      rw [Nat.toDigits_of_base_le large (by omega), List.mem_append, List.mem_singleton] at member
      rcases member with front | last
      · exact ih _ below front
      · exact ⟨n % base, Nat.mod_lt n (by omega), last⟩

theorem Literal.spells_text (l : Literal) : Spells l.text [l.text] := by
  cases l with
  | bool b => cases b <;> exact Text.spells_word rfl
  | unit => exact Text.spells_word rfl
  | nat n => exact Text.spells_nat n
  | address n =>
    have digits : ((Nat.toDigits 16 n).map Char.toUpper).all Text.isGlue = true := by
      rw [List.all_eq_true]
      intro c member
      obtain ⟨d, digit, rfl⟩ := List.mem_map.mp member
      obtain ⟨k, small, rfl⟩ := mem_toDigits (by omega) digit
      have table : ∀ k < 16, Text.isGlue k.digitChar.toUpper = true := by decide
      exact table k small
    refine Text.spells_word ?_
    rw [Text.isWord, toList_address, List.all_append, List.all_append, digits]
    rfl

end Words

/-- That the printed texts of a node have its tokens as their words. -/
def Node.Spelled (style : Style) : Node → Prop
  | type t => ∀ place, Spells (TypeExpr.text place t) (TypeExpr.tokens place t)
  | pattern p => Spells (Pattern.text p) (Pattern.tokens p)
  | expr e => ∀ place depth, Spells ((Expr.doc place e).render style depth) (Expr.tokens place e)
  | decl _ => True
  | program _ => True

namespace TypeExpr

theorem spells_texts {ts : List (Located TypeExpr)}
    (spelled : ∀ t ∈ ts, ∀ place, Spells (text place t) (tokens place t)) :
    List.Forall₂ Spells (texts ts) (tokensEach ts) := by
  induction ts with
  | nil => exact .nil
  | cons t ts ih =>
    rw [List.forall_mem_cons] at spelled
    exact .cons (spelled.1 loosest) (ih spelled.2)

theorem spells_fieldTexts {fs : List (String × Located TypeExpr)}
    (names : ∀ field ∈ fs, isName field.1 = true)
    (spelled : ∀ field ∈ fs, ∀ place, Spells (text place field.2) (tokens place field.2)) :
    List.Forall₂ Spells (fieldTexts fs) (fieldTokens fs) := by
  induction fs with
  | nil => exact .nil
  | cons field fs ih =>
    rw [List.forall_mem_cons] at names spelled
    have first : Spells (field.1 ++ " : " ++ text loosest field.2) _ :=
      spells_labelled names.1 (spelled.1 loosest) (fun _ => rfl) fun _ => rfl
    exact .cons first (ih names.2 spelled.2)

theorem spells_alternativeTexts {fs : List (String × Option (Located TypeExpr))}
    (names : ∀ field ∈ fs, isName field.1 = true)
    (spelled : ∀ field ∈ fs, ∀ t ∈ field.2, ∀ place, Spells (text place t) (tokens place t)) :
    List.Forall₂ Spells (alternativeTexts fs) (alternativeTokens fs) := by
  induction fs with
  | nil => exact .nil
  | cons field fs ih =>
    rw [List.forall_mem_cons] at names spelled
    obtain ⟨l, payload⟩ := field
    cases payload with
    | none => exact .cons (spells_name names.1) (ih names.2 spelled.2)
    | some t =>
      have first : Spells (l ++ " : " ++ text loosest t) _ :=
        spells_labelled names.1 (spelled.1 t rfl loosest) (fun _ => rfl) fun _ => rfl
      exact .cons first (ih names.2 spelled.2)

theorem spells_text {style : Style} (t : Located TypeExpr) (legible : t.node.isLegible = true)
    (parts : ∀ c ∈ t.node.children, c.Spelled style) (place : Nat) :
    Spells (text place t) (tokens place t) := by
  obtain ⟨t, _⟩ := t
  rw [text, tokens]
  cases t with
  | auto | bool | nat | unit | top | bottom =>
    rw [textNode, tokensNode]
    exact Text.spells_word rfl
  | var x => exact spells_name legible
  | arrow ps r =>
    have params := spells_commaSeparated (spells_texts fun p member =>
      parts (.type p) (List.mem_append_left _ (List.mem_map_of_mem member)))
    have result := parts (.type r) (List.mem_append_right _ List.mem_cons_self) loosest
    exact spells_wrap ((Ends.append (fun _ => rfl) params).next (fun _ => rfl) (fun _ => rfl) result)
  | forAll xs b =>
    have names := spells_commaSeparated (spells_names (List.all_eq_true.mp legible))
    have body := parts (.type b) List.mem_cons_self loosest
    exact spells_wrap ((Ends.append (fun _ => rfl) names).next (fun _ => rfl) (fun _ => rfl) body)
  | recursive x b =>
    have body := parts (.type b) List.mem_cons_self loosest
    exact spells_wrap
      ((Ends.append (fun _ => rfl) (spells_name legible)).next (fun _ => rfl) (fun _ => rfl) body)
  | sum l r =>
    have left := parts (.type l) List.mem_cons_self atomLevel
    have right := parts (.type r) (List.mem_cons_of_mem _ List.mem_cons_self) sumLevel
    exact spells_wrap (left.next (fun _ => rfl) (fun _ => rfl) right)
  | tuple ts =>
    have elements := spells_commaSeparated
      (spells_texts fun t member => parts (.type t) (List.mem_map_of_mem member))
    exact (Ends.append (fun _ => rfl) elements).ended (fun _ => rfl) fun _ => rfl
  | record fs =>
    rw [isLegible, Bool.and_eq_true, List.all_eq_true] at legible
    have fields := spells_commaSeparated (spells_fieldTexts legible.2 fun field member =>
      parts (.type field.2) (List.mem_map_of_mem (f := fun field => Node.type field.2) member))
    exact (Ends.append (fun _ => rfl) fields).ended (fun _ => rfl) fun _ => rfl
  | variant fs =>
    have fields := spells_commaSeparated (spells_alternativeTexts (List.all_eq_true.mp legible)
      fun field member t payload => parts (.type t)
        (List.mem_filterMap.mpr ⟨field, member, by rw [Option.mem_def.mp payload, Option.map_some]⟩))
    have opened : Ends "<| " ["<|"] := fun _ => rfl
    exact (opened.append fields).append spells_closing fun _ => rfl
  | list t =>
    have element := parts (.type t) List.mem_cons_self loosest
    exact (Ends.append (fun _ => rfl) element).ended (fun _ => rfl) fun _ => rfl
  | ref t =>
    have referent := parts (.type t) List.mem_cons_self atomLevel
    exact Ends.append (fun _ => rfl) referent

end TypeExpr

namespace Pattern

theorem spells_texts {ps : List (Located Pattern)} (spelled : ∀ p ∈ ps, Spells (text p) (tokens p)) :
    List.Forall₂ Spells (texts ps) (tokensEach ps) := by
  induction ps with
  | nil => exact .nil
  | cons p ps ih =>
    rw [List.forall_mem_cons] at spelled
    exact .cons spelled.1 (ih spelled.2)

theorem spells_fieldTexts {fs : List (String × Located Pattern)}
    (names : ∀ field ∈ fs, isName field.1 = true)
    (spelled : ∀ field ∈ fs, Spells (text field.2) (tokens field.2)) :
    List.Forall₂ Spells (fieldTexts fs) (fieldTokens fs) := by
  induction fs with
  | nil => exact .nil
  | cons field fs ih =>
    rw [List.forall_mem_cons] at names spelled
    have first : Spells (field.1 ++ " = " ++ text field.2) _ :=
      spells_labelled names.1 spelled.1 (fun _ => rfl) fun _ => rfl
    exact .cons first (ih names.2 spelled.2)

/-- A word in front of one pattern in parentheses. -/
theorem spells_call {word : String} (p : Located Pattern) (spelled : Spells (text p) (tokens p))
    {ws : List String} (opened : Ends word ws) : Spells (word ++ text p ++ ")") (ws ++ tokens p ++ [")"]) :=
  (opened.append spelled).ended (fun _ => rfl) fun _ => rfl

theorem spells_text {style : Style} (p : Located Pattern) (legible : p.node.isLegible = true)
    (parts : ∀ c ∈ p.node.children, c.Spelled style) : Spells (text p) (tokens p) := by
  obtain ⟨p, _⟩ := p
  rw [text, tokens]
  cases p with
  | castAs p t =>
    have inner := parts (.pattern p) List.mem_cons_self
    have type := parts (.type t) (List.mem_cons_of_mem _ List.mem_cons_self) TypeExpr.loosest
    exact inner.next (fun _ => rfl) (fun _ => rfl) type
  | ascribed p t =>
    have inner := parts (.pattern p) List.mem_cons_self
    have type := parts (.type t) (List.mem_cons_of_mem _ List.mem_cons_self) TypeExpr.loosest
    exact inner.next (fun _ => rfl) (fun _ => rfl) type
  | variant l payload =>
    have opened : Ends "<| " ["<|"] := fun _ => rfl
    cases payload with
    | none => exact (opened.append (spells_name legible)).append spells_closing fun _ => rfl
    | some p =>
      have inner := parts (.pattern p) List.mem_cons_self
      exact ((opened.append (spells_name legible)).next (fun _ => rfl) (fun _ => rfl) inner).append
        spells_closing fun _ => rfl
  | inl p => exact spells_call p (parts (.pattern p) List.mem_cons_self) fun _ => rfl
  | inr p => exact spells_call p (parts (.pattern p) List.mem_cons_self) fun _ => rfl
  | tuple ps =>
    have elements := spells_commaSeparated
      (spells_texts fun p member => parts (.pattern p) (List.mem_map_of_mem member))
    exact (Ends.append (fun _ => rfl) elements).ended (fun _ => rfl) fun _ => rfl
  | record fs =>
    rw [isLegible, Bool.and_eq_true, List.all_eq_true] at legible
    have fields := spells_commaSeparated (spells_fieldTexts legible.2 fun field member =>
      parts (.pattern field.2) (List.mem_map_of_mem (f := fun field => Node.pattern field.2) member))
    exact (Ends.append (fun _ => rfl) fields).ended (fun _ => rfl) fun _ => rfl
  | list ps =>
    have elements := spells_commaSeparated
      (spells_texts fun p member => parts (.pattern p) (List.mem_map_of_mem member))
    exact (Ends.append (fun _ => rfl) elements).ended (fun _ => rfl) fun _ => rfl
  | cons h t =>
    have head := parts (.pattern h) List.mem_cons_self
    have tail := parts (.pattern t) (List.mem_cons_of_mem _ List.mem_cons_self)
    exact ((Ends.append (fun _ => rfl) head).next (fun _ => rfl) (fun _ => rfl) tail).ended
      (fun _ => rfl) fun _ => rfl
  | bool b =>
    rw [textNode, tokensNode]
    cases b <;> exact Text.spells_word rfl
  | unit =>
    rw [textNode, tokensNode]
    exact Text.spells_word rfl
  | nat n => exact Text.spells_nat n
  | succ p => exact spells_call p (parts (.pattern p) List.mem_cons_self) fun _ => rfl
  | var x => exact spells_name legible

end Pattern

namespace Expr

variable {style : Style} (depth : Nat)

theorem spells_docs {es : List (Located Expr)}
    (spelled : ∀ e ∈ es, ∀ place depth, Spells ((doc place e).render style depth) (tokens place e)) :
    List.Forall₂ (fun d => Spells (d.render style depth)) (docs es) (tokensEach es) := by
  induction es with
  | nil => exact .nil
  | cons e es ih =>
    rw [List.forall_mem_cons] at spelled
    exact .cons (spelled.1 loosest depth) (ih spelled.2)

theorem spells_fieldDocs {fs : List (String × Located Expr)}
    (names : ∀ field ∈ fs, isName field.1 = true)
    (spelled : ∀ field ∈ fs, ∀ place depth,
      Spells ((doc place field.2).render style depth) (tokens place field.2)) :
    List.Forall₂ (fun d => Spells (d.render style depth)) (fieldDocs fs) (fieldTokens fs) := by
  induction fs with
  | nil => exact .nil
  | cons field fs ih =>
    rw [List.forall_mem_cons] at names spelled
    have first : Spells (field.1 ++ " = " ++ (doc loosest field.2).render style depth) _ :=
      spells_labelled names.1 (spelled.1 loosest depth) (fun _ => rfl) fun _ => rfl
    exact .cons first (ih names.2 spelled.2)

/-- Bindings, or cases of a match. -/
theorem spells_bindingDocs {separator : String} (sign : String) (between : Ends separator [sign])
    (apart : Starts separator) {bs : List (Located Pattern × Located Expr)}
    (parts : ∀ c ∈ bindingChildren bs, c.Spelled style) :
    List.Forall₂ (fun d => Spells (d.render style depth)) (bindingDocs separator bs)
      (bindingTokens sign bs) := by
  induction bs with
  | nil => exact .nil
  | cons binding bs ih =>
    rw [bindingChildren, List.flatMap_cons, List.forall_mem_append, List.forall_mem_cons,
      List.forall_mem_cons] at parts
    have pattern : Spells (Pattern.text binding.1) (Pattern.tokens binding.1) := parts.1.1
    exact .cons (pattern.next between apart (parts.1.2.1 loosest depth)) (ih parts.2)

variable {depth}

theorem render_wrapDoc (own place : Nat) (d : Doc) :
    (wrapDoc own place d).render style depth = wrap own place (d.render style depth) := by
  unfold wrapDoc wrap
  split <;> rfl

theorem spells_wrapDoc {own place : Nat} {d : Doc} {ws : List String}
    (spelled : Spells (d.render style depth) ws) :
    Spells ((wrapDoc own place d).render style depth) (enclose own place ws) := by
  rw [render_wrapDoc]
  exact spells_wrap spelled

theorem spells_commas {docs : List Doc} {wss : List (List String)}
    (spelled : List.Forall₂ (fun d => Spells (d.render style depth)) docs wss) :
    Spells ((Doc.join ", " docs).render style depth) (separated "," wss) :=
  Text.spells_join (fun _ => rfl) (fun _ => rfl) spelled

/-- Bindings between commas. -/
theorem spells_bindings (depth : Nat) {bs : List (Located Pattern × Located Expr)}
    (parts : ∀ c ∈ bindingChildren bs, c.Spelled style) :
    Spells ((Doc.join ", " (bindingDocs " = " bs)).render style depth)
      (separated "," (bindingTokens "=" bs)) :=
  spells_commas (spells_bindingDocs depth "=" (fun _ => rfl) (fun _ => rfl) parts)

theorem docNode_call {op : UnaryOp} (word : op ≠ .deref) (place : Nat) (e : Located Expr) :
    docNode place (unary op e) = op.text ++ "(" ++ doc loosest e ++ ")" := by
  cases op with
  | deref => contradiction
  | _ => rfl

/-- A word in front of one expression in parentheses. -/
theorem spells_call {word : String} {ws : List String} (opened : Ends word ws) {e : Located Expr}
    (spelled : Spells ((doc loosest e).render style depth) (tokens loosest e)) :
    Spells (word ++ (doc loosest e).render style depth ++ ")") (ws ++ tokens loosest e ++ [")"]) :=
  (opened.append spelled).ended (fun _ => rfl) fun _ => rfl

/-- An expression, if its parts have their tokens as their words, at all places and depths. -/
theorem spells_doc (blank : IndentsBlank style) (e : Located Expr) (legible : e.node.isLegible = true)
    (parts : ∀ c ∈ e.node.children, c.Spelled style) (place depth : Nat) :
    Spells ((doc place e).render style depth) (tokens place e) := by
  obtain ⟨e, _⟩ := e
  have part (f : Located Expr) (member : .expr f ∈ e.children) (place : Nat) :
      Spells ((doc place f).render style depth) (tokens place f) := parts (.expr f) member place depth
  have type (t : Located TypeExpr) (member : .type t ∈ e.children) :
      Spells (TypeExpr.text TypeExpr.loosest t) (TypeExpr.tokens TypeExpr.loosest t) :=
    parts (.type t) member TypeExpr.loosest
  have pattern (p : Located Pattern) (member : .pattern p ∈ e.children) :
      Spells (Pattern.text p) (Pattern.tokens p) := parts (.pattern p) member
  rw [doc, tokens]
  cases e with
  | sequence a b | assign a b =>
    have first := part a (by simp [children])
    have second := part b (by simp [children])
    refine spells_wrapDoc ?_
    simp only [Text.render_append, Doc.render]
    exact (first _).next (fun _ => rfl) (fun _ => rfl) (second _)
  | cond a b c =>
    have condition := part a (by simp [children])
    have thenBranch := part b (by simp [children])
    have elseBranch := part c (by simp [children])
    refine spells_wrapDoc ?_
    simp only [Text.render_append, Doc.render]
    exact ((Ends.append (fun _ => rfl) (condition _)).next (fun _ => rfl) (fun _ => rfl) (thenBranch _)).next
      (fun _ => rfl) (fun _ => rfl) (elseBranch _)
  | letIn bs f | letRec bs f =>
    have bindings := spells_bindings depth fun c member => parts c (List.mem_append_left _ member)
    have body := part f (by simp [children])
    refine spells_wrapDoc ?_
    simp only [Text.render_append, Doc.render]
    exact (Ends.append (fun _ => rfl) bindings).next (fun _ => rfl) (fun _ => rfl) (body _)
  | typeAbstraction xs f =>
    have names := spells_commaSeparated (spells_names (List.all_eq_true.mp legible))
    have body := part f (by simp [children])
    refine spells_wrapDoc ?_
    simp only [Text.render_append, Doc.render]
    exact (Ends.append (fun _ => rfl) names).next (fun _ => rfl) (fun _ => rfl) (body _)
  | binary op a b =>
    have left := part a (by simp [children])
    have right := part b (by simp [children])
    refine spells_wrapDoc ?_
    have whole := (left op.precedence).next op.ends_text op.starts_text (right (op.precedence + 1))
    simpa only [Text.render_append, Doc.render, String.append_assoc] using whole
  | ascribe f t | cast f t =>
    have inner := part f (by simp [children])
    have type := type t (by simp [children])
    refine spells_wrapDoc ?_
    simp only [Text.render_append, Doc.render]
    exact (inner _).next (fun _ => rfl) (fun _ => rfl) type
  | abstraction ps f =>
    have params := spells_commaSeparated (TypeExpr.spells_fieldTexts (List.all_eq_true.mp legible)
      fun param member => parts (.type param.2) (List.mem_append_left _
        (List.mem_map_of_mem (f := fun param => Node.type param.2) member)))
    have body := part f (by simp [children])
    simp only [docNode, Text.render_append, Doc.render]
    exact ((Ends.append (fun _ => rfl) params).next (fun _ => rfl) (fun _ => rfl) (body _)).ended
      (fun _ => rfl) fun _ => rfl
  | variant l payload =>
    have opened : Ends "<| " ["<|"] := fun _ => rfl
    cases payload with
    | none =>
      simp only [docNode, Text.render_append, Doc.render]
      exact (opened.append (spells_name legible)).append spells_closing fun _ => rfl
    | some f =>
      have inner := part f (by simp [children])
      simp only [docNode, Text.render_append, Doc.render]
      exact ((opened.append (spells_name legible)).next (fun _ => rfl) (fun _ => rfl) (inner _)).append
        spells_closing fun _ => rfl
  | matching f cs =>
    have scrutinee := part f (by simp [children]) loosest
    refine Text.spells_alternatives blank ?_ (spells_bindingDocs (depth + 1) "=>" (fun _ => rfl) (fun _ => rfl)
      fun c member => parts c (List.mem_cons_of_mem _ member))
    simp only [Text.render_append, Doc.render]
    exact Ends.append (fun _ => rfl) scrutinee
  | list es | tuple es =>
    have elements := spells_commas (spells_docs depth fun f member =>
      parts (.expr f) (List.mem_map_of_mem member))
    simp only [docNode, Text.render_append, Doc.render]
    exact (Ends.append (fun _ => rfl) elements).ended (fun _ => rfl) fun _ => rfl
  | unary op f =>
    have operand := part f (by simp [children])
    by_cases word : op = .deref
    · subst word
      refine spells_wrapDoc ?_
      simp only [Text.render_append, Doc.render]
      exact Ends.append (fun _ => rfl) (operand _)
    · rw [docNode_call word, tokensNode_call word]
      exact spells_call (op.ends_text word) (operand _)
  | application f es =>
    have function := part f (by simp [children])
    have elements := spells_commas (spells_docs depth fun f member =>
      parts (.expr f) (List.mem_cons_of_mem _ (List.mem_map_of_mem member)))
    simp only [docNode, Text.render_append, Doc.render]
    exact ((function _).next (fun _ => rfl) (fun _ => rfl) elements).ended (fun _ => rfl) fun _ => rfl
  | typeApplication f ts =>
    have function := part f (by simp [children])
    have types := spells_commaSeparated (TypeExpr.spells_texts fun t member =>
      parts (.type t) (List.mem_cons_of_mem _ (List.mem_map_of_mem member)))
    simp only [docNode, Text.render_append, Doc.render]
    exact ((function _).next (fun _ => rfl) (fun _ => rfl) types).ended (fun _ => rfl) fun _ => rfl
  | field f l =>
    have record := part f (by simp [children])
    simp only [docNode, Text.render_append, Doc.render]
    exact (record _).next (fun _ => rfl) (fun _ => rfl) (spells_name legible)
  | component f i =>
    have tuple := part f (by simp [children])
    simp only [docNode, Text.render_append, Doc.render]
    exact (tuple _).next (fun _ => rfl) (fun _ => rfl) (Text.spells_nat i)
  | record fs =>
    rw [isLegible, Bool.and_eq_true, List.all_eq_true] at legible
    have fields := spells_commas (spells_fieldDocs depth legible.2 fun field member =>
      parts (.expr field.2) (List.mem_map_of_mem (f := fun field => Node.expr field.2) member))
    simp only [docNode, Text.render_append, Doc.render]
    exact (Ends.append (fun _ => rfl) fields).ended (fun _ => rfl) fun _ => rfl
  | cons h t =>
    have head := part h (by simp [children])
    have tail := part t (by simp [children])
    simp only [docNode, Text.render_append, Doc.render]
    exact ((Ends.append (fun _ => rfl) (head _)).next (fun _ => rfl) (fun _ => rfl) (tail _)).ended
      (fun _ => rfl) fun _ => rfl
  | panic =>
    rw [docNode, tokensNode, Doc.render]
    exact Text.spells_word rfl
  | tryCatch f p h =>
    have body := part f (by simp [children])
    have pattern := pattern p (by simp [children])
    have handler := part h (by simp [children])
    simp only [docNode, Text.render_append, Doc.render]
    exact (((Ends.append (fun _ => rfl) (body _)).next (fun _ => rfl) (fun _ => rfl) pattern).next
      (fun _ => rfl) (fun _ => rfl) (handler _)).ended (fun _ => rfl) fun _ => rfl
  | tryWith a b =>
    have body := part a (by simp [children])
    have fallback := part b (by simp [children])
    simp only [docNode, Text.render_append, Doc.render]
    exact ((Ends.append (fun _ => rfl) (body _)).next (fun _ => rfl) (fun _ => rfl) (fallback _)).ended
      (fun _ => rfl) fun _ => rfl
  | tryCast f t p a b =>
    have body := part f (by simp [children])
    have type := type t (by simp [children])
    have pattern := pattern p (by simp [children])
    have success := part a (by simp [children])
    have failure := part b (by simp [children])
    simp only [docNode, Text.render_append, Doc.render]
    exact (((((Ends.append (fun _ => rfl) (body _)).next (fun _ => rfl) (fun _ => rfl) type).next
      (fun _ => rfl) (fun _ => rfl) pattern).next (fun _ => rfl) (fun _ => rfl) (success _)).next
      (fun _ => rfl) (fun _ => rfl) (failure _)).ended (fun _ => rfl) fun _ => rfl
  | natRec a b c =>
    have count := part a (by simp [children])
    have initial := part b (by simp [children])
    have step := part c (by simp [children])
    simp only [docNode, Text.render_append, Doc.render]
    exact (((Ends.append (fun _ => rfl) (count _)).next (fun _ => rfl) (fun _ => rfl) (initial _)).next
      (fun _ => rfl) (fun _ => rfl) (step _)).ended (fun _ => rfl) fun _ => rfl
  | fold t f | unfold t f =>
    have type := type t (by simp [children])
    have inner := part f (by simp [children])
    refine spells_wrapDoc ?_
    simp only [Text.render_append, Doc.render]
    exact (Ends.append (fun _ => rfl) type).next (fun _ => rfl) (fun _ => rfl) (inner _)
  | literal l => exact l.spells_text
  | var x => exact spells_name legible

end Expr

/-- The words of a printed node are its tokens. -/
theorem Node.Legible.spelled {style : Style} (blank : IndentsBlank style) {n : Node} (legible : n.Legible) :
    n.Spelled style := by
  induction n using Node.induction with
  | step n ih =>
    have parts (c : Node) (part : c ∈ n.children) : c.Spelled style := ih c part (legible.child part)
    cases n with
    | type t => exact TypeExpr.spells_text t legible.self parts
    | pattern p => exact Pattern.spells_text p legible.self parts
    | expr e => exact Expr.spells_doc blank e legible.self parts
    | decl _ => trivial
    | program _ => trivial

end StellaLang.Syntax
