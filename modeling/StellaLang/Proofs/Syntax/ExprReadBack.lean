import StellaLang.Proofs.Syntax.ExprReader

/-! What is read from the tokens of an expression is the expression, up to its places and to the order
of dereferences and what stands behind them. -/
namespace StellaLang.Syntax.Expr

open Text (separated)

variable {e : Located Expr} {w : String} {place : Nat} {ts r : List String}

section Places

/-- That an expression is read back, as an operand and at every place, and what stands behind it is read
as what goes on with it. -/
def ReadBack (e : Located Expr) : Prop :=
  (∀ r, operand (tokens postfixLevel e ++ r) = resume (asRead e) r) ∧
    ∀ level place r, level ≤ place → place ≤ postfixLevel → demand r ≤ place →
      read level (tokens place e ++ r) = climb (level, asRead e) r

theorem ReadBack.operand (back : ReadBack e) (r : List String) :
    Expr.operand (tokens postfixLevel e ++ r) = resume (asRead e) r :=
  back.1 r

/-- Nothing goes on with an expression in front of a word that closes its place. -/
theorem ReadBack.whole (back : ReadBack e) (closed : demand r = loosest) :
    read loosest (tokens loosest e ++ r) = some (asRead e, r) := by
  rw [back.2 loosest loosest r (Nat.le_refl _) (Nat.zero_le _) (Nat.le_of_eq closed), climb_closed closed]

theorem operand_eq {first : Opening} (known : opening w = some first)
    (whole : opened first ts = some (e, r)) : operand (w :: ts) = postfixes e r := by
  rw [operand, known, Option.bind_eq_bind, Option.bind_some, StateT.run, ReaderT.run, whole]
  rfl

theorem read_of_operand (whole : operand ts = resume e r) (low : demand r ≤ postfixLevel) (level : Nat) :
    read level ts = climb (level, e) r := by
  rw [read, StateT.run, whole, resume_done low]
  rfl

/-- An expression that stands in no parentheses anywhere. -/
theorem readBack_of_bare (bare : ∀ place ≤ postfixLevel, tokens place e = tokens postfixLevel e)
    (whole : ∀ r, Expr.operand (tokens postfixLevel e ++ r) = resume (asRead e) r) : ReadBack e := by
  refine ⟨whole, fun level place r _ high low => ?_⟩
  rw [bare place high]
  exact read_of_operand (whole r) (Nat.le_trans low high) level

/-- An expression that stands in parentheses at some places. -/
theorem readBack_of_enclosed {own : Nat} {ws : List String} (loose : own < postfixLevel)
    (enclosed : ∀ place, tokens place e = enclose own place ws) (plain : (asRead e).node.isDeref = false)
    (whole : ∀ level r, level ≤ own → demand r ≤ own →
      read level (ws ++ r) = climb (level, asRead e) r) : ReadBack e := by
  have parens (r : List String) : Expr.operand (["("] ++ ws ++ [")"] ++ r) = resume (asRead e) r := by
    have inner : opened .paren (ws ++ ")" :: r) = some (asRead e, r) := by
      rw [opened, StateT.run, ReaderT.run, whole loosest (")" :: r) (Nat.zero_le _) (Nat.zero_le _),
        climb_closed rfl]
      rfl
    rw [List.append_assoc, List.append_assoc, List.singleton_append, List.singleton_append,
      resume_plain plain]
    exact operand_eq rfl inner
  refine ⟨fun r => ?_, fun level place r bound high low => ?_⟩
  · rw [enclosed, enclose, if_pos loose, parens]
  · rw [enclosed, enclose]
    split
    · exact read_of_operand (parens r) (Nat.le_trans low high) level
    · exact whole level r (by omega) (by omega)

end Places

section Leaves

theorem address?_name {x : String} (name : isName x = true) : address? x = none := by
  obtain ⟨c, cs, chars, start⟩ := head_of_name name
  refine if_neg ?_
  rw [chars, List.take_succ_cons]
  intro same
  rw [(List.cons.inj same).1] at start
  contradiction

theorem sixteen_toDigits (n : Nat) : sixteen ((Nat.toDigits 16 n).map Char.toUpper) = n := by
  have digit : ∀ k < 16, "0123456789ABCDEF".toList.idxOf k.digitChar.toUpper = k := by decide
  induction n using Nat.strongRecOn with
  | ind n ih =>
    by_cases one : n < 16
    · rw [Nat.toDigits_of_lt_base one]
      exact (Nat.zero_add _).trans (digit n one)
    · have earlier := ih (n / 16) (by omega)
      rw [sixteen] at earlier
      rw [Nat.toDigits_of_base_le (by omega) (by omega), List.map_append, List.map_singleton, sixteen,
        List.foldl_append, earlier, List.foldl_cons, List.foldl_nil, digit _ (Nat.mod_lt n (by omega))]
      omega

theorem address?_text (n : Nat) : address? (Literal.text (.address n)) = some n := by
  rw [address?, Literal.toList_address, List.append_assoc]
  refine (if_pos rfl).trans ?_
  have digits : (['<', '0', 'x'] ++ ((Nat.toDigits 16 n).map Char.toUpper ++ ['>'])).drop 3 =
      (Nat.toDigits 16 n).map Char.toUpper ++ ['>'] := rfl
  rw [digits, List.dropLast_concat, sixteen_toDigits]

theorem opening_name {x : String} (name : isName x = true) : opening x = some (.leaf (var x)) := by
  rw [opening, decimal?_name name, address?_name name]
  exact if_pos name

theorem opening_literal (l : Literal) : opening l.text = some (.leaf (literal l)) := by
  cases l with
  | bool b => cases b <;> rfl
  | unit => rfl
  | nat n => rw [Literal.text, opening, decimal?_toString]
  | address n =>
    have other : decimal? (Literal.text (.address n)) = none := by
      rw [decimal?, Literal.toList_address]
      rfl
    rw [opening, other, address?_text]

theorem opening_call {op : UnaryOp} (word : op ≠ .deref) : opening op.text = some (.call op) := by
  cases op with
  | deref => contradiction
  | _ => rfl

theorem joint_operator (op : BinaryOp) :
    joint op.text = some (.operator op.precedence (op.precedence + 1) (binary op)) := by
  cases op <;> rfl

end Leaves

section Entries

theorem listing : Listing "=" (read loosest) entry entries where
  entry_eq := by
    funext ts
    rw [entry]
    rfl
  entries_step close ts := by
    cases ts with
    | _ =>
      rw [entries]
      rfl
  refuses w stop ts := by
    have unopened : ∀ w ∈ itemStops, opening w = none := by decide
    rw [read, StateT.run, Expr.operand, unopened w stop]
    rfl
  apart := by decide

theorem bindings_step (sep close : String) (ts : List String) :
    bindings (sep, close) ts = listed sep close binding (bindings (sep, close)) ts := by
  cases ts with
  | _ =>
    rw [bindings]
    rfl

theorem binding_refuses (w : String) (stop : w ∈ itemStops) (ts : List String) :
    binding (w :: ts) = none := by
  rw [binding, Pattern.read_refuses w stop]
  rfl

theorem closed_of_stopped (stopped : Stopped itemStops r) : demand r = loosest := by
  obtain ⟨w, stop, head⟩ := stopped
  cases r with
  | nil => contradiction
  | cons v r =>
    rw [List.head?_cons, Option.some_inj] at head
    rw [demand, head]
    exact (by decide : ∀ w ∈ itemStops, tightness w = loosest) w stop

theorem ReadBack.item (back : ReadBack e) :
    ReadsItem itemStops (read loosest) (tokens loosest e) (asRead e) :=
  fun _ stopped => back.whole (closed_of_stopped stopped)

theorem read_name {x : String} (name : isName x = true) (closed : demand r = loosest) :
    read loosest (x :: r) = some (⟨var x, none⟩, r) := by
  have whole : opened (.leaf (var x)) r = some (⟨var x, none⟩, r) := by rw [opened]
  have low : demand r ≤ postfixLevel := by rw [closed]; exact Nat.zero_le _
  rw [read, StateT.run, operand_eq (opening_name name) whole, postfixes_done low, Option.bind_eq_bind,
    Option.bind_some]
  exact climb_closed closed

theorem reads_label {l : String} (name : isName l = true) :
    ReadsItem itemStops entry [l] (⟨var l, none⟩, none) :=
  listing.reads_bare fun _ stopped => read_name name (closed_of_stopped stopped)

theorem reads_field {l : String} (name : isName l = true) (back : ReadBack e) :
    ReadsItem itemStops entry ([l] ++ ["="] ++ tokens loosest e) (⟨var l, none⟩, some (asRead e)) :=
  listing.reads_labelled (fun _ => read_name name rfl) back.item

theorem reads_each {es : List (Located Expr)} (back : ∀ e ∈ es, ReadBack e) :
    List.Forall₂ (ReadsItem itemStops entry) (tokensEach es) ((asReadAll es).map (·, none)) := by
  induction es with
  | nil => exact .nil
  | cons e es ih =>
    rw [List.forall_mem_cons] at back
    exact .cons (listing.reads_bare back.1.item) (ih back.2)

theorem reads_fields {fs : List (String × Located Expr)} (names : ∀ field ∈ fs, isName field.1 = true)
    (back : ∀ field ∈ fs, ReadBack field.2) :
    List.Forall₂ (ReadsItem itemStops entry) (fieldTokens fs)
      ((asReadFields fs).map fun field => (⟨var field.1, none⟩, some field.2)) := by
  induction fs with
  | nil => exact .nil
  | cons field fs ih =>
    rw [List.forall_mem_cons] at names back
    exact .cons (reads_field names.1 back.1) (ih names.2 back.2)

theorem reads_binding {p : Located Pattern} {sign : String} (equals : sign ∈ ["=", "=>"])
    (pattern : Pattern.ReadBack p) (back : ReadBack e) :
    ReadsItem itemStops binding (Pattern.tokens p ++ [sign] ++ tokens loosest e)
      (Pattern.relocate nowhere p, asRead e) := by
  intro r stopped
  have done : Pattern.Done (sign :: (tokens loosest e ++ r)) := by
    rw [Pattern.Done, List.head?_cons]
    exact (by decide : ∀ w ∈ ["=", "=>"], some w ∉ [some "+", some "as", some "cast"]) sign equals
  rw [List.append_assoc, List.append_assoc, List.singleton_append, binding, pattern.whole done,
    Option.bind_eq_bind, Option.bind_some]
  dsimp only [StateT.run, ReaderT.run, List.tail_cons]
  rw [back.whole (closed_of_stopped stopped)]
  rfl

theorem reads_bindings {bs : List (Located Pattern × Located Expr)} {sign : String}
    (equals : sign ∈ ["=", "=>"])
    (patterns : ∀ p, .pattern p ∈ bindingChildren bs → Pattern.ReadBack p)
    (back : ∀ e, .expr e ∈ bindingChildren bs → ReadBack e) :
    List.Forall₂ (ReadsItem itemStops binding) (bindingTokens sign bs) (asReadBindings bs) := by
  induction bs with
  | nil => exact .nil
  | cons binding bs ih =>
    have first := reads_binding equals (patterns binding.1 (by simp [bindingChildren]))
      (back binding.2 (by simp [bindingChildren]))
    exact .cons first (ih (fun p member => patterns p (List.mem_append_right _ member))
      fun e member => back e (List.mem_append_right _ member))

theorem read_bindings (sep close : String) (between : sep ∈ itemStops) (last : close ∈ itemStops)
    (apart : sep ≠ close) {wss : List (List String)} {bs : List (Located Pattern × Located Expr)}
    (reads : List.Forall₂ (ReadsItem itemStops binding) wss bs) (r : List String) :
    bindings (sep, close) (separated sep wss ++ close :: r) = some (bs, r) :=
  read_separated (bindings_step sep close) binding_refuses between last apart reads r

end Entries

section Joints

theorem climb_joint {j : Joint} {f : Located Expr} (known : joint w = some j) (high : place ≤ j.level)
    (reads : joined (j, e) ts = some (f, r)) : climb (place, e) (w :: ts) = climb (place, f) r := by
  rw [climb, known]
  refine (if_neg (Nat.not_lt.mpr high)).trans ?_
  rw [StateT.run, ReaderT.run, reads]
  rfl

/-- Two expressions with a joint between them. -/
theorem readBack_of_operator {a b : Located Expr} {own left right : Nat}
    {make : Located Expr → Located Expr → Expr}
    (known : joint w = some (.operator own right make))
    (enclosed : ∀ place, tokens place e = enclose own place (tokens left a ++ [w] ++ tokens right b))
    (result : asRead e = ⟨make (asRead a) (asRead b), none⟩) (plain : (asRead e).node.isDeref = false)
    (loose : own < postfixLevel) (first : max own comparisonLevel ≤ left) (low : left ≤ postfixLevel)
    (second : own < right ∨ own = loosest) (high : own ≤ right) (low' : right ≤ postfixLevel)
    (backA : ReadBack a) (backB : ReadBack b) : ReadBack e := by
  refine readBack_of_enclosed loose enclosed plain fun level r bound demanded => ?_
  have tight : demand (w :: (tokens right b ++ r)) ≤ left := by
    rw [demand, tightness, known]
    exact first
  -- what stands behind binds too loosely to go on with the right operand
  have right_done : climb (right, asRead b) r = some (asRead b, r) := by
    rcases second with tighter | rfl
    · exact climb_done (Nat.lt_of_le_of_lt demanded tighter)
    · exact climb_closed (Nat.le_zero.mp demanded)
  have reads : joined (.operator own right make, asRead a) (tokens right b ++ r) = some (asRead e, r) := by
    rw [joined, StateT.run, ReaderT.run, backB.2 right right r (Nat.le_refl _) low'
      (Nat.le_trans demanded high), right_done, result]
    rfl
  rw [List.append_assoc, List.append_assoc, List.singleton_append,
    backA.2 level left _ (by omega) low tight, climb_joint known bound reads]

/-- An expression with a type behind it. -/
theorem readBack_of_ascription (skipped : List String) {f : Located Expr} {t : Located TypeExpr}
    {make : Located Expr → Located TypeExpr → Expr}
    (known : joint w = some (.ascription skipped.length make))
    (enclosed : ∀ place, tokens place e = enclose comparisonLevel place
      (tokens additionLevel f ++ (w :: skipped) ++ TypeExpr.tokens TypeExpr.loosest t))
    (result : asRead e = ⟨make (asRead f) (TypeExpr.relocate nowhere t), none⟩)
    (plain : (asRead e).node.isDeref = false) (back : ReadBack f) (type : TypeExpr.ReadBack t) :
    ReadBack e := by
  refine readBack_of_enclosed (by decide) enclosed plain fun level r bound demanded => ?_
  have tight : demand (w :: (skipped ++ (TypeExpr.tokens TypeExpr.loosest t ++ r))) ≤ additionLevel := by
    rw [demand, tightness, known]
    exact (by decide : max comparisonLevel comparisonLevel ≤ additionLevel)
  have reads : joined (.ascription skipped.length make, asRead f)
      (skipped ++ (TypeExpr.tokens TypeExpr.loosest t ++ r)) = some (asRead e, r) := by
    rw [joined, List.drop_left, type.2 TypeExpr.loosest r (not_plus demanded), result]
    rfl
  rw [List.append_assoc, List.append_assoc, List.cons_append,
    back.2 level additionLevel _ (Nat.le_trans bound (by decide)) (by decide) tight,
    climb_joint known bound reads]

end Joints

section Forms

/-- An expression that binds loosely but is read behind its first word. -/
theorem readBack_of_prefix (own : Nat) {ws : List String} (loose : own < postfixLevel)
    (enclosed : ∀ place, tokens place e = enclose own place ws) (plain : (asRead e).node.isDeref = false)
    (whole : ∀ r, demand r ≤ own → Expr.operand (ws ++ r) = postfixes (asRead e) r) : ReadBack e := by
  refine readBack_of_enclosed loose enclosed plain fun level r _ low => ?_
  refine read_of_operand ?_ (by omega) level
  rw [resume_plain plain, whole r low]

/-- An expression that is read behind its first word and stands in no parentheses. -/
theorem readBack_of_opened (bare : ∀ place, tokens place e = tokens postfixLevel e)
    (plain : (asRead e).node.isDeref = false)
    (whole : ∀ r, Expr.operand (tokens postfixLevel e ++ r) = postfixes (asRead e) r) : ReadBack e := by
  refine readBack_of_bare (fun place _ => bare place) fun r => ?_
  rw [resume_plain plain, whole]

theorem readBack_of_deref {f : Located Expr} (deref : e.node = unary .deref f) (back : ReadBack f) :
    ReadBack e := by
  obtain ⟨_, position⟩ := e
  subst deref
  refine readBack_of_bare (fun place high => ?_) fun r => ?_
  · rw [tokens, tokensNode, enclose, if_neg (by omega)]
    rfl
  · have start : tokens postfixLevel ⟨unary .deref f, position⟩ = "*" :: tokens postfixLevel f := rfl
    rw [start, List.cons_append, Expr.operand, show opening "*" = some .deref from rfl, asRead, asReadNode,
      resume, Option.bind_eq_bind, Option.bind_some, StateT.run, ReaderT.run, opened, StateT.run,
      back.operand]
    -- what stands behind goes on with the operand first, as in `resume`
    cases resume (asRead f) r <;> rfl

/-- An expression with an application or projection behind it. -/
theorem readBack_of_postfix (make : Located Expr → Expr) (ws : List String) {f : Located Expr}
    (bare : ∀ place, tokens place e = tokens postfixLevel f ++ ws)
    (result : asRead e = beneath make (asRead f)) (plain : ∀ f, (make f).isDeref = false)
    (reads : ∀ f r, postfixes f (ws ++ r) = postfixes ⟨make f, none⟩ r) (back : ReadBack f) :
    ReadBack e := by
  refine readBack_of_bare (fun place _ => by rw [bare, bare]) fun r => ?_
  rw [bare, List.append_assoc, back.operand, resume_beneath plain fun f => reads f r, result]

theorem postfixes_dot (f : Located Expr) (w : String) (r : List String) :
    postfixes f ("." :: w :: r) = postfixes ⟨projection f w, none⟩ r := by
  rw [postfixes, if_neg (by simp), if_neg (by simp), List.head?_cons, if_pos rfl]
  rfl

end Forms

/-- A legible expression is read back if its parts are. -/
theorem readBack (e : Located Expr) (legible : e.node.isLegible = true)
    (types : ∀ t, .type t ∈ e.node.children → TypeExpr.ReadBack t)
    (patterns : ∀ p, .pattern p ∈ e.node.children → Pattern.ReadBack p)
    (parts : ∀ f, .expr f ∈ e.node.children → ReadBack f) : ReadBack e := by
  obtain ⟨e, position⟩ := e
  cases e with
  | sequence a b =>
    have first := parts a (by simp [children])
    have second := parts b (by simp [children])
    exact readBack_of_operator rfl (fun _ => rfl) rfl rfl (by decide) (by decide) (by decide) (.inr rfl)
      (by decide) (by decide) first second
  | assign a b =>
    have target := parts a (by simp [children])
    have value := parts b (by simp [children])
    exact readBack_of_operator rfl (fun _ => rfl) rfl rfl (by decide) (by decide) (by decide)
      (.inl (by decide)) (by decide) (by decide) target value
  | cond a b c =>
    have condition := parts a (by simp [children])
    have thenBranch := parts b (by simp [children])
    have elseBranch := parts c (by simp [children])
    refine readBack_of_prefix loosest (by decide) (fun _ => rfl) rfl fun r low => ?_
    simp only [List.append_assoc, List.cons_append, List.nil_append]
    refine operand_eq rfl ?_
    simp only [opened, StateT.run, ReaderT.run, List.tail_cons, condition.whole (r := "then" :: _) rfl,
      thenBranch.whole (r := "else" :: _) rfl, elseBranch.whole (Nat.le_zero.mp low), Option.bind_eq_bind,
      Option.bind_some]
    rfl
  | letIn bs f | letRec bs f =>
    have bindings := read_bindings "," "in" (by decide) (by decide) (by decide)
      (reads_bindings (by decide : "=" ∈ ["=", "=>"])
        (fun p member => patterns p (List.mem_append_left _ member))
        fun e member => parts e (List.mem_append_left _ member))
    have body := parts f (by simp [children])
    refine readBack_of_prefix loosest (by decide) (fun _ => rfl) rfl fun r low => ?_
    simp only [List.append_assoc, List.cons_append, List.nil_append]
    refine operand_eq rfl ?_
    simp only [opened, StateT.run, ReaderT.run, bindings, body.whole (Nat.le_zero.mp low),
      Option.bind_eq_bind, Option.bind_some]
    rfl
  | typeAbstraction xs f =>
    have bound := read_names (List.all_eq_true.mp legible) (by decide : "]" ∈ [".", "]"])
    have body := parts f (by simp [children])
    refine readBack_of_prefix loosest (by decide) (fun _ => rfl) rfl fun r low => ?_
    simp only [List.append_assoc, List.cons_append, List.nil_append]
    refine operand_eq rfl ?_
    simp only [opened, StateT.run, ReaderT.run, List.tail_cons, bound, body.whole (Nat.le_zero.mp low),
      Option.bind_eq_bind, Option.bind_some]
    rfl
  | binary op a b =>
    have left := parts a (by simp [children])
    have right := parts b (by simp [children])
    have levels : op.precedence < postfixLevel ∧ comparisonLevel ≤ op.precedence := by cases op <;> decide
    exact readBack_of_operator (joint_operator op) (fun _ => rfl) rfl rfl levels.1 (by omega) (by omega)
      (.inl (by omega)) (by omega) (by omega) left right
  | ascribe f t =>
    have inner := parts f (by simp [children])
    have type := types t (by simp [children])
    exact readBack_of_ascription [] rfl (fun _ => rfl) rfl rfl inner type
  | cast f t =>
    have inner := parts f (by simp [children])
    have type := types t (by simp [children])
    exact readBack_of_ascription ["as"] rfl (fun _ => rfl) rfl rfl inner type
  | abstraction ps f =>
    have params := TypeExpr.listing.read_entries ")" (by decide) (by decide)
      (TypeExpr.reads_fields (List.all_eq_true.mp legible) fun param member => types param.2
        (List.mem_append_left _ (List.mem_map_of_mem (f := fun param => Node.type param.2) member)))
    have body := parts f (by simp [children])
    refine readBack_of_opened (fun _ => rfl) rfl fun r => ?_
    rw [tokens, tokensNode]
    simp only [List.append_assoc, List.cons_append, List.nil_append]
    refine operand_eq rfl ?_
    simp only [opened, StateT.run, ReaderT.run, List.tail_cons, params, List.drop_succ_cons, List.drop_zero,
      body.whole (r := "\x7d" :: _) rfl, Option.bind_eq_bind, Option.bind_some]
    simp [TypeExpr.label]
    rfl
  | variant l payload =>
    refine readBack_of_opened (by cases payload <;> exact fun _ => rfl) (by cases payload <;> rfl)
      fun r => ?_
    cases payload with
    | none =>
      have label := reads_label legible ("|>" :: r) ⟨"|>", by decide, rfl⟩
      rw [tokens, tokensNode]
      simp only [List.cons_append, List.nil_append] at label ⊢
      refine operand_eq rfl ?_
      simp only [opened, StateT.run, label, Option.bind_eq_bind, Option.bind_some]
      rfl
    | some f =>
      have field := reads_field legible (parts f (by simp [children])) ("|>" :: r) ⟨"|>", by decide, rfl⟩
      rw [tokens, tokensNode]
      simp only [List.append_assoc, List.cons_append, List.nil_append] at field ⊢
      refine operand_eq rfl ?_
      simp only [opened, StateT.run, field, Option.bind_eq_bind, Option.bind_some]
      rfl
  | matching f cs =>
    have scrutinee := parts f (by simp [children])
    have cases := read_bindings "|" "\x7d" (by decide) (by decide) (by decide)
      (reads_bindings (by decide : "=>" ∈ ["=", "=>"])
        (fun p member => patterns p (List.mem_cons_of_mem _ member))
        fun e member => parts e (List.mem_cons_of_mem _ member))
    refine readBack_of_opened (fun _ => rfl) rfl fun r => ?_
    rw [tokens, tokensNode]
    simp only [List.append_assoc, List.cons_append, List.nil_append]
    refine operand_eq rfl ?_
    simp only [opened, StateT.run, ReaderT.run, scrutinee.whole (r := "\x7b" :: _) rfl, List.tail_cons,
      cases, Option.bind_eq_bind, Option.bind_some]
    rfl
  | list es =>
    have elements := listing.read_entries "]" (by decide) (by decide)
      (reads_each fun e member => parts e (List.mem_map_of_mem member))
    refine readBack_of_opened (fun _ => rfl) rfl fun r => ?_
    rw [tokens, tokensNode]
    simp only [List.append_assoc, List.cons_append, List.nil_append]
    refine operand_eq rfl ?_
    simp only [opened, StateT.run, ReaderT.run, elements, Option.bind_eq_bind, Option.bind_some,
      List.map_map, Function.comp_def, List.map_id_fun']
    rfl
  | unary op f =>
    have inner := parts f (by simp [children])
    by_cases word : op = .deref
    · subst word
      exact readBack_of_deref rfl inner
    · refine readBack_of_opened (fun place => ?_) ?_ fun r => ?_
      · rw [tokens, tokens, tokensNode_call word, tokensNode_call word]
      · cases op with
        | deref => contradiction
        | _ => rfl
      · rw [tokens, tokensNode_call word]
        simp only [List.append_assoc, List.cons_append, List.nil_append]
        refine operand_eq (opening_call word) ?_
        simp only [opened, StateT.run, ReaderT.run, List.tail_cons, inner.whole (r := ")" :: _) rfl,
          Option.bind_eq_bind, Option.bind_some]
        rfl
  | application f es =>
    have function := parts f (by simp [children])
    have elements := listing.read_entries ")" (by decide) (by decide)
      (reads_each fun e member => parts e (List.mem_cons_of_mem _ (List.mem_map_of_mem member)))
    refine readBack_of_postfix (application · (asReadAll es))
      ("(" :: (separated "," (tokensEach es) ++ [")"])) (fun _ => ?_) rfl (fun _ => rfl) (fun g r => ?_)
      function
    · rw [tokens, tokensNode]
      simp only [List.append_assoc, List.cons_append, List.nil_append]
    · rw [postfixes, List.cons_append, List.head?_cons, if_pos rfl]
      simp only [StateT.run, ReaderT.run, List.tail_cons, List.append_assoc, List.cons_append,
        List.nil_append, elements, Option.bind_eq_bind, Option.bind_some, List.map_map, Function.comp_def,
        List.map_id_fun', id_eq]
  | typeApplication f us =>
    have function := parts f (by simp [children])
    have elements := TypeExpr.listing.read_entries "]" (by decide) (by decide)
      (TypeExpr.reads_each fun t member => types t (List.mem_cons_of_mem _ (List.mem_map_of_mem member)))
    refine readBack_of_postfix (typeApplication · (TypeExpr.relocateAll nowhere us))
      ("[" :: (separated "," (TypeExpr.tokensEach us) ++ ["]"])) (fun _ => ?_) rfl (fun _ => rfl)
      (fun g r => ?_) function
    · rw [tokens, tokensNode]
      simp only [List.append_assoc, List.cons_append, List.nil_append]
    · rw [postfixes, List.cons_append, if_neg (by simp), List.head?_cons, if_pos rfl]
      simp only [StateT.run, ReaderT.run, List.tail_cons, List.append_assoc, List.cons_append,
        List.nil_append, elements, Option.bind_eq_bind, Option.bind_some, List.map_map, Function.comp_def,
        List.map_id_fun', id_eq]
  | field f l =>
    have record := parts f (by simp [children])
    refine readBack_of_postfix (field · l) [".", l] (fun _ => List.append_assoc _ _ _) rfl
      (fun _ => rfl) (fun g r => ?_) record
    refine (postfixes_dot g l r).trans ?_
    rw [projection, decimal?_name legible]
  | component f i =>
    have tuple := parts f (by simp [children])
    refine readBack_of_postfix (component · i) [".", toString i] (fun _ => List.append_assoc _ _ _) rfl
      (fun _ => rfl) (fun g r => ?_) tuple
    refine (postfixes_dot g (toString i) r).trans ?_
    rw [projection, decimal?_toString]
  | tuple es =>
    have elements := listing.read_entries "\x7d" (by decide) (by decide)
      (reads_each fun e member => parts e (List.mem_map_of_mem member))
    refine readBack_of_opened (fun _ => rfl) rfl fun r => ?_
    rw [tokens, tokensNode]
    simp only [List.append_assoc, List.cons_append, List.nil_append]
    refine operand_eq rfl ?_
    simp only [opened, StateT.run, ReaderT.run, elements, Option.bind_eq_bind, Option.bind_some,
      braced_bare]
    rfl
  | record fs =>
    rw [isLegible, Bool.and_eq_true, List.all_eq_true] at legible
    have fields := listing.read_entries "\x7d" (by decide) (by decide)
      (reads_fields legible.2 fun field member =>
        parts field.2 (List.mem_map_of_mem (f := fun field => Node.expr field.2) member))
    have filled : asReadFields fs ≠ [] := by
      cases fs with
      | nil => simp at legible
      | cons field fs => exact List.cons_ne_nil _ _
    refine readBack_of_opened (fun _ => rfl) rfl fun r => ?_
    rw [tokens, tokensNode]
    simp only [List.append_assoc, List.cons_append, List.nil_append]
    refine operand_eq rfl ?_
    simp only [opened, StateT.run, ReaderT.run, fields, Option.bind_eq_bind, Option.bind_some,
      braced_labelled (fun l => show label ⟨var l, none⟩ = l from rfl) filled]
    rfl
  | cons h t =>
    have head := parts h (by simp [children])
    have tail := parts t (by simp [children])
    refine readBack_of_opened (fun _ => rfl) rfl fun r => ?_
    rw [tokens, tokensNode]
    simp only [List.append_assoc, List.cons_append, List.nil_append]
    refine operand_eq rfl ?_
    simp only [opened, StateT.run, ReaderT.run, List.tail_cons, head.whole (r := "," :: _) rfl,
      tail.whole (r := ")" :: _) rfl, Option.bind_eq_bind, Option.bind_some]
    rfl
  | panic =>
    refine readBack_of_opened (fun _ => rfl) rfl fun r => operand_eq rfl ?_
    rw [opened]
    rfl
  | tryCatch f p h =>
    have body := parts f (by simp [children])
    have pattern := patterns p (by simp [children])
    have handler := parts h (by simp [children])
    refine readBack_of_opened (fun _ => rfl) rfl fun r => ?_
    rw [tokens, tokensNode]
    simp only [List.append_assoc, List.cons_append, List.nil_append]
    refine operand_eq rfl ?_
    simp only [opened, StateT.run, ReaderT.run, List.tail_cons, body.whole (r := "\x7d" :: _) rfl,
      List.head?_cons, if_true, List.drop_succ_cons, List.drop_zero,
      pattern.whole (r := "=>" :: _) (by simp [Pattern.Done]), handler.whole (r := "\x7d" :: _) rfl,
      Option.bind_eq_bind, Option.bind_some]
    rfl
  | tryWith a b =>
    have body := parts a (by simp [children])
    have fallback := parts b (by simp [children])
    refine readBack_of_opened (fun _ => rfl) rfl fun r => ?_
    rw [tokens, tokensNode]
    simp only [List.append_assoc, List.cons_append, List.nil_append]
    refine operand_eq rfl ?_
    rw [opened, List.tail_cons, StateT.run, ReaderT.run, body.whole (r := "\x7d" :: _) rfl,
      Option.bind_eq_bind, Option.bind_some]
    refine (if_neg (by simp)).trans ((if_pos rfl).trans ?_)
    simp only [StateT.run, List.drop_succ_cons, List.drop_zero, fallback.whole (r := "\x7d" :: _) rfl,
      Option.bind_some]
    rfl
  | tryCast f t p a b =>
    have body := parts f (by simp [children])
    have type := types t (by simp [children])
    have pattern := patterns p (by simp [children])
    have success := parts a (by simp [children])
    have failure := parts b (by simp [children])
    refine readBack_of_opened (fun _ => rfl) rfl fun r => ?_
    rw [tokens, tokensNode]
    simp only [List.append_assoc, List.cons_append, List.nil_append]
    refine operand_eq rfl ?_
    rw [opened, List.tail_cons, StateT.run, ReaderT.run, body.whole (r := "\x7d" :: _) rfl,
      Option.bind_eq_bind, Option.bind_some]
    refine (if_neg (by simp)).trans ((if_neg (by simp)).trans ?_)
    simp only [StateT.run, List.drop_succ_cons, List.drop_zero, List.tail_cons,
      type.2 TypeExpr.loosest ("\x7b" :: _) (by simp),
      pattern.whole (r := "=>" :: _) (by simp [Pattern.Done]), success.whole (r := "\x7d" :: _) rfl,
      failure.whole (r := "\x7d" :: _) rfl, Option.bind_eq_bind, Option.bind_some]
    rfl
  | natRec a b c =>
    have count := parts a (by simp [children])
    have initial := parts b (by simp [children])
    have step := parts c (by simp [children])
    refine readBack_of_opened (fun _ => rfl) rfl fun r => ?_
    rw [tokens, tokensNode]
    simp only [List.append_assoc, List.cons_append, List.nil_append]
    refine operand_eq rfl ?_
    simp only [opened, StateT.run, ReaderT.run, List.tail_cons, count.whole (r := "," :: _) rfl,
      initial.whole (r := "," :: _) rfl, step.whole (r := ")" :: _) rfl, Option.bind_eq_bind,
      Option.bind_some]
    rfl
  | fold t f | unfold t f =>
    have type := types t (by simp [children])
    have inner := parts f (by simp [children])
    refine readBack_of_prefix productLevel (by decide) (fun _ => rfl) rfl fun r low => ?_
    simp only [List.append_assoc, List.cons_append, List.nil_append]
    refine operand_eq rfl ?_
    simp only [opened, StateT.run, List.tail_cons, type.2 TypeExpr.loosest ("]" :: _) (by simp),
      inner.operand, resume_done (Nat.le_succ_of_le low), Option.bind_eq_bind, Option.bind_some]
    rfl
  | literal l =>
    refine readBack_of_opened (fun _ => rfl) rfl fun r => operand_eq (opening_literal l) ?_
    rw [opened]
    rfl
  | var x =>
    refine readBack_of_opened (fun _ => rfl) rfl fun r => operand_eq (opening_name legible) ?_
    rw [opened]
    rfl

end StellaLang.Syntax.Expr
