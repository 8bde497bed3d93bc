import StellaLang.Proofs.Syntax.TypeReader

/-! Readers of expressions, and the trees that they find. The readers take the words between the parts
on trust. -/
namespace StellaLang.Syntax.Expr

section Grammar

/-- What a first word tells of an expression. -/
inductive Opening where
  | paren
  | leaf (expr : Expr)
  | deref
  | call (op : UnaryOp)
  | cond
  | block (make : List (Located Pattern × Located Expr) → Located Expr → Expr)
  | generic
  | function
  | variant
  | matching
  | list
  | brace
  | cons
  | attempt
  | natRec
  | folding (make : Located TypeExpr → Located Expr → Expr)

def calls : List UnaryOp :=
  [.ref, .head, .isEmpty, .tail, .throw, .inl, .inr, .succ, .not, .pred, .isZero, .fix]

def openings : List (String × Opening) :=
  [("(", .paren), ("panic!", .leaf panic), ("true", .leaf (literal (.bool true))),
    ("false", .leaf (literal (.bool false))), ("unit", .leaf (literal .unit)), ("*", .deref), ("if", .cond),
    ("let", .block letIn), ("letrec", .block letRec), ("generic", .generic), ("fn", .function),
    ("<|", .variant), ("match", .matching), ("[", .list), ("\x7b", .brace), ("cons", .cons),
    ("try", .attempt), ("Nat::rec", .natRec), ("fold", .folding fold), ("unfold", .folding unfold)] ++
  calls.map fun op => (op.text, .call op)

/-- A number in base sixteen. -/
def sixteen (cs : List Char) : Nat :=
  cs.foldl (fun n c => 16 * n + "0123456789ABCDEF".toList.idxOf c) 0

/-- The address that a word shows. -/
def address? (w : String) : Option Nat :=
  if w.toList.take 3 = ['<', '0', 'x'] then some (sixteen (w.toList.drop 3).dropLast) else none

def opening (w : String) : Option Opening :=
  match decimal? w, address? w with
  | some n, _ => some (.leaf (literal (.nat n)))
  | none, some n => some (.leaf (literal (.address n)))
  | none, none => if isName w then some (.leaf (var w)) else openings.lookup w

/-- What a word behind an expression makes of it. -/
inductive Joint where
  /-- An operator of a level, and the place of its right operand. -/
  | operator (level place : Nat) (make : Located Expr → Located Expr → Expr)
  /-- A type behind a number of words more. -/
  | ascription (skipped : Nat) (make : Located Expr → Located TypeExpr → Expr)

def operators : List BinaryOp :=
  [.add, .subtract, .multiply, .divide, .or, .and, .less, .lessOrEqual, .greater, .greaterOrEqual, .equal,
    .notEqual]

def joints : List (String × Joint) :=
  [(";", .operator loosest loosest sequence), (":=", .operator loosest comparisonLevel assign),
    ("as", .ascription 0 ascribe), ("cast", .ascription 1 cast)] ++
  operators.map fun op => (op.text, .operator op.precedence (op.precedence + 1) (binary op))

def joint (w : String) : Option Joint :=
  joints.lookup w

def Joint.level : Joint → Nat
  | operator level _ _ => level
  | ascription _ _ => comparisonLevel

/-- The loosest place at which an expression may stand in front of a word. -/
def tightness (w : String) : Nat :=
  match joint w with
  | some j => max j.level comparisonLevel
  | none => if ["(", "[", "."].contains w then postfixLevel + 1 else loosest

def demand : List String → Nat
  | [] => loosest
  | w :: _ => tightness w

end Grammar

/-- An expression in a list, with the expression that it is the label of. -/
abbrev Entry :=
  Located Expr × Option (Located Expr)

def label : Located Expr → String
  | ⟨var x, _⟩ => x
  | _ => ""

/-- A component by its number, or a field by its name. -/
def projection (e : Located Expr) (w : String) : Expr :=
  match decimal? w with
  | some n => component e n
  | none => field e w

mutual

/-- An expression at a place that asks for a level of binding. -/
def read : ReaderT Nat Reader (Located Expr) := fun place ts => do
  let (e, ts) ← operand.run ts
  (climb.run (place, e)).run ts
partial_fixpoint

/-- An expression that goes on behind its first part, as long as that binds no less tightly than the
place asks. -/
def climb : ReaderT (Nat × Located Expr) Reader (Located Expr)
  | (_, e), [] => some (e, [])
  | (place, e), w :: ts =>
    match joint w with
    | none => some (e, w :: ts)
    | some j =>
      if j.level < place then some (e, w :: ts)
      else do
        let (e, ts) ← (joined.run (j, e)).run ts
        (climb.run (place, e)).run ts
partial_fixpoint

def joined : ReaderT (Joint × Located Expr) Reader (Located Expr) := fun (j, e) ts =>
  match j with
  | .operator _ place make => do
    let (f, ts) ← (read.run place).run ts
    some (⟨make e f, none⟩, ts)
  | .ascription skipped make => do
    let (t, ts) ← TypeExpr.read (ts.drop skipped)
    some (⟨make e t, none⟩, ts)
partial_fixpoint

/-- An expression without operators, up to the applications and projections behind it. -/
def operand : Reader (Located Expr)
  | [] => none
  | w :: ts => do
    let (e, ts) ← (opened.run (← opening w)).run ts
    (postfixes.run e).run ts
partial_fixpoint

/-- Applications and projections of an expression. -/
def postfixes : ReaderT (Located Expr) Reader (Located Expr) := fun e ts =>
  if ts.head? = some "(" then do
    let (es, ts) ← (entries.run ")").run ts.tail
    (postfixes.run ⟨application e (es.map (·.1)), none⟩).run ts
  else if ts.head? = some "[" then do
    let (us, ts) ← TypeExpr.entries "]" ts.tail
    (postfixes.run ⟨typeApplication e (us.map (·.1)), none⟩).run ts
  else if ts.head? = some "." then
    (postfixes.run ⟨projection e (ts.tail.headD ""), none⟩).run (ts.drop 2)
  else some (e, ts)
partial_fixpoint

/-- An expression behind its first word. -/
def opened : ReaderT Opening Reader (Located Expr) := fun first ts =>
  match first with
  | .paren => do
    let (e, ts) ← (read.run loosest).run ts
    some (e, ts.tail)
  | .leaf e => some (⟨e, none⟩, ts)
  | .deref => do
    let (e, ts) ← operand.run ts
    some (⟨unary .deref e, none⟩, ts)
  | .call op => do
    let (e, ts) ← (read.run loosest).run ts.tail
    some (⟨unary op e, none⟩, ts.tail)
  | .cond => do
    let (a, ts) ← (read.run loosest).run ts
    let (b, ts) ← (read.run loosest).run ts.tail
    let (c, ts) ← (read.run loosest).run ts.tail
    some (⟨cond a b c, none⟩, ts)
  | .block make => do
    let (bs, ts) ← (bindings.run (",", "in")).run ts
    let (e, ts) ← (read.run loosest).run ts
    some (⟨make bs e, none⟩, ts)
  | .generic => do
    let (xs, ts) ← names "]" ts.tail
    let (e, ts) ← (read.run loosest).run ts
    some (⟨typeAbstraction xs e, none⟩, ts)
  | .function => do
    let (ps, ts) ← TypeExpr.entries ")" ts.tail
    let (e, ts) ← (read.run loosest).run (ts.drop 2)
    some (⟨abstraction (ps.filterMap fun (l, t) => t.map (TypeExpr.label l, ·)) e, none⟩, ts.tail)
  | .variant => do
    let (e, ts) ← entry.run ts
    some (⟨variant (label e.1) e.2, none⟩, ts.tail)
  | .matching => do
    let (e, ts) ← (read.run loosest).run ts
    let (cs, ts) ← (bindings.run ("|", "\x7d")).run ts.tail
    some (⟨matching e cs, none⟩, ts)
  | .list => do
    let (es, ts) ← (entries.run "]").run ts
    some (⟨list (es.map (·.1)), none⟩, ts)
  | .brace => do
    let (es, ts) ← (entries.run "\x7d").run ts
    some (⟨braced label tuple record es, none⟩, ts)
  | .cons => do
    let (h, ts) ← (read.run loosest).run ts.tail
    let (t, ts) ← (read.run loosest).run ts.tail
    some (⟨cons h t, none⟩, ts.tail)
  | .attempt => do
    let (e, ts) ← (read.run loosest).run ts.tail
    if ts.tail.head? = some "catch" then
      let (p, ts) ← Pattern.read (ts.drop 3)
      let (h, ts) ← (read.run loosest).run ts.tail
      some (⟨tryCatch e p h, none⟩, ts.tail)
    else if ts.tail.head? = some "with" then
      let (f, ts) ← (read.run loosest).run (ts.drop 3)
      some (⟨tryWith e f, none⟩, ts.tail)
    else
      let (t, ts) ← TypeExpr.read (ts.drop 3)
      let (p, ts) ← Pattern.read ts.tail
      let (a, ts) ← (read.run loosest).run ts.tail
      let (b, ts) ← (read.run loosest).run (ts.drop 3)
      some (⟨tryCast e t p a b, none⟩, ts.tail)
  | .natRec => do
    let (a, ts) ← (read.run loosest).run ts.tail
    let (b, ts) ← (read.run loosest).run ts.tail
    let (c, ts) ← (read.run loosest).run ts.tail
    some (⟨natRec a b c, none⟩, ts.tail)
  | .folding make => do
    let (t, ts) ← TypeExpr.read ts.tail
    let (e, ts) ← operand.run ts.tail
    some (⟨make t e, none⟩, ts)
partial_fixpoint

def entry : Reader Entry := fun ts => do
  let (e, ts) ← (read.run loosest).run ts
  if ts.head? = some "=" then
    let (f, ts) ← (read.run loosest).run ts.tail
    some ((e, some f), ts)
  else some ((e, none), ts)
partial_fixpoint

def entries : ReaderT String Reader (List Entry)
  | _, [] => none
  | close, w :: ts =>
    if w = close then some ([], ts)
    else do
      let (e, ts) ← entry.run (if w = "," then ts else w :: ts)
      let (es, ts) ← (entries.run close).run ts
      some (e :: es, ts)
partial_fixpoint

/-- A pattern and an expression. -/
def binding : Reader (Located Pattern × Located Expr) := fun ts => do
  let (p, ts) ← Pattern.read ts
  let (e, ts) ← (read.run loosest).run ts.tail
  some ((p, e), ts)
partial_fixpoint

def bindings : ReaderT (String × String) Reader (List (Located Pattern × Located Expr))
  | _, [] => none
  | (sep, close), w :: ts =>
    if w = close then some ([], ts)
    else do
      let (b, ts) ← binding.run (if w = sep then ts else w :: ts)
      let (bs, ts) ← (bindings.run (sep, close)).run ts
      some (b :: bs, ts)
partial_fixpoint

end

section Dereferences

def isDeref : Expr → Bool
  | unary .deref _ => true
  | _ => false

/-- A form over what stands behind all dereferences at the front of an expression. -/
def beneath (make : Located Expr → Expr) : Located Expr → Located Expr
  | ⟨unary .deref e, position⟩ => ⟨unary .deref (beneath make e), position⟩
  | e => ⟨make e, none⟩

/-- Goes on behind an expression: applications and projections belong to what stands behind its
dereferences. -/
def resume : Located Expr → List String → Option (Located Expr × List String)
  | ⟨unary .deref e, position⟩, ts => do
    let (e, ts) ← resume e ts
    postfixes ⟨unary .deref e, position⟩ ts
  | e, ts => postfixes e ts

variable {e : Located Expr} {make : Located Expr → Expr} {ts r : List String}

theorem beneath_plain (plain : e.node.isDeref = false) : beneath make e = ⟨make e, none⟩ := by
  rw [beneath]
  rintro f position rfl
  contradiction

theorem isDeref_eq_false (other : ∀ f position, e = ⟨unary .deref f, position⟩ → False) :
    e.node.isDeref = false := by
  obtain ⟨e, position⟩ := e
  cases e with
  | unary op f =>
    cases op with
    | deref => exact absurd rfl (other f position)
    | _ => rfl
  | _ => rfl

theorem resume_plain (plain : e.node.isDeref = false) : resume e ts = postfixes e ts := by
  rw [resume]
  rintro f position rfl
  contradiction

/-- A form that is read behind an expression is read beneath its dereferences. -/
theorem resume_beneath (plain : ∀ f, (make f).isDeref = false)
    (reads : ∀ f, postfixes f ts = postfixes ⟨make f, none⟩ r) (e : Located Expr) :
    resume e ts = resume (beneath make e) r := by
  induction e using beneath.induct with
  | case1 e position ih => rw [resume, beneath, resume, ih]
  | case2 e other =>
    have bare := isDeref_eq_false other
    rw [resume_plain bare, beneath_plain bare, resume_plain (plain e), reads]

end Dereferences

mutual

/-- The tree that the tokens of an expression are read as. It has no places, and an application or
projection of what is dereferenced is dereferenced as a whole. -/
def asRead : Located Expr → Located Expr
  | ⟨e, _⟩ => asReadNode e

def asReadNode : Expr → Located Expr
  | sequence a b => ⟨sequence (asRead a) (asRead b), none⟩
  | assign a b => ⟨assign (asRead a) (asRead b), none⟩
  | cond a b c => ⟨cond (asRead a) (asRead b) (asRead c), none⟩
  | letIn bs e => ⟨letIn (asReadBindings bs) (asRead e), none⟩
  | letRec bs e => ⟨letRec (asReadBindings bs) (asRead e), none⟩
  | typeAbstraction xs e => ⟨typeAbstraction xs (asRead e), none⟩
  | binary op a b => ⟨binary op (asRead a) (asRead b), none⟩
  | ascribe e t => ⟨ascribe (asRead e) (TypeExpr.relocate nowhere t), none⟩
  | cast e t => ⟨cast (asRead e) (TypeExpr.relocate nowhere t), none⟩
  | abstraction ps e => ⟨abstraction (TypeExpr.relocateFields nowhere ps) (asRead e), none⟩
  | variant l none => ⟨variant l none, none⟩
  | variant l (some e) => ⟨variant l (some (asRead e)), none⟩
  | matching e cs => ⟨matching (asRead e) (asReadBindings cs), none⟩
  | list es => ⟨list (asReadAll es), none⟩
  | unary op e => ⟨unary op (asRead e), none⟩
  | application e es => beneath (application · (asReadAll es)) (asRead e)
  | typeApplication e ts => beneath (typeApplication · (TypeExpr.relocateAll nowhere ts)) (asRead e)
  | field e l => beneath (field · l) (asRead e)
  | component e i => beneath (component · i) (asRead e)
  | tuple es => ⟨tuple (asReadAll es), none⟩
  | record fs => ⟨record (asReadFields fs), none⟩
  | cons h t => ⟨cons (asRead h) (asRead t), none⟩
  | panic => ⟨panic, none⟩
  | tryCatch e p h => ⟨tryCatch (asRead e) (Pattern.relocate nowhere p) (asRead h), none⟩
  | tryWith a b => ⟨tryWith (asRead a) (asRead b), none⟩
  | tryCast e t p a b =>
    ⟨tryCast (asRead e) (TypeExpr.relocate nowhere t) (Pattern.relocate nowhere p) (asRead a) (asRead b),
      none⟩
  | natRec a b c => ⟨natRec (asRead a) (asRead b) (asRead c), none⟩
  | fold t e => ⟨fold (TypeExpr.relocate nowhere t) (asRead e), none⟩
  | unfold t e => ⟨unfold (TypeExpr.relocate nowhere t) (asRead e), none⟩
  | literal l => ⟨literal l, none⟩
  | var x => ⟨var x, none⟩

def asReadAll : List (Located Expr) → List (Located Expr)
  | [] => []
  | e :: es => asRead e :: asReadAll es

def asReadFields : List (String × Located Expr) → List (String × Located Expr)
  | [] => []
  | (l, e) :: fs => (l, asRead e) :: asReadFields fs

def asReadBindings : List (Located Pattern × Located Expr) → List (Located Pattern × Located Expr)
  | [] => []
  | (p, e) :: bs => (Pattern.relocate nowhere p, asRead e) :: asReadBindings bs

end

variable {e : Located Expr} {w : String} {place : Nat} {ts r : List String}

section Demand

theorem climb_done (low : demand r < place) : climb (place, e) r = some (e, r) := by
  cases r with
  | nil => rw [climb]
  | cons w r =>
    rw [climb]
    rw [demand, tightness] at low
    split
    · rfl
    · next j known =>
      rw [known] at low
      exact if_pos (Nat.lt_of_le_of_lt (Nat.le_max_left _ _) low)

theorem climb_closed (closed : demand r = loosest) : climb (place, e) r = some (e, r) := by
  cases r with
  | nil => rw [climb]
  | cons w r =>
    rw [climb]
    rw [demand, tightness] at closed
    split
    · rfl
    · next j known =>
      rw [known] at closed
      simp [loosest, comparisonLevel] at closed

theorem postfixes_done (low : demand r ≤ postfixLevel) : postfixes e r = some (e, r) := by
  cases r with
  | nil => rw [postfixes]; rfl
  | cons w r =>
    have other (v : String) (starts : demand (v :: r) = postfixLevel + 1) : (w :: r).head? ≠ some v := by
      intro same
      rw [List.head?_cons, Option.some_inj] at same
      rw [same, starts] at low
      omega
    rw [postfixes, if_neg (other "(" rfl), if_neg (other "[" rfl), if_neg (other "." rfl)]

theorem resume_done (low : demand r ≤ postfixLevel) (e : Located Expr) : resume e r = some (e, r) := by
  induction e using beneath.induct with
  | case1 e position ih =>
    rw [resume, ih, Option.bind_eq_bind, Option.bind_some]
    exact postfixes_done low
  | case2 e other => rw [resume_plain (isDeref_eq_false other), postfixes_done low]

theorem not_plus (low : demand r ≤ comparisonLevel) : r.head? ≠ some "+" := by
  intro plus
  cases r with
  | nil => contradiction
  | cons w r =>
    rw [List.head?_cons, Option.some_inj] at plus
    rw [plus] at low
    exact absurd low (by decide : ¬ additionLevel ≤ comparisonLevel)

end Demand

end StellaLang.Syntax.Expr
