import StellaLang.Proofs.Syntax.EqualParts
import StellaLang.Proofs.Syntax.Readers

/-! Types and patterns read back from their tokens, without their places. The readers take the words
between the parts on trust: they are meant for what has been printed. -/
namespace StellaLang.Syntax

open Text (separated)

namespace TypeExpr

/-- What a first word tells of a type. -/
inductive Opening where
  | paren
  | leaf (type : TypeExpr)
  | arrow
  | forAll
  | recursive
  | brace
  | variant
  | list
  | ref

def openings : List (String × Opening) :=
  [("(", .paren), ("auto", .leaf auto), ("Bool", .leaf bool), ("Nat", .leaf nat), ("Unit", .leaf unit),
    ("Top", .leaf top), ("Bot", .leaf bottom), ("fn", .arrow), ("forall", .forAll), ("µ", .recursive),
    ("\x7b", .brace), ("<|", .variant), ("[", .list), ("&", .ref)]

def opening (w : String) : Option Opening :=
  if isName w then some (.leaf (var w)) else openings.lookup w

/-- A type in a list, with the type that it is the label of. -/
abbrev Entry :=
  Located TypeExpr × Option (Located TypeExpr)

def label : Located TypeExpr → String
  | ⟨var x, _⟩ => x
  | _ => ""

mutual

def read : Reader (Located TypeExpr) := fun ts => do
  let (l, ts) ← atom.run ts
  if ts.head? = some "+" then
    let (r, ts) ← read.run ts.tail
    some (⟨sum l r, none⟩, ts)
  else some (l, ts)
partial_fixpoint

/-- A type that is no sum. -/
def atom : Reader (Located TypeExpr)
  | [] => none
  | w :: ts => do (opened.run (← opening w)).run ts
partial_fixpoint

/-- A type behind its first word. -/
def opened : ReaderT Opening Reader (Located TypeExpr) := fun first ts =>
  match first with
  | .paren => do
    let (t, ts) ← read.run ts
    some (t, ts.tail)
  | .leaf t => some (⟨t, none⟩, ts)
  | .arrow => do
    let (ps, ts) ← (entries.run ")").run ts.tail
    let (r, ts) ← read.run ts.tail
    some (⟨arrow (ps.map (·.1)) r, none⟩, ts)
  | .forAll => do
    let (xs, ts) ← names "." ts
    let (b, ts) ← read.run ts
    some (⟨forAll xs b, none⟩, ts)
  | .recursive => do
    let (b, rest) ← read.run (ts.drop 2)
    some (⟨recursive (ts.headD "") b, none⟩, rest)
  | .brace => do
    let (es, ts) ← (entries.run "\x7d").run ts
    some (⟨braced label tuple record es, none⟩, ts)
  | .variant => do
    let (es, ts) ← (entries.run "|>").run ts
    some (⟨variant (es.map fun (t, u) => (label t, u)), none⟩, ts)
  | .list => do
    let (t, ts) ← read.run ts
    some (⟨list t, none⟩, ts.tail)
  | .ref => do
    let (t, ts) ← atom.run ts
    some (⟨ref t, none⟩, ts)
partial_fixpoint

def entry : Reader Entry := fun ts => do
  let (t, ts) ← read.run ts
  if ts.head? = some ":" then
    let (u, ts) ← read.run ts.tail
    some ((t, some u), ts)
  else some ((t, none), ts)
partial_fixpoint

def entries : ReaderT String Reader (List Entry)
  | _, [] => none
  | close, w :: ts =>
    if w = close then some ([], ts)
    else do
      let (e, ts) ← entry.run (if w = "," then ts else w :: ts)
      let (es, ts) ← (entries.run close).run ts
      some (e :: es, ts)
partial_fixpoint

end

variable {t : Located TypeExpr} {ts r : List String}

theorem listing : Listing ":" read entry entries where
  entry_eq := by
    funext ts
    rw [entry]
    rfl
  entries_step close ts := by
    cases ts with
    | _ =>
      rw [entries]
      rfl
  refuses w stop ts := by
    have unopened : ∀ w ∈ itemStops, opening w = none := by decide
    rw [read, StateT.run, atom, unopened w stop]
    rfl
  apart := by decide

/-- That a type is read back, as an atom and at every place. -/
def ReadBack (t : Located TypeExpr) : Prop :=
  (∀ r, atom (tokens atomLevel t ++ r) = some (relocate nowhere t, r)) ∧
    ∀ place r, r.head? ≠ some "+" → read (tokens place t ++ r) = some (relocate nowhere t, r)

section Places

theorem atom_eq {w : String} {first : Opening} (known : opening w = some first) :
    atom (w :: ts) = opened first ts := by
  rw [atom, known, Option.bind_eq_bind, Option.bind_some]
  rfl

theorem read_of_atom (whole : atom ts = some (t, r)) (last : r.head? ≠ some "+") :
    read ts = some (t, r) := by
  rw [read, StateT.run, whole, Option.bind_eq_bind, Option.bind_some]
  exact if_neg last

/-- A type that stands in no parentheses anywhere. -/
theorem readBack_of_atom (bare : ∀ place, tokens place t = tokens atomLevel t)
    (whole : ∀ r, atom (tokens atomLevel t ++ r) = some (relocate nowhere t, r)) : ReadBack t := by
  refine ⟨whole, fun place r last => ?_⟩
  rw [bare]
  exact read_of_atom (whole r) last

/-- A type that stands in parentheses at some places. -/
theorem readBack_of_enclosed {own : Nat} {ws : List String} (low : own < atomLevel)
    (enclosed : ∀ place, tokens place t = enclose own place ws)
    (whole : ∀ r, r.head? ≠ some "+" → read (ws ++ r) = some (relocate nowhere t, r)) :
    ReadBack t := by
  have parens (r : List String) : atom (["("] ++ ws ++ [")"] ++ r) = some (relocate nowhere t, r) := by
    rw [List.append_assoc, List.append_assoc, List.singleton_append, List.singleton_append]
    refine (atom_eq rfl).trans ?_
    rw [opened, StateT.run, whole (")" :: r) (by simp)]
    rfl
  refine ⟨fun r => ?_, fun place r last => ?_⟩
  · rw [enclosed, enclose, if_pos low, parens]
  · rw [enclosed, enclose]
    split
    · exact read_of_atom (parens r) last
    · exact whole r last

end Places

section Parts

theorem opening_name {x : String} (name : isName x = true) : opening x = some (.leaf (var x)) :=
  if_pos name

theorem read_name {x : String} (name : isName x = true) (last : r.head? ≠ some "+") :
    read (x :: r) = some (⟨var x, none⟩, r) := by
  refine read_of_atom ?_ last
  rw [atom_eq (opening_name name), opened]

/-- No sum goes on at the end of an item. -/
theorem not_plus (stopped : Stopped itemStops r) : r.head? ≠ some "+" := by
  obtain ⟨w, stop, head⟩ := stopped
  rw [head]
  exact (by decide : ∀ w ∈ itemStops, some w ≠ some "+") w stop

theorem ReadBack.item (back : ReadBack t) :
    ReadsItem itemStops read (tokens loosest t) (relocate nowhere t) :=
  fun r stopped => back.2 loosest r (not_plus stopped)

theorem reads_label {l : String} (name : isName l = true) :
    ReadsItem itemStops entry [l] (⟨var l, none⟩, none) :=
  listing.reads_bare fun _ stopped => read_name name (not_plus stopped)

theorem reads_field {l : String} (name : isName l = true) (back : ReadBack t) :
    ReadsItem itemStops entry ([l] ++ [":"] ++ tokens loosest t)
      (⟨var l, none⟩, some (relocate nowhere t)) :=
  listing.reads_labelled (fun r => read_name name (by simp)) back.item

theorem reads_each {ts : List (Located TypeExpr)} (back : ∀ t ∈ ts, ReadBack t) :
    List.Forall₂ (ReadsItem itemStops entry) (tokensEach ts)
      ((relocateAll nowhere ts).map (·, none)) := by
  induction ts with
  | nil => exact .nil
  | cons t ts ih =>
    rw [List.forall_mem_cons] at back
    exact .cons (listing.reads_bare back.1.item) (ih back.2)

theorem reads_fields {fs : List (String × Located TypeExpr)}
    (names : ∀ field ∈ fs, isName field.1 = true) (back : ∀ field ∈ fs, ReadBack field.2) :
    List.Forall₂ (ReadsItem itemStops entry) (fieldTokens fs)
      ((relocateFields nowhere fs).map fun field => (⟨var field.1, none⟩, some field.2)) := by
  induction fs with
  | nil => exact .nil
  | cons field fs ih =>
    rw [List.forall_mem_cons] at names back
    exact .cons (reads_field names.1 back.1) (ih names.2 back.2)

theorem reads_alternatives {fs : List (String × Option (Located TypeExpr))}
    (names : ∀ field ∈ fs, isName field.1 = true)
    (back : ∀ field ∈ fs, ∀ t ∈ field.2, ReadBack t) :
    List.Forall₂ (ReadsItem itemStops entry) (alternativeTokens fs)
      ((relocateAlternatives nowhere fs).map fun field => (⟨var field.1, none⟩, field.2)) := by
  induction fs with
  | nil => exact .nil
  | cons field fs ih =>
    rw [List.forall_mem_cons] at names back
    obtain ⟨l, payload⟩ := field
    cases payload with
    | none => exact .cons (reads_label names.1) (ih names.2 back.2)
    | some t => exact .cons (reads_field names.1 (back.1 t rfl)) (ih names.2 back.2)

end Parts

/-- A legible type is read back if its parts are. -/
theorem readBack (t : Located TypeExpr) (legible : t.node.isLegible = true)
    (parts : ∀ u, .type u ∈ t.node.children → ReadBack u) : ReadBack t := by
  obtain ⟨t, position⟩ := t
  cases t with
  | auto | bool | nat | unit | top | bottom =>
    refine readBack_of_atom (fun _ => rfl) fun r => (atom_eq rfl).trans ?_
    rw [opened]
    rfl
  | var x =>
    refine readBack_of_atom (fun _ => rfl) fun r => (atom_eq (opening_name legible)).trans ?_
    rw [opened]
    rfl
  | arrow ps r =>
    have params := listing.read_entries ")" (by decide) (by decide)
      (reads_each fun p member => parts p (List.mem_append_left _ (List.mem_map_of_mem member)))
    have result := parts r (List.mem_append_right _ List.mem_cons_self)
    refine readBack_of_enclosed (Nat.zero_lt_succ _) (fun _ => rfl) fun rest last => ?_
    simp only [List.append_assoc, List.cons_append, List.nil_append]
    refine read_of_atom ((atom_eq rfl).trans ?_) last
    simp only [opened, StateT.run, ReaderT.run, List.tail_cons, params, result.2 loosest rest last,
      Option.bind_eq_bind, Option.bind_some, List.map_map, Function.comp_def, List.map_id_fun']
    rfl
  | forAll xs b =>
    have bound := read_names (List.all_eq_true.mp legible) (by decide : "." ∈ [".", "]"])
    have body := parts b List.mem_cons_self
    refine readBack_of_enclosed (Nat.zero_lt_succ _) (fun _ => rfl) fun rest last => ?_
    simp only [List.append_assoc, List.cons_append, List.nil_append]
    refine read_of_atom ((atom_eq rfl).trans ?_) last
    simp only [opened, StateT.run, bound, body.2 loosest rest last, Option.bind_eq_bind, Option.bind_some]
    rfl
  | recursive x b =>
    have body := parts b List.mem_cons_self
    refine readBack_of_enclosed (Nat.zero_lt_succ _) (fun _ => rfl) fun rest last => ?_
    simp only [List.cons_append, List.nil_append]
    refine read_of_atom ((atom_eq rfl).trans ?_) last
    simp only [opened, StateT.run, List.drop_succ_cons, List.drop_zero, body.2 loosest rest last,
      Option.bind_eq_bind, Option.bind_some]
    rfl
  | sum l r =>
    have left := parts l List.mem_cons_self
    have right := parts r (List.mem_cons_of_mem _ List.mem_cons_self)
    refine readBack_of_enclosed (Nat.lt_succ_self _) (fun _ => rfl) fun rest last => ?_
    rw [List.append_assoc, List.append_assoc, read, StateT.run, left.1, Option.bind_eq_bind,
      Option.bind_some]
    refine (if_pos rfl).trans ?_
    rw [List.singleton_append, List.tail_cons, StateT.run, right.2 sumLevel rest last]
    rfl
  | tuple ts =>
    have elements := listing.read_entries "\x7d" (by decide) (by decide)
      (reads_each fun t member => parts t (List.mem_map_of_mem member))
    refine readBack_of_atom (fun _ => rfl) fun r => ?_
    rw [tokens, tokensNode]
    simp only [List.append_assoc, List.cons_append, List.nil_append]
    refine (atom_eq rfl).trans ?_
    simp only [opened, StateT.run, ReaderT.run, elements, Option.bind_eq_bind, Option.bind_some,
      braced_bare]
    rfl
  | record fs =>
    rw [isLegible, Bool.and_eq_true, List.all_eq_true] at legible
    have fields := listing.read_entries "\x7d" (by decide) (by decide)
      (reads_fields legible.2 fun field member =>
        parts field.2 (List.mem_map_of_mem (f := fun field => Node.type field.2) member))
    have filled : relocateFields nowhere fs ≠ [] := by
      cases fs with
      | nil => simp at legible
      | cons field fs => exact List.cons_ne_nil _ _
    refine readBack_of_atom (fun _ => rfl) fun r => ?_
    rw [tokens, tokensNode]
    simp only [List.append_assoc, List.cons_append, List.nil_append]
    refine (atom_eq rfl).trans ?_
    simp only [opened, StateT.run, ReaderT.run, fields, Option.bind_eq_bind, Option.bind_some,
      braced_labelled (fun l => show label ⟨var l, none⟩ = l from rfl) filled]
    rfl
  | variant fs =>
    have fields := listing.read_entries "|>" (by decide) (by decide)
      (reads_alternatives (List.all_eq_true.mp legible) fun field member t payload =>
        parts t (List.mem_filterMap.mpr
          ⟨field, member, by rw [Option.mem_def.mp payload, Option.map_some]⟩))
    refine readBack_of_atom (fun _ => rfl) fun r => ?_
    rw [tokens, tokensNode]
    simp only [List.append_assoc, List.cons_append, List.nil_append]
    refine (atom_eq rfl).trans ?_
    simp only [opened, StateT.run, ReaderT.run, fields, Option.bind_eq_bind, Option.bind_some,
      List.map_map, Function.comp_def, label, List.map_id_fun']
    rfl
  | list t =>
    have element := parts t List.mem_cons_self
    refine readBack_of_atom (fun _ => rfl) fun r => ?_
    rw [tokens, tokensNode]
    simp only [List.append_assoc, List.cons_append, List.nil_append]
    refine (atom_eq rfl).trans ?_
    simp only [opened, StateT.run, element.2 loosest ("]" :: r) (by simp), Option.bind_eq_bind,
      Option.bind_some]
    rfl
  | ref t =>
    have referent := parts t List.mem_cons_self
    refine readBack_of_atom (fun _ => rfl) fun r => ?_
    rw [tokens, tokensNode]
    simp only [List.cons_append, List.nil_append]
    refine (atom_eq rfl).trans ?_
    simp only [opened, StateT.run, referent.1, Option.bind_eq_bind, Option.bind_some]
    rfl

end TypeExpr

namespace Pattern

/-- What a first word tells of a pattern. -/
inductive Opening where
  | leaf (pattern : Pattern)
  | call (make : Located Pattern → Pattern)
  | variant
  | brace
  | list
  | cons

def openings : List (String × Opening) :=
  [("true", .leaf (bool true)), ("false", .leaf (bool false)), ("unit", .leaf unit), ("inl", .call inl),
    ("inr", .call inr), ("succ", .call succ), ("<|", .variant), ("\x7b", .brace), ("[", .list),
    ("cons", .cons)]

def opening (w : String) : Option Opening :=
  match decimal? w with
  | some n => some (.leaf (nat n))
  | none => if isName w then some (.leaf (var w)) else openings.lookup w

/-- A pattern in a list, with the pattern that it is the label of. -/
abbrev Entry :=
  Located Pattern × Option (Located Pattern)

def label : Located Pattern → String
  | ⟨var x, _⟩ => x
  | _ => ""

/-- The types behind a pattern. -/
def ascriptions : ReaderT (Located Pattern) Reader (Located Pattern) := fun p ts =>
  if ts.head? = some "as" then do
    let (t, ts) ← TypeExpr.read ts.tail
    (ascriptions.run ⟨ascribed p t, none⟩).run ts
  else if ts.head? = some "cast" then do
    let (t, ts) ← TypeExpr.read (ts.drop 2)
    (ascriptions.run ⟨castAs p t, none⟩).run ts
  else some (p, ts)
partial_fixpoint

mutual

def read : Reader (Located Pattern)
  | [] => none
  | w :: ts => do
    let (p, ts) ← (opened.run (← opening w)).run ts
    ascriptions p ts
partial_fixpoint

/-- A pattern behind its first word, up to the types behind it. -/
def opened : ReaderT Opening Reader (Located Pattern) := fun first ts =>
  match first with
  | .leaf p => some (⟨p, none⟩, ts)
  | .call make => do
    let (p, ts) ← read.run ts.tail
    some (⟨make p, none⟩, ts.tail)
  | .variant => do
    let (e, ts) ← entry.run ts
    some (⟨variant (label e.1) e.2, none⟩, ts.tail)
  | .brace => do
    let (es, ts) ← (entries.run "\x7d").run ts
    some (⟨braced label tuple record es, none⟩, ts)
  | .list => do
    let (es, ts) ← (entries.run "]").run ts
    some (⟨list (es.map (·.1)), none⟩, ts)
  | .cons => do
    let (h, ts) ← read.run ts.tail
    let (t, ts) ← read.run ts.tail
    some (⟨cons h t, none⟩, ts.tail)
partial_fixpoint

def entry : Reader Entry := fun ts => do
  let (p, ts) ← read.run ts
  if ts.head? = some "=" then
    let (q, ts) ← read.run ts.tail
    some ((p, some q), ts)
  else some ((p, none), ts)
partial_fixpoint

def entries : ReaderT String Reader (List Entry)
  | _, [] => none
  | close, w :: ts =>
    if w = close then some ([], ts)
    else do
      let (e, ts) ← entry.run (if w = "," then ts else w :: ts)
      let (es, ts) ← (entries.run close).run ts
      some (e :: es, ts)
partial_fixpoint

end

variable {p : Located Pattern} {ts r : List String}

theorem read_refuses (w : String) (stop : w ∈ itemStops) (ts : List String) : read (w :: ts) = none := by
  have unopened : ∀ w ∈ itemStops, opening w = none := by decide
  rw [read, unopened w stop]
  rfl

theorem listing : Listing "=" read entry entries where
  entry_eq := by
    funext ts
    rw [entry]
    rfl
  entries_step close ts := by
    cases ts with
    | _ =>
      rw [entries]
      rfl
  refuses := read_refuses
  apart := by decide

/-- That a pattern is read back, up to the types that stand behind it. -/
def ReadBack (p : Located Pattern) : Prop :=
  ∀ r, r.head? ≠ some "+" → read (tokens p ++ r) = ascriptions (relocate nowhere p) r

/-- That a pattern does not go on with these words. -/
def Done (r : List String) : Prop :=
  r.head? ∉ [some "+", some "as", some "cast"]

section Parts

theorem ascriptions_done (done : Done r) : ascriptions p r = some (p, r) := by
  simp only [Done, List.mem_cons, List.not_mem_nil, or_false, not_or] at done
  rw [ascriptions, if_neg done.2.1, if_neg done.2.2]

theorem ReadBack.whole (back : ReadBack p) (done : Done r) :
    read (tokens p ++ r) = some (relocate nowhere p, r) := by
  have last : r.head? ≠ some "+" := by
    intro plus
    exact done (by rw [plus]; exact List.mem_cons_self)
  rw [back r last, ascriptions_done done]

theorem read_eq {w : String} {first : Opening} (known : opening w = some first)
    (whole : opened first ts = some (p, r)) : read (w :: ts) = ascriptions p r := by
  rw [read, known, Option.bind_eq_bind, Option.bind_some, StateT.run, ReaderT.run, whole]
  rfl

theorem opening_name {x : String} (name : isName x = true) : opening x = some (.leaf (var x)) := by
  rw [opening, decimal?_name name]
  exact if_pos name

theorem opening_nat (n : Nat) : opening (toString n) = some (.leaf (nat n)) := by
  rw [opening, decimal?_toString]

theorem read_name {x : String} (name : isName x = true) (done : Done r) :
    read (x :: r) = some (⟨var x, none⟩, r) := by
  have whole : opened (.leaf (var x)) r = some (⟨var x, none⟩, r) := by rw [opened]
  rw [read_eq (opening_name name) whole, ascriptions_done done]

theorem done_of_stopped (stopped : Stopped itemStops r) : Done r := by
  obtain ⟨w, stop, head⟩ := stopped
  rw [Done, head]
  exact (by decide : ∀ w ∈ itemStops, some w ∉ [some "+", some "as", some "cast"]) w stop

theorem ReadBack.item (back : ReadBack p) : ReadsItem itemStops read (tokens p) (relocate nowhere p) :=
  fun _ stopped => back.whole (done_of_stopped stopped)

theorem reads_label {l : String} (name : isName l = true) :
    ReadsItem itemStops entry [l] (⟨var l, none⟩, none) :=
  listing.reads_bare fun _ stopped => read_name name (done_of_stopped stopped)

theorem reads_field {l : String} (name : isName l = true) (back : ReadBack p) :
    ReadsItem itemStops entry ([l] ++ ["="] ++ tokens p)
      (⟨var l, none⟩, some (relocate nowhere p)) :=
  listing.reads_labelled (fun r => read_name name (by simp [Done])) back.item

theorem reads_each {ps : List (Located Pattern)} (back : ∀ p ∈ ps, ReadBack p) :
    List.Forall₂ (ReadsItem itemStops entry) (tokensEach ps)
      ((relocateAll nowhere ps).map (·, none)) := by
  induction ps with
  | nil => exact .nil
  | cons p ps ih =>
    rw [List.forall_mem_cons] at back
    exact .cons (listing.reads_bare back.1.item) (ih back.2)

theorem reads_fields {fs : List (String × Located Pattern)}
    (names : ∀ field ∈ fs, isName field.1 = true) (back : ∀ field ∈ fs, ReadBack field.2) :
    List.Forall₂ (ReadsItem itemStops entry) (fieldTokens fs)
      ((relocateFields nowhere fs).map fun field => (⟨var field.1, none⟩, some field.2)) := by
  induction fs with
  | nil => exact .nil
  | cons field fs ih =>
    rw [List.forall_mem_cons] at names back
    exact .cons (reads_field names.1 back.1) (ih names.2 back.2)

end Parts

/-- A legible pattern is read back if its parts are. -/
theorem readBack (p : Located Pattern) (legible : p.node.isLegible = true)
    (types : ∀ t, .type t ∈ p.node.children → TypeExpr.ReadBack t)
    (parts : ∀ q, .pattern q ∈ p.node.children → ReadBack q) : ReadBack p := by
  obtain ⟨p, position⟩ := p
  intro r last
  rw [tokens]
  cases p with
  | castAs p t =>
    have inner := parts p List.mem_cons_self
    have type := types t (List.mem_cons_of_mem _ List.mem_cons_self)
    rw [tokensNode]
    simp only [List.append_assoc, List.cons_append, List.nil_append]
    rw [inner _ (by simp), ascriptions, if_neg (by simp), List.head?_cons, if_pos rfl]
    simp only [List.drop_succ_cons, List.drop_zero, type.2 TypeExpr.loosest r last, Option.bind_eq_bind,
      Option.bind_some]
    rfl
  | ascribed p t =>
    have inner := parts p List.mem_cons_self
    have type := types t (List.mem_cons_of_mem _ List.mem_cons_self)
    rw [tokensNode]
    simp only [List.append_assoc, List.cons_append, List.nil_append]
    rw [inner _ (by simp), ascriptions, List.head?_cons, if_pos rfl]
    simp only [List.tail_cons, type.2 TypeExpr.loosest r last, Option.bind_eq_bind, Option.bind_some]
    rfl
  | variant l payload =>
    cases payload with
    | none =>
      have label := reads_label legible ("|>" :: r) ⟨"|>", by decide, rfl⟩
      rw [tokensNode]
      simp only [List.cons_append, List.nil_append] at label ⊢
      refine read_eq rfl ?_
      simp only [opened, StateT.run, label, Option.bind_eq_bind, Option.bind_some]
      rfl
    | some p =>
      have field := reads_field legible (parts p List.mem_cons_self) ("|>" :: r) ⟨"|>", by decide, rfl⟩
      rw [tokensNode]
      simp only [List.append_assoc, List.cons_append, List.nil_append] at field ⊢
      refine read_eq rfl ?_
      simp only [opened, StateT.run, field, Option.bind_eq_bind, Option.bind_some]
      rfl
  | inl p | inr p | succ p =>
    have inner := parts p List.mem_cons_self
    rw [tokensNode]
    simp only [List.append_assoc, List.cons_append, List.nil_append]
    refine read_eq rfl ?_
    have whole := inner.whole (r := ")" :: r) (by simp [Done])
    simp only [opened, StateT.run, List.tail_cons, whole, Option.bind_eq_bind, Option.bind_some]
    rfl
  | tuple ps =>
    have elements := listing.read_entries "\x7d" (by decide) (by decide)
      (reads_each fun p member => parts p (List.mem_map_of_mem member))
    rw [tokensNode]
    simp only [List.append_assoc, List.cons_append, List.nil_append]
    refine read_eq rfl ?_
    simp only [opened, StateT.run, ReaderT.run, elements, Option.bind_eq_bind, Option.bind_some,
      braced_bare]
    rfl
  | record fs =>
    rw [isLegible, Bool.and_eq_true, List.all_eq_true] at legible
    have fields := listing.read_entries "\x7d" (by decide) (by decide)
      (reads_fields legible.2 fun field member =>
        parts field.2 (List.mem_map_of_mem (f := fun field => Node.pattern field.2) member))
    have filled : relocateFields nowhere fs ≠ [] := by
      cases fs with
      | nil => simp at legible
      | cons field fs => exact List.cons_ne_nil _ _
    rw [tokensNode]
    simp only [List.append_assoc, List.cons_append, List.nil_append]
    refine read_eq rfl ?_
    simp only [opened, StateT.run, ReaderT.run, fields, Option.bind_eq_bind, Option.bind_some,
      braced_labelled (fun l => show label ⟨var l, none⟩ = l from rfl) filled]
    rfl
  | list ps =>
    have elements := listing.read_entries "]" (by decide) (by decide)
      (reads_each fun p member => parts p (List.mem_map_of_mem member))
    rw [tokensNode]
    simp only [List.append_assoc, List.cons_append, List.nil_append]
    refine read_eq rfl ?_
    simp only [opened, StateT.run, ReaderT.run, elements, Option.bind_eq_bind, Option.bind_some,
      List.map_map, Function.comp_def, List.map_id_fun']
    rfl
  | cons h t =>
    have head := parts h List.mem_cons_self
    have tail :=
      (parts t (List.mem_cons_of_mem _ List.mem_cons_self)).whole (r := ")" :: r) (by simp [Done])
    rw [tokensNode]
    simp only [List.append_assoc, List.cons_append, List.nil_append]
    refine read_eq rfl ?_
    simp only [opened, StateT.run, List.tail_cons,
      head.whole (r := "," :: (tokens t ++ ")" :: r)) (by simp [Done]), tail, Option.bind_eq_bind,
      Option.bind_some]
    rfl
  | bool b =>
    rw [tokensNode]
    cases b with
    | _ =>
      refine read_eq rfl ?_
      rw [opened]
      rfl
  | unit =>
    refine read_eq rfl ?_
    rw [opened]
    rfl
  | nat n =>
    refine read_eq (opening_nat n) ?_
    rw [opened]
    rfl
  | var x =>
    refine read_eq (opening_name legible) ?_
    rw [opened]
    rfl

end Pattern

end StellaLang.Syntax
