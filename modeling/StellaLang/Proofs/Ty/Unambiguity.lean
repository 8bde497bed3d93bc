import StellaLang.Proofs.Syntax.Spelling
import StellaLang.Proofs.Syntax.Readers
import StellaLang.Proofs.Ty.Parts
import StellaLang.Typing.Fault

/-! Different types are shown differently. The text of a type has its tokens as its words, and from
these the type is read back; so no two types that a message shows look the same. -/
namespace StellaLang.Ty

open Text (Spells Ends separated)
open Syntax (Reader Stopped ReadsItem listed labelled braced)

section Legible

/-- The words of its own that the text of a type could have in the place of a name. -/
def reserved : List String :=
  ["Bool", "Nat", "Unit", "Top", "Bot", "fn", "forall"]

def isName (x : String) : Bool :=
  Text.isIdentifier x && !reserved.contains x

/-- Whether the names that a type has itself are names, and it has parts where it must. -/
def isLegible : Ty → Bool
  | var x => isName x
  | forAll xs _ => xs.all isName
  | recursive x _ => isName x
  | tuple ts => !ts.isEmpty
  | record fs => !fs.isEmpty && fs.all fun field => isName field.1
  | variant fs => fs.all fun field => isName field.1
  | _ => true

/-- That all names in a type are names, and no tuple or record in it is empty. -/
def Legible (t : Ty) : Prop :=
  ∀ u ∈ t.parts, u.isLegible = true

/-- The types that a type is made of directly, also in the scope of its binders. -/
def children : Ty → List Ty
  | forAll _ b => [b]
  | recursive _ b => [b]
  | t => t.components

variable {t c : Ty}

theorem size_lt_of_mem_children (child : c ∈ t.children) : c.size < t.size := by
  cases t with
  | forAll xs b | recursive x b =>
    obtain rfl := List.mem_singleton.mp child
    rw [size]
    omega
  | _ => exact size_lt_of_mem_components child

theorem parts_subset_of_mem_children (child : c ∈ t.children) : c.parts ⊆ t.parts := by
  cases t with
  | forAll xs b | recursive x b =>
    obtain rfl := List.mem_singleton.mp child
    exact List.subset_cons_self _ _
  | _ => exact parts_subset_of_mem_components child

/-- What a type has if all its children have it, every type has. -/
theorem induction {motive : Ty → Prop} (step : ∀ t : Ty, (∀ c ∈ t.children, motive c) → motive t)
    (t : Ty) : motive t :=
  step t fun c _ => induction step c
termination_by t.size
decreasing_by exact size_lt_of_mem_children ‹_›

theorem Legible.self (legible : t.Legible) : t.isLegible = true :=
  legible t (mem_parts_self t)

theorem Legible.child (legible : t.Legible) (child : c ∈ t.children) : c.Legible :=
  fun u part => legible u (parts_subset_of_mem_children child part)

end Legible

section Tokens

def encloseIf (nested : Bool) (ws : List String) : List String :=
  if nested then ["("] ++ ws ++ [")"] else ws

mutual

/-- The words of the text of a type. -/
def tokensAt (nested : Bool) : Ty → List String
  | bool => ["Bool"]
  | nat => ["Nat"]
  | unit => ["Unit"]
  | top => ["Top"]
  | bottom => ["Bot"]
  | var x => [x]
  | never => ["!"]
  | unknown => ["?"]
  | error => ["<error>"]
  | arrow ps r =>
    encloseIf nested
      (["fn", "("] ++ separated "," (tokensEach ps) ++ [")", "->"] ++ tokensAt false r)
  | forAll xs b =>
    encloseIf nested
      (["forall"] ++ separated "," (xs.map fun x => [x]) ++ ["."] ++ tokensAt false b)
  | recursive x b => encloseIf nested (["µ"] ++ [x] ++ ["."] ++ tokensAt false b)
  | sum l r => encloseIf nested (tokensAt true l ++ ["+"] ++ tokensAt true r)
  | tuple ts => ["\x7b"] ++ separated "," (tokensEach ts) ++ ["\x7d"]
  | record fs => ["\x7b"] ++ separated "," (fieldTokens fs) ++ ["\x7d"]
  | variant fs => ["<|"] ++ separated "," (alternativeTokens fs) ++ ["|>"]
  | list t => ["["] ++ tokensAt false t ++ ["]"]
  | ref t => ["&"] ++ tokensAt true t

def tokensEach : List Ty → List (List String)
  | [] => []
  | t :: ts => tokensAt false t :: tokensEach ts

def fieldTokens : List (String × Ty) → List (List String)
  | [] => []
  | (l, t) :: fs => ([l] ++ [":"] ++ tokensAt false t) :: fieldTokens fs

def alternativeTokens : List (String × Option Ty) → List (List String)
  | [] => []
  | (l, none) :: fs => [l] :: alternativeTokens fs
  | (l, some t) :: fs => ([l] ++ [":"] ++ tokensAt false t) :: alternativeTokens fs

end

/-- That the texts of a type have its tokens as their words. -/
def Spelled (t : Ty) : Prop :=
  ∀ nested, Spells (t.textAt nested) (t.tokensAt nested)

variable {s : String} {ws : List String}

theorem spells_name {x : String} (name : isName x = true) : Spells x [x] := by
  rw [isName, Bool.and_eq_true] at name
  exact Text.spells_identifier name.1

theorem spells_parenthesizeIf (nested : Bool) (spelled : Spells s ws) :
    Spells (parenthesizeIf nested s) (encloseIf nested ws) := by
  cases nested with
  | false => exact spelled
  | true =>
    have opened : Ends "(" ["("] := fun _ => rfl
    exact (opened.append spelled).ended (fun _ => rfl) fun _ => rfl

/-- A label and the type behind it. -/
theorem spells_field {l : String} {t : Ty} (name : isName l = true) (spelled : t.Spelled) :
    Spells (l ++ " : " ++ t.textAt false) ([l] ++ [":"] ++ t.tokensAt false) :=
  (spells_name name).next (fun _ => rfl) (fun _ => rfl) (spelled false)

theorem spells_texts {ts : List Ty} (spelled : ∀ t ∈ ts, t.Spelled) :
    List.Forall₂ Spells (texts ts) (tokensEach ts) := by
  induction ts with
  | nil => exact .nil
  | cons t ts ih =>
    rw [List.forall_mem_cons] at spelled
    exact .cons (spelled.1 false) (ih spelled.2)

theorem spells_fieldTexts {fs : List (String × Ty)} (names : ∀ field ∈ fs, isName field.1 = true)
    (spelled : ∀ field ∈ fs, field.2.Spelled) :
    List.Forall₂ Spells (fieldTexts fs) (fieldTokens fs) := by
  induction fs with
  | nil => exact .nil
  | cons field fs ih =>
    rw [List.forall_mem_cons] at names spelled
    exact .cons (spells_field names.1 spelled.1) (ih names.2 spelled.2)

theorem spells_alternativeTexts {fs : List (String × Option Ty)}
    (names : ∀ field ∈ fs, isName field.1 = true)
    (spelled : ∀ field ∈ fs, ∀ t ∈ field.2, t.Spelled) :
    List.Forall₂ Spells (alternativeTexts fs) (alternativeTokens fs) := by
  induction fs with
  | nil => exact .nil
  | cons field fs ih =>
    rw [List.forall_mem_cons] at names spelled
    obtain ⟨l, payload⟩ := field
    cases payload with
    | none => exact .cons (spells_name names.1) (ih names.2 spelled.2)
    | some t => exact .cons (spells_field names.1 (spelled.1 t rfl)) (ih names.2 spelled.2)

theorem spells_commas {parts : List String} {wss : List (List String)}
    (spelled : List.Forall₂ Spells parts wss) :
    Spells (String.intercalate ", " parts) (separated "," wss) :=
  Text.spells_intercalate (fun _ => rfl) (fun _ => rfl) spelled

/-- A type has its tokens as its words if its children have. -/
theorem spelled_of_children (t : Ty) (legible : t.isLegible = true)
    (spelled : ∀ c ∈ t.children, c.Spelled) : t.Spelled := by
  intro nested
  cases t with
  | bool | nat | unit | top | bottom | never | unknown | error =>
    rw [textAt, tokensAt]
    exact Text.spells_word rfl
  | var x => exact spells_name legible
  | arrow ps r =>
    have params := spells_commas (spells_texts fun p member => spelled p (List.mem_cons_of_mem r member))
    have result := spelled r List.mem_cons_self false
    refine spells_parenthesizeIf nested ?_
    exact (Ends.append (fun _ => rfl) params).next (fun _ => rfl) (fun _ => rfl) result
  | forAll xs b =>
    have names : List.Forall₂ Spells xs (xs.map fun x => [x]) := by
      rw [List.forall₂_map_right_iff, List.forall₂_same]
      exact fun x member => spells_name (List.all_eq_true.mp legible x member)
    have body := spelled b List.mem_cons_self false
    refine spells_parenthesizeIf nested ?_
    exact (Ends.append (fun _ => rfl) (spells_commas names)).next (fun _ => rfl) (fun _ => rfl) body
  | recursive x b =>
    have body := spelled b List.mem_cons_self false
    refine spells_parenthesizeIf nested ?_
    exact (Ends.append (fun _ => rfl) (spells_name legible)).next (fun _ => rfl) (fun _ => rfl) body
  | sum l r =>
    have left := spelled l List.mem_cons_self true
    have right := spelled r (List.mem_cons_of_mem l List.mem_cons_self) true
    exact spells_parenthesizeIf nested (left.next (fun _ => rfl) (fun _ => rfl) right)
  | tuple ts =>
    have elements := spells_commas (spells_texts fun t member => spelled t member)
    exact (Ends.append (fun _ => rfl) elements).ended (fun _ => rfl) fun _ => rfl
  | record fs =>
    rw [isLegible, Bool.and_eq_true, List.all_eq_true] at legible
    have fields := spells_commas (spells_fieldTexts legible.2 fun field member =>
      spelled field.2 (List.mem_map_of_mem member))
    exact (Ends.append (fun _ => rfl) fields).ended (fun _ => rfl) fun _ => rfl
  | variant fs =>
    have fields := spells_commas (spells_alternativeTexts (List.all_eq_true.mp legible)
      fun field member t payload => spelled t (List.mem_filterMap.mpr ⟨field, member, payload⟩))
    have opened : Ends "<| " ["<|"] := fun _ => rfl
    exact (opened.append fields).append Syntax.spells_closing fun _ => rfl
  | list t =>
    have element := spelled t List.mem_cons_self false
    exact (Ends.append (fun _ => rfl) element).ended (fun _ => rfl) fun _ => rfl
  | ref t =>
    have referent := spelled t List.mem_cons_self true
    exact Ends.append (fun _ => rfl) referent

theorem Legible.spelled {t : Ty} (legible : t.Legible) : t.Spelled := by
  induction t using Ty.induction with
  | step t ih => exact spelled_of_children t legible.self fun c child => ih c child (legible.child child)

end Tokens

section Readers

/-- What a first word tells of a type. -/
inductive Opening where
  | paren
  | leaf (type : Ty)
  | arrow
  | forAll
  | recursive
  | brace
  | variant
  | list
  | ref

def openings : List (String × Opening) :=
  [("(", .paren), ("Bool", .leaf bool), ("Nat", .leaf nat), ("Unit", .leaf unit), ("Top", .leaf top),
    ("Bot", .leaf bottom), ("!", .leaf never), ("?", .leaf unknown), ("<error>", .leaf error),
    ("fn", .arrow), ("forall", .forAll), ("µ", .recursive), ("\x7b", .brace), ("<|", .variant),
    ("[", .list), ("&", .ref)]

def opening (w : String) : Option Opening :=
  if isName w then some (.leaf (var w)) else openings.lookup w

/-- A type in a list, with the type that it is the label of. -/
abbrev Entry :=
  Ty × Option Ty

def label : Ty → String
  | var x => x
  | _ => ""

/-- The names up to the dot behind them, and the words behind the dot. -/
def upToDot (ts : List String) : List String × List String :=
  ((ts.takeWhile (· != ".")).filter (· != ","), (ts.dropWhile (· != ".")).tail)

mutual

def read : Reader Ty := fun ts => do
  let (l, ts) ← atom.run ts
  if ts.head? = some "+" then
    let (r, ts) ← atom.run ts.tail
    some (sum l r, ts)
  else some (l, ts)
partial_fixpoint

/-- A type that is no sum. -/
def atom : Reader Ty
  | [] => none
  | w :: ts => do (opened.run (← opening w)).run ts
partial_fixpoint

/-- A type behind its first word. -/
def opened : ReaderT Opening Reader Ty := fun first ts =>
  match first with
  | .paren => do
    let (t, ts) ← read.run ts
    some (t, ts.tail)
  | .leaf t => some (t, ts)
  | .arrow => do
    let (ps, ts) ← (entries.run ")").run ts.tail
    let (r, ts) ← read.run ts.tail
    some (arrow (ps.map (·.1)) r, ts)
  | .forAll => do
    let (b, rest) ← read.run (upToDot ts).2
    some (forAll (upToDot ts).1 b, rest)
  | .recursive => do
    let (b, rest) ← read.run (ts.drop 2)
    some (recursive (ts.headD "") b, rest)
  | .brace => do
    let (es, ts) ← (entries.run "\x7d").run ts
    some (braced label tuple record es, ts)
  | .variant => do
    let (es, ts) ← (entries.run "|>").run ts
    some (variant (es.map fun (t, u) => (label t, u)), ts)
  | .list => do
    let (t, ts) ← read.run ts
    some (list t, ts.tail)
  | .ref => do
    let (t, ts) ← atom.run ts
    some (ref t, ts)
partial_fixpoint

def entry : Reader Entry := fun ts => do
  let (t, ts) ← read.run ts
  if ts.head? = some ":" then
    let (u, ts) ← read.run ts.tail
    some ((t, some u), ts)
  else some ((t, none), ts)
partial_fixpoint

def entries : ReaderT String Reader (List Entry)
  | _, [] => none
  | close, w :: ts =>
    if w = close then some ([], ts)
    else do
      let (e, ts) ← entry.run (if w = "," then ts else w :: ts)
      let (es, ts) ← (entries.run close).run ts
      some (e :: es, ts)
partial_fixpoint

end

/-- The words that an item of a list stands in front of. -/
def stops : List String :=
  [",", ")", "\x7d", "|>"]

theorem entry_eq : entry = labelled ":" read := by
  funext ts
  rw [entry]
  rfl

/-- No entry begins with a word that entries stand in front of. -/
theorem entry_refuses (w : String) (stop : w ∈ stops) (ts : List String) : entry (w :: ts) = none := by
  have unopened : ∀ w ∈ stops, opening w = none := by decide
  rw [entry, StateT.run, read, StateT.run, atom, unopened w stop]
  rfl

theorem read_entries (close : String) (last : close ∈ stops) (apart : "," ≠ close)
    {wss : List (List String)} {es : List Entry} (reads : List.Forall₂ (ReadsItem stops entry) wss es)
    (r : List String) : entries close (separated "," wss ++ close :: r) = some (es, r) := by
  have step (ts : List String) : entries close ts = listed "," close entry (entries close) ts := by
    cases ts with
    | _ =>
      rw [entries]
      rfl
  exact Syntax.read_separated step entry_refuses (by decide) last apart reads r

/-- That a type is read back, as an atom and as a whole. -/
def ReadBack (t : Ty) : Prop :=
  (∀ r, atom (tokensAt true t ++ r) = some (t, r)) ∧
    ∀ r, r.head? ≠ some "+" → read (tokensAt false t ++ r) = some (t, r)

variable {t : Ty} {ts r : List String}

theorem atom_eq {w : String} {first : Opening} (known : opening w = some first) :
    atom (w :: ts) = opened first ts := by
  rw [atom, known, Option.bind_eq_bind, Option.bind_some]
  rfl

theorem read_of_atom (whole : atom ts = some (t, r)) (last : r.head? ≠ some "+") :
    read ts = some (t, r) := by
  rw [read, StateT.run, whole, Option.bind_eq_bind, Option.bind_some]
  exact if_neg last

/-- A type that stands in no parentheses anywhere. -/
theorem readBack_of_atom (bare : tokensAt false t = tokensAt true t)
    (whole : ∀ r, atom (tokensAt true t ++ r) = some (t, r)) : ReadBack t := by
  refine ⟨whole, fun r last => ?_⟩
  rw [bare]
  exact read_of_atom (whole r) last

/-- A type that stands in parentheses as a part of a sum. -/
theorem readBack_of_enclosed {ws : List String} (enclosed : ∀ nested, tokensAt nested t = encloseIf nested ws)
    (whole : ∀ r, r.head? ≠ some "+" → read (ws ++ r) = some (t, r)) : ReadBack t := by
  constructor
  · intro r
    rw [enclosed, encloseIf, if_pos rfl, List.append_assoc, List.append_assoc, List.singleton_append,
      List.singleton_append]
    refine (atom_eq rfl).trans ?_
    rw [opened, StateT.run, whole (")" :: r) (by simp)]
    rfl
  · intro r last
    rw [enclosed]
    exact whole r last

section Parts

theorem opening_name {x : String} (name : isName x = true) : opening x = some (.leaf (var x)) :=
  if_pos name

theorem read_name {x : String} (name : isName x = true) (last : r.head? ≠ some "+") :
    read (x :: r) = some (var x, r) := by
  refine read_of_atom ?_ last
  rw [atom_eq (opening_name name), opened]

/-- No sum goes on at the end of an item. -/
theorem not_plus (stopped : Stopped stops r) : r.head? ≠ some "+" := by
  obtain ⟨w, stop, head⟩ := stopped
  rw [head]
  exact (by decide : ∀ w ∈ stops, some w ≠ some "+") w stop

theorem ReadBack.item (back : ReadBack t) : ReadsItem stops read (tokensAt false t) t :=
  fun r stopped => back.2 r (not_plus stopped)

theorem ReadBack.bare (back : ReadBack t) : ReadsItem stops entry (tokensAt false t) (t, none) :=
  entry_eq ▸ Syntax.reads_bare back.item (by decide)

theorem reads_label {l : String} (name : isName l = true) :
    ReadsItem stops entry [l] (var l, none) :=
  entry_eq ▸ Syntax.reads_bare (fun _ stopped => read_name name (not_plus stopped)) (by decide)

theorem reads_field {l : String} (name : isName l = true) (back : ReadBack t) :
    ReadsItem stops entry ([l] ++ [":"] ++ tokensAt false t) (var l, some t) :=
  entry_eq ▸ Syntax.reads_labelled (fun r => read_name name (by simp)) back.item

theorem reads_each {ts : List Ty} (back : ∀ t ∈ ts, ReadBack t) :
    List.Forall₂ (ReadsItem stops entry) (tokensEach ts) (ts.map (·, none)) := by
  induction ts with
  | nil => exact .nil
  | cons t ts ih =>
    rw [List.forall_mem_cons] at back
    exact .cons back.1.bare (ih back.2)

theorem reads_fields {fs : List (String × Ty)} (names : ∀ field ∈ fs, isName field.1 = true)
    (back : ∀ field ∈ fs, ReadBack field.2) :
    List.Forall₂ (ReadsItem stops entry) (fieldTokens fs)
      (fs.map fun field => (var field.1, some field.2)) := by
  induction fs with
  | nil => exact .nil
  | cons field fs ih =>
    rw [List.forall_mem_cons] at names back
    exact .cons (reads_field names.1 back.1) (ih names.2 back.2)

theorem reads_alternatives {fs : List (String × Option Ty)}
    (names : ∀ field ∈ fs, isName field.1 = true)
    (back : ∀ field ∈ fs, ∀ t ∈ field.2, ReadBack t) :
    List.Forall₂ (ReadsItem stops entry) (alternativeTokens fs)
      (fs.map fun field => (var field.1, field.2)) := by
  induction fs with
  | nil => exact .nil
  | cons field fs ih =>
    rw [List.forall_mem_cons] at names back
    obtain ⟨l, payload⟩ := field
    cases payload with
    | none => exact .cons (reads_label names.1) (ih names.2 back.2)
    | some t => exact .cons (reads_field names.1 (back.1 t rfl)) (ih names.2 back.2)

/-- Of names and the commas between them the names are left. -/
theorem filter_separated {xs : List String} (names : ∀ x ∈ xs, isName x = true) :
    (separated "," (xs.map fun x => [x])).filter (· != ",") = xs := by
  have kept : ∀ x ∈ xs, (x != ",") = true := by
    intro x member
    rw [bne_iff_ne]
    rintro rfl
    exact absurd (names _ member) (by decide)
  have others {ys : List String} (kept : ∀ y ∈ ys, (y != ",") = true) :
      ((ys.map fun y => [y]).flatMap ("," :: ·)).filter (· != ",") = ys := by
    induction ys with
    | nil => rfl
    | cons y ys ih =>
      rw [List.forall_mem_cons] at kept
      simp [kept.1, ih kept.2]
  cases xs with
  | nil => rfl
  | cons x xs =>
    rw [List.forall_mem_cons] at kept
    simp [separated, kept.1, others kept.2]

theorem upToDot_names {xs : List String} (names : ∀ x ∈ xs, isName x = true) (r : List String) :
    upToDot (separated "," (xs.map fun x => [x]) ++ "." :: r) = (xs, r) := by
  have undotted : ∀ w ∈ separated "," (xs.map fun x => [x]), (w != ".") = true := by
    intro w member
    rw [bne_iff_ne]
    rintro rfl
    have left : "." ∈ (separated "," (xs.map fun x => [x])).filter (· != ",") :=
      List.mem_filter.mpr ⟨member, by decide⟩
    rw [filter_separated names] at left
    exact absurd (names _ left) (by decide)
  rw [upToDot, List.takeWhile_append_of_pos undotted, List.dropWhile_append_of_pos undotted]
  simp [filter_separated names]

end Parts

/-- A legible type is read back if its children are. -/
theorem readBack_of_children (t : Ty) (legible : t.isLegible = true)
    (back : ∀ c ∈ t.children, ReadBack c) : ReadBack t := by
  cases t with
  | bool | nat | unit | top | bottom | never | unknown | error =>
    refine readBack_of_atom (by rw [tokensAt, tokensAt]) fun r => ?_
    rw [tokensAt]
    refine (atom_eq rfl).trans ?_
    rw [opened]
    rfl
  | var x =>
    refine readBack_of_atom (by rw [tokensAt, tokensAt]) fun r => ?_
    rw [tokensAt]
    refine (atom_eq (opening_name legible)).trans ?_
    rw [opened]
    rfl
  | arrow ps r =>
    have params := read_entries ")" (by decide) (by decide)
      (reads_each fun p member => back p (List.mem_cons_of_mem r member))
    have result := back r List.mem_cons_self
    refine readBack_of_enclosed (fun _ => by rw [tokensAt]) fun rest last => ?_
    simp only [List.append_assoc, List.cons_append, List.nil_append]
    refine read_of_atom ((atom_eq rfl).trans ?_) last
    simp only [opened, StateT.run, ReaderT.run, List.tail_cons, params, result.2 rest last,
      Option.bind_eq_bind, Option.bind_some, List.map_map, Function.comp_def, List.map_id_fun', id]
  | forAll xs b =>
    have body := back b List.mem_cons_self
    refine readBack_of_enclosed (fun _ => by rw [tokensAt]) fun rest last => ?_
    simp only [List.append_assoc, List.cons_append, List.nil_append]
    refine read_of_atom ((atom_eq rfl).trans ?_) last
    simp only [opened, StateT.run, upToDot_names (List.all_eq_true.mp legible), body.2 rest last,
      Option.bind_eq_bind, Option.bind_some]
  | recursive x b =>
    have body := back b List.mem_cons_self
    refine readBack_of_enclosed (fun _ => by rw [tokensAt]) fun rest last => ?_
    simp only [List.cons_append, List.nil_append]
    refine read_of_atom ((atom_eq rfl).trans ?_) last
    simp only [opened, StateT.run, List.drop_succ_cons, List.drop_zero, body.2 rest last,
      Option.bind_eq_bind, Option.bind_some]
    rfl
  | sum l r =>
    have left := back l List.mem_cons_self
    have right := back r (List.mem_cons_of_mem l List.mem_cons_self)
    refine readBack_of_enclosed (fun _ => by rw [tokensAt]) fun rest last => ?_
    rw [List.append_assoc, List.append_assoc, read, StateT.run, left.1, Option.bind_eq_bind,
      Option.bind_some]
    refine (if_pos rfl).trans ?_
    rw [List.singleton_append, List.tail_cons, StateT.run, right.1]
    rfl
  | tuple ts =>
    have elements := read_entries "\x7d" (by decide) (by decide) (@reads_each ts back)
    refine readBack_of_atom (by rw [tokensAt, tokensAt]) fun r => ?_
    rw [tokensAt]
    simp only [List.append_assoc, List.cons_append, List.nil_append]
    refine (atom_eq rfl).trans ?_
    simp only [opened, StateT.run, ReaderT.run, elements, Option.bind_eq_bind, Option.bind_some,
      Syntax.braced_bare]
  | record fs =>
    rw [isLegible, Bool.and_eq_true, List.all_eq_true] at legible
    have fields := read_entries "\x7d" (by decide) (by decide)
      (reads_fields legible.2 fun field member => back field.2 (List.mem_map_of_mem member))
    have filled : fs ≠ [] := by
      rintro rfl
      simp at legible
    refine readBack_of_atom (by rw [tokensAt, tokensAt]) fun r => ?_
    rw [tokensAt]
    simp only [List.append_assoc, List.cons_append, List.nil_append]
    refine (atom_eq rfl).trans ?_
    simp only [opened, StateT.run, ReaderT.run, fields, Option.bind_eq_bind, Option.bind_some,
      Syntax.braced_labelled (fun l => show label (var l) = l from rfl) filled]
  | variant fs =>
    have fields := read_entries "|>" (by decide) (by decide)
      (reads_alternatives (List.all_eq_true.mp legible) fun field member t payload =>
        back t (List.mem_filterMap.mpr ⟨field, member, payload⟩))
    refine readBack_of_atom (by rw [tokensAt, tokensAt]) fun r => ?_
    rw [tokensAt]
    simp only [List.append_assoc, List.cons_append, List.nil_append]
    refine (atom_eq rfl).trans ?_
    simp only [opened, StateT.run, ReaderT.run, fields, Option.bind_eq_bind, Option.bind_some,
      List.map_map, Function.comp_def, label, List.map_id_fun', id]
  | list t =>
    have element := back t List.mem_cons_self
    refine readBack_of_atom (by rw [tokensAt, tokensAt]) fun r => ?_
    rw [tokensAt]
    simp only [List.append_assoc, List.cons_append, List.nil_append]
    refine (atom_eq rfl).trans ?_
    simp only [opened, StateT.run, element.2 ("]" :: r) (by simp), Option.bind_eq_bind,
      Option.bind_some]
    rfl
  | ref t =>
    have referent := back t List.mem_cons_self
    refine readBack_of_atom (by rw [tokensAt, tokensAt]) fun r => ?_
    rw [tokensAt]
    simp only [List.cons_append, List.nil_append]
    refine (atom_eq rfl).trans ?_
    simp only [opened, StateT.run, referent.1, Option.bind_eq_bind, Option.bind_some]

theorem Legible.readBack (legible : t.Legible) : ReadBack t := by
  induction t using Ty.induction with
  | step t ih => exact readBack_of_children t legible.self fun c child => ih c child (legible.child child)

end Readers

section Texts

variable {t u : Ty}

/-- What is read from the words of the text of a type is the type. -/
theorem read_words (legible : t.Legible) : read (Text.words t.text.toList) = some (t, []) := by
  have spelled : Spells t.text (t.tokensAt false) := legible.spelled false
  have whole := legible.readBack.2 [] (by decide)
  rw [List.append_nil] at whole
  rw [spelled.words_eq, whole]

/-- The words of a message that one type is expected and another one was found. -/
theorem words_mismatch (legible : t.Legible) (legible' : u.Legible) :
    Text.words (Typing.Fault.mismatch t u).message.toList =
      ["type", "mismatch:", "expected"] ++ t.tokensAt false ++ [",", "found"] ++ u.tokensAt false := by
  have opened : Ends "type mismatch: expected " ["type", "mismatch:", "expected"] := fun _ => rfl
  have expected := opened.append (legible.spelled false)
  exact (expected.next (fun _ => rfl) (fun _ => rfl) (legible'.spelled false)).words_eq

/-- The two types that a message shows are read from its words. -/
theorem read_mismatch (legible : t.Legible) (legible' : u.Legible) :
    (do
      let (expected, ts) ← read ((Text.words (Typing.Fault.mismatch t u).message.toList).drop 3)
      let (found, _) ← read (ts.drop 2)
      some (expected, found)) = some (t, u) := by
  have found := legible'.readBack.2 [] (by decide)
  rw [List.append_nil] at found
  rw [words_mismatch legible legible']
  simp only [List.append_assoc, List.cons_append, List.nil_append, List.drop_succ_cons, List.drop_zero,
    legible.readBack.2 ("," :: "found" :: u.tokensAt false) (by simp), found, Option.bind_eq_bind,
    Option.bind_some]

/-- Different types are shown differently. If their names are names and none of the tuples and records
in them is empty, then types with one text are equal; and so are the types that two messages with
one text expect, and those that they found. -/
theorem types_told_apart :
    (∀ t u : Ty, t.Legible → u.Legible → (t.text = u.text ↔ t = u)) ∧
      ∀ t u t' u' : Ty, t.Legible → u.Legible → t'.Legible → u'.Legible →
        ((Typing.Fault.mismatch t u).message = (Typing.Fault.mismatch t' u').message ↔
          t = t' ∧ u = u') := by
  constructor
  · intro t u legible legible'
    constructor
    · intro alike
      have first := read_words legible
      rw [alike, read_words legible'] at first
      exact (Prod.mk.inj (Option.some.inj first)).1.symm
    · rintro rfl
      rfl
  · intro t u t' u' expected found expected' found'
    constructor
    · intro alike
      have first := read_mismatch expected found
      rw [alike, read_mismatch expected' found'] at first
      obtain ⟨same, same'⟩ := Prod.mk.inj (Option.some.inj first)
      exact ⟨same.symm, same'.symm⟩
    · rintro ⟨rfl, rfl⟩
      rfl

/-- A sum of three, the first two of them taken together or the last two. -/
def leftSum : Ty := .sum (.sum .nat .unknown) (.arrow [.var "error"] .error)
def rightSum : Ty := .sum .nat (.sum .unknown (.arrow [.var "error"] .error))

/-- The two sums are told apart by their parentheses, alone and in a message about them. -/
theorem sums_shown_apart :
    leftSum.Legible ∧ rightSum.Legible ∧ leftSum.text ≠ rightSum.text ∧
      (Typing.Fault.mismatch leftSum rightSum).message ≠
        (Typing.Fault.mismatch rightSum leftSum).message := by
  have legible : leftSum.Legible ∧ rightSum.Legible := by
    unfold Legible
    decide
  refine ⟨legible.1, legible.2, ?_, ?_⟩
  · intro alike
    have same := (types_told_apart.1 _ _ legible.1 legible.2).mp alike
    exact absurd same (by simp [leftSum, rightSum])
  · intro alike
    have same := (types_told_apart.2 _ _ _ _ legible.1 legible.2 legible.2 legible.1).mp alike
    exact absurd same.1 (by simp [leftSum, rightSum])

end Texts

end StellaLang.Ty
