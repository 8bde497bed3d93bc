import StellaLang.Proofs.Syntax.Tokens

/-! Readers take a value off the front of a list of words. Here is what those of types, patterns and
expressions have in common: lists with separators, labels, names and numbers. -/
namespace StellaLang.Syntax

open Text (separated)

abbrev Reader (α : Type) :=
  StateT (List String) Option α

section Lists

variable {α : Type} {item : Reader α} {items : Reader (List α)} {stops : List String}
  {sep close : String}

/-- That one of these words is next. -/
def Stopped (stops ts : List String) : Prop :=
  ∃ w ∈ stops, ts.head? = some w

/-- Items up to the word that ends them. A separator is passed over. -/
def listed (sep close : String) (item : Reader α) (items : Reader (List α)) : Reader (List α)
  | [] => none
  | w :: ts =>
    if w = close then some ([], ts)
    else do
      let (a, ts) ← item (if w = sep then ts else w :: ts)
      let (as, ts) ← items ts
      some (a :: as, ts)

/-- That an item is read from these words, if one of the stops is next behind them. -/
def ReadsItem (stops : List String) (item : Reader α) (ws : List String) (a : α) : Prop :=
  ∀ r, Stopped stops r → item (ws ++ r) = some (a, r)

/-- A list is read up to the word that ends it. -/
theorem read_separated (step : ∀ ts, items ts = listed sep close item items ts)
    (refuses : ∀ w ∈ stops, ∀ ts, item (w :: ts) = none) (between : sep ∈ stops)
    (last : close ∈ stops) (apart : sep ≠ close) {wss : List (List String)} {as : List α}
    (reads : List.Forall₂ (ReadsItem stops item) wss as) (r : List String) :
    items (separated sep wss ++ close :: r) = some (as, r) := by
  have others {wss : List (List String)} {as : List α}
      (reads : List.Forall₂ (ReadsItem stops item) wss as) :
      Stopped stops (wss.flatMap (sep :: ·) ++ close :: r) ∧
        items (wss.flatMap (sep :: ·) ++ close :: r) = some (as, r) := by
    induction reads with
    | nil =>
      refine ⟨⟨close, last, rfl⟩, ?_⟩
      rw [step]
      exact if_pos rfl
    | @cons ws a wss as first _ ih =>
      refine ⟨⟨sep, between, rfl⟩, ?_⟩
      rw [step, List.flatMap_cons, List.cons_append, List.cons_append, listed, if_neg apart,
        if_pos rfl, List.append_assoc, first _ ih.1]
      simp only [Option.bind_eq_bind, Option.bind_some, ih.2]
  cases reads with
  | nil =>
    rw [step]
    exact if_pos rfl
  | @cons ws a wss as first rest =>
    obtain ⟨stopped, rest⟩ := others rest
    have read := first _ stopped
    have filled : ws ++ (wss.flatMap (sep :: ·) ++ close :: r) ≠ [] := by simp
    rw [separated, List.append_assoc, step]
    -- no item begins with a word that would be passed over or taken for the end
    generalize ws ++ (wss.flatMap (sep :: ·) ++ close :: r) = ts at read filled ⊢
    cases ts with
    | nil => contradiction
    | cons w ts =>
      have notClose : w ≠ close := by
        rintro rfl
        rw [refuses w last] at read
        contradiction
      have notSep : w ≠ sep := by
        rintro rfl
        rw [refuses w between] at read
        contradiction
      rw [listed, if_neg notClose, if_neg notSep, read]
      simp only [Option.bind_eq_bind, Option.bind_some, rest]

/-- The words that an item of a list stands in front of. -/
def itemStops : List String :=
  [",", "|", ")", "]", "\x7d", "|>", "in"]

end Lists

section Labels

variable {α β : Type} {read : Reader α} {ws : List String} {stops : List String} {sign : String}
  {a b : α}

/-- A value, and behind a sign what it is the label of. -/
def labelled (sign : String) (read : Reader α) : Reader (α × Option α) := fun ts => do
  let (a, ts) ← read ts
  if ts.head? = some sign then
    let (b, ts) ← read ts.tail
    some ((a, some b), ts)
  else some ((a, none), ts)

theorem reads_bare (reads : ReadsItem stops read ws a) (apart : sign ∉ stops) :
    ReadsItem stops (labelled sign read) ws (a, none) := by
  intro r stopped
  have other : r.head? ≠ some sign := by
    obtain ⟨w, stop, head⟩ := stopped
    rw [head, Ne, Option.some_inj]
    rintro rfl
    exact apart stop
  rw [labelled, reads r stopped, Option.bind_eq_bind, Option.bind_some]
  exact if_neg other

theorem reads_labelled {l : String} (label : ∀ r, read (l :: sign :: r) = some (a, sign :: r))
    (reads : ReadsItem stops read ws b) :
    ReadsItem stops (labelled sign read) ([l] ++ [sign] ++ ws) (a, some b) := by
  intro r stopped
  rw [labelled, List.append_assoc, List.append_assoc, List.singleton_append, List.singleton_append,
    label, Option.bind_eq_bind, Option.bind_some]
  refine (if_pos rfl).trans ?_
  rw [List.tail_cons, reads r stopped]
  rfl

/-- What stands between braces, where the first entry tells whether there are labels. -/
def braced (label : α → String) (tuple : List α → β) (record : List (String × α) → β) :
    List (α × Option α) → β
  | (a, some b) :: entries => record (((a, some b) :: entries).filterMap fun (a, b) => b.map (label a, ·))
  | entries => tuple (entries.map (·.1))

variable {label : α → String} {tuple : List α → β} {record : List (String × α) → β}

theorem braced_bare (as : List α) : braced label tuple record (as.map (·, none)) = tuple as := by
  cases as with
  | nil => rfl
  | cons a as => simp [braced, Function.comp_def]

theorem braced_labelled {named : String → α} (names : ∀ l, label (named l) = l)
    {fs : List (String × α)} (filled : fs ≠ []) :
    braced label tuple record (fs.map fun field => (named field.1, some field.2)) = record fs := by
  cases fs with
  | nil => contradiction
  | cons field fs => simp [braced, names]

end Labels

section Listings

variable {α : Type} {read : Reader α} {ws : List String} {sign : String} {a b : α}

/-- A reader of items, one of items with or without a label, and one of lists of these. -/
structure Listing (sign : String) (read : Reader α) (entry : Reader (α × Option α))
    (entries : ReaderT String Reader (List (α × Option α))) : Prop where
  entry_eq : entry = labelled sign read
  entries_step : ∀ close ts, entries close ts = listed "," close entry (entries close) ts
  /-- No item begins with a word that items stand in front of. -/
  refuses : ∀ w ∈ itemStops, ∀ ts, read (w :: ts) = none
  apart : sign ∉ itemStops

variable {entry : Reader (α × Option α)} {entries : ReaderT String Reader (List (α × Option α))}

theorem Listing.read_entries (listing : Listing sign read entry entries) (close : String)
    (last : close ∈ itemStops) (apart : "," ≠ close) {wss : List (List String)}
    {es : List (α × Option α)} (reads : List.Forall₂ (ReadsItem itemStops entry) wss es)
    (r : List String) : entries close (separated "," wss ++ close :: r) = some (es, r) := by
  have refuses (w : String) (stop : w ∈ itemStops) (ts : List String) : entry (w :: ts) = none := by
    rw [listing.entry_eq, labelled, listing.refuses w stop]
    rfl
  exact read_separated (listing.entries_step close) refuses (by decide) last apart reads r

theorem Listing.reads_bare (listing : Listing sign read entry entries)
    (reads : ReadsItem itemStops read ws a) : ReadsItem itemStops entry ws (a, none) :=
  listing.entry_eq ▸ Syntax.reads_bare reads listing.apart

theorem Listing.reads_labelled (listing : Listing sign read entry entries) {l : String}
    (label : ∀ r, read (l :: sign :: r) = some (a, sign :: r)) (reads : ReadsItem itemStops read ws b) :
    ReadsItem itemStops entry ([l] ++ [sign] ++ ws) (a, some b) :=
  listing.entry_eq ▸ Syntax.reads_labelled label reads

end Listings

section Names

def name : Reader String
  | [] => none
  | w :: ts => if isName w then some (w, ts) else none

def names : ReaderT String Reader (List String)
  | _, [] => none
  | close, w :: ts =>
    if w = close then some ([], ts)
    else do
      let (x, ts) ← name (if w = "," then ts else w :: ts)
      let (xs, ts) ← (names.run close).run ts
      some (x :: xs, ts)
partial_fixpoint

theorem read_names {close : String} {xs : List String} (named : ∀ x ∈ xs, isName x = true)
    (last : close ∈ [".", "]"]) (r : List String) :
    names close (separated "," (xs.map fun x => [x]) ++ close :: r) = some (xs, r) := by
  have step (ts : List String) : names close ts = listed "," close name (names close) ts := by
    cases ts with
    | nil => rw [names]; rfl
    | cons w ts => rw [names]; rfl
  have refuses : ∀ w ∈ [",", ".", "]"], ∀ ts, name (w :: ts) = none := by
    intro w stop ts
    rw [name, if_neg]
    exact (by decide : ∀ w ∈ [",", ".", "]"], ¬isName w = true) w stop
  have reads : List.Forall₂ (ReadsItem [",", ".", "]"] name) (xs.map fun x => [x]) xs := by
    rw [List.forall₂_map_left_iff, List.forall₂_same]
    exact fun x member r _ => if_pos (named x member)
  have apart : "," ≠ close := by
    rintro rfl
    contradiction
  exact read_separated step refuses List.mem_cons_self (List.mem_cons_of_mem _ last) apart reads r

/-- A name begins with a letter or an underscore. -/
theorem head_of_name {x : String} (name : isName x = true) :
    ∃ c cs, x.toList = c :: cs ∧ (c.isAlpha || c == '_') = true := by
  rw [isName, Bool.and_eq_true, Bool.and_eq_true] at name
  cases chars : x.toList with
  | nil => simp [chars] at name
  | cons c cs => exact ⟨c, cs, rfl, by simpa [chars] using name.1.1⟩

theorem not_isDigit_of_start {c : Char} (start : (c.isAlpha || c == '_') = true) : c.isDigit = false := by
  by_contra digit
  have last := (Char.isDigit_iff_toNat.mp (Bool.not_eq_false _ ▸ digit)).2
  rw [Bool.or_eq_true, beq_iff_eq] at start
  rcases start with letter | rfl
  · have first := (Text.letter_bounds letter).1
    exact absurd (Nat.le_trans first last) (by decide)
  · exact absurd last (by decide)

end Names

section Numbers

/-- The number that a word of decimal digits stands for. -/
def decimal? (w : String) : Option Nat :=
  if w.toList.head?.any Char.isDigit then some (Nat.ofDigitChars 10 w.toList 0) else none

theorem decimal?_toString (n : Nat) : decimal? (toString n) = some n := by
  have digits : (toString n).toList = Nat.toDigits 10 n := by
    rw [Nat.toString_eq_ofList_toDigits, String.toList_ofList]
  have first : (Nat.toDigits 10 n).head?.any Char.isDigit = true := by
    cases chars : Nat.toDigits 10 n with
    | nil => exact absurd chars Nat.toDigits_ne_nil
    | cons c cs =>
      have member : c ∈ Nat.toDigits 10 n := chars ▸ List.mem_cons_self
      exact Nat.isDigit_of_mem_toDigits (by omega) (by omega) member
  rw [decimal?, digits, if_pos first, Nat.ofDigitChars_ten_toDigits]

theorem decimal?_name {x : String} (name : isName x = true) : decimal? x = none := by
  obtain ⟨c, cs, chars, start⟩ := head_of_name name
  rw [decimal?, chars, List.head?_cons, Option.any_some, not_isDigit_of_start start]
  rfl

end Numbers

end StellaLang.Syntax
