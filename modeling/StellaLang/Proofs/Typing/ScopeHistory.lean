import Mathlib.Data.List.Induction
import Mathlib.Data.Nat.Find
import StellaLang.Scope

/-! Scopes and their history. What a scope answers is read off what has happened to it: how many
frames were open at each time says which of them still are, without a look at a frame. Leaving the
outermost frame does nothing, so a frame need not be left as often as it was entered. -/
namespace StellaLang.Scope

/-- What can be done with a scope. -/
inductive Op where
  | push
  | pop
  | bind (name : String) (type : Ty)
  | bindAll (bindings : List (String × Ty))
  | bindTypeVar (name : String)

def Op.apply (scope : Scope) : Op → Scope
  | push => scope.push
  | pop => scope.pop
  | bind name type => scope.bind name type
  | bindAll bindings => scope.bindAll bindings
  | bindTypeVar name => scope.bindTypeVar name

/-- A new scope after some operations. -/
def run (ops : List Op) : Scope :=
  ops.foldl Op.apply {}

section History

/-- What happens to a scope, one thing at a time. -/
inductive Event where
  | enter
  | leave
  | bind (name : String) (type : Ty)
  | introduce (name : String)

/-- Several bindings are made from left to right. -/
def Op.events : Op → List Event
  | push => [.enter]
  | pop => [.leave]
  | bind name type => [.bind name type]
  | bindAll bindings => bindings.map fun (name, type) => .bind name type
  | bindTypeVar name => [.introduce name]

def history (ops : List Op) : List Event :=
  ops.flatMap Op.events

/-- How many frames are open after an event. The outermost one is never left. -/
def Event.level (level : Nat) : Event → Nat
  | enter => level + 1
  | leave => max 1 (level - 1)
  | bind _ _ | introduce _ => level

/-- How many frames of a new scope are open after some events. -/
def level (events : List Event) : Nat :=
  events.foldl Event.level 1

/-- That the frame which was current when event number `i` happened is open to the end: since then
there have never been fewer frames. So for each level one frame at most is still open. -/
def StillOpen (events : List Event) (i : Nat) : Prop :=
  ∀ j, i ≤ j → level (events.take i) ≤ level (events.take j)

/-- That event number `i` is the binding of a name that counts in the end. -/
structure Prevails (events : List Event) (name : String) (type : Ty) (i : Nat) : Prop where
  binds : events[i]? = some (.bind name type)
  stillOpen : StillOpen events i
  /-- No frame further in that is still open has bound the name. -/
  innermost : ∀ j type', events[j]? = some (.bind name type') → StillOpen events j →
    level (events.take j) ≤ level (events.take i)
  /-- Nor has this frame bound it again. -/
  latest : ∀ j type', events[j]? = some (.bind name type') → StillOpen events j →
    level (events.take j) = level (events.take i) → j ≤ i

end History

section Events

def Event.apply (scope : Scope) : Event → Scope
  | enter => scope.push
  | leave => scope.pop
  | bind name type => scope.bind name type
  | introduce name => scope.bindTypeVar name

/-- A new scope after some events. -/
def play (events : List Event) : Scope :=
  events.foldl Event.apply {}

theorem Op.apply_eq (scope : Scope) (op : Op) : op.apply scope = op.events.foldl Event.apply scope := by
  cases op with
  | bindAll bindings =>
    rw [Op.events, List.foldl_map]
    rfl
  | _ => rfl

theorem run_eq (ops : List Op) : run ops = play (history ops) := by
  rw [play, history, List.foldl_flatMap]
  exact congrArg (List.foldl · {} ops) (funext₂ fun scope op => op.apply_eq scope)

theorem play_concat (events : List Event) (e : Event) : play (events ++ [e]) = e.apply (play events) := by
  rw [play, List.foldl_append]
  rfl

theorem level_concat (events : List Event) (e : Event) :
    level (events ++ [e]) = e.level (level events) := by
  rw [level, List.foldl_append]
  rfl

theorem depth_apply (scope : Scope) (e : Event) : (e.apply scope).depth = e.level scope.depth := by
  cases e with
  | leave =>
    obtain ⟨current, _ | ⟨frame, outer⟩⟩ := scope
    · rfl
    · simp [Event.apply, pop, depth, frames, Event.level]
  | _ => rfl

theorem depth_play (events : List Event) : (play events).depth = level events := by
  induction events using List.reverseRecOn with
  | nil => rfl
  | append_singleton events e ih => rw [play_concat, depth_apply, ih, level_concat]

end Events

section Matters

variable {α : Type}

/-- One matter, for example the type of a variable: what an event tells about it and what a frame
knows about it. -/
structure Matter (α : Type) where
  tells : Event → Option α
  knows : Frame → Option α
  /-- A new frame knows nothing, -/
  knows_new : knows {} = none := by rfl
  tells_enter : tells .enter = none := by rfl
  tells_leave : tells .leave = none := by rfl
  /-- and a frame knows what was told last. -/
  knows_bind : ∀ frame name type, knows { frame with vars := (name, type) :: frame.vars } =
    (tells (.bind name type)).or (knows frame)
  knows_introduce : ∀ frame name, knows { frame with typeVars := name :: frame.typeVars } =
    (tells (.introduce name)).or (knows frame)

/-- The type of a variable. -/
def typeOf (name : String) : Matter Ty where
  tells
    | .bind name' type => if name = name' then some type else none
    | _ => none
  knows frame := frame.vars.lookup name
  knows_bind frame name' type := by
    by_cases same : name = name'
    · simp [same]
    · simp [List.lookup_cons, beq_false_of_ne same, same]
  knows_introduce _ _ := rfl

theorem tells_typeOf_iff {name : String} {e : Event} {type : Ty} :
    (typeOf name).tells e = some type ↔ e = .bind name type := by
  cases e <;> simp [typeOf, eq_comm]

/-- Whether there is a type variable. -/
def typeVar (name : String) : Matter Unit where
  tells
    | .introduce name' => if name = name' then some () else none
    | _ => none
  knows frame := if frame.typeVars.contains name then some () else none
  knows_bind _ _ _ := rfl
  knows_introduce frame name' := by
    by_cases same : name = name' <;> simp [same]

theorem tells_typeVar_iff {name : String} {e : Event} :
    (typeVar name).tells e = some () ↔ e = .introduce name := by
  cases e <;> simp [typeVar, eq_comm]

/-- What the outermost frames of a scope know, the inner ones first. -/
def recollect (scope : Scope) (outermost : Nat) (m : Matter α) : Option α :=
  (scope.frames.drop (scope.depth - outermost)).findSome? m.knows

variable (scope : Scope) (d : Nat) (m : Matter α)

theorem recollect_min {n : Nat} (all : scope.depth ≤ n) :
    scope.recollect (min d n) m = scope.recollect d m := by
  rw [recollect, recollect, show scope.depth - min d n = scope.depth - d by omega]

theorem recollect_of_depth_le {d : Nat} (all : scope.depth ≤ d) :
    scope.recollect d m = (m.knows scope.current).or (scope.outer.findSome? m.knows) := by
  rw [recollect, Nat.sub_eq_zero_of_le all, List.drop_zero, frames, List.findSome?_cons]
  cases m.knows scope.current <;> rfl

theorem recollect_of_lt_depth {d : Nat} (few : d < scope.depth) :
    scope.recollect d m = (scope.outer.drop (scope.outer.length - d)).findSome? m.knows := by
  have inner : scope.depth - d = scope.outer.length - d + 1 := by
    simp only [depth, frames, List.length_cons] at few ⊢
    omega
  rw [recollect, inner, frames, List.drop_succ_cons]

theorem recollect_push : scope.push.recollect d m = scope.recollect d m := by
  rcases Nat.lt_or_ge scope.depth d with all | few
  · rw [recollect_of_depth_le scope.push m all, recollect, Nat.sub_eq_zero_of_le (Nat.le_of_lt all)]
    simp [push, m.knows_new]
  · rw [recollect_of_lt_depth scope.push m (Nat.lt_succ_of_le few)]
    rfl

theorem recollect_pop : scope.pop.recollect d m = scope.recollect (min d scope.pop.depth) m := by
  obtain ⟨current, _ | ⟨frame, outer⟩⟩ := scope
  · exact (recollect_min _ d m (Nat.le_refl _)).symm
  · have less : min d (outer.length + 1) < outer.length + 2 := by omega
    rw [← recollect_min _ d m (Nat.le_refl _)]
    exact (recollect_of_lt_depth ⟨current, frame :: outer⟩ m less).symm

/-- Something told to the current frame is known if this frame is among those asked. -/
theorem recollect_of_told (scope' : Scope) (outer : scope'.outer = scope.outer) {told : Option α}
    (current : m.knows scope'.current = told.or (m.knows scope.current)) :
    scope'.recollect d m = (if scope.depth ≤ d then told else none).or (scope.recollect d m) := by
  have depths : scope'.depth = scope.depth := by simp only [depth, frames, List.length_cons, outer]
  by_cases all : scope.depth ≤ d
  · rw [recollect_of_depth_le scope' m (depths ▸ all), recollect_of_depth_le scope m all, if_pos all,
      current, outer, Option.or_assoc]
  · rw [recollect_of_lt_depth scope' m (by omega), recollect_of_lt_depth scope m (by omega),
      if_neg all, outer, Option.none_or]

/-- What is known after an event is what it tells, if the frame that it happens in is among those
asked, and before that what the frames knew that are still open. -/
theorem recollect_apply (e : Event) :
    (e.apply scope).recollect d m =
      (if scope.depth ≤ d then m.tells e else none).or
        (scope.recollect (min d (e.level scope.depth)) m) := by
  cases e with
  | enter =>
    rw [Event.level, recollect_min scope d m (Nat.le_succ _), m.tells_enter, ite_self, Option.none_or]
    exact recollect_push scope d m
  | leave =>
    rw [← depth_apply, m.tells_leave, ite_self, Option.none_or]
    exact recollect_pop scope d m
  | bind name type =>
    rw [Event.level, recollect_min scope d m (Nat.le_refl _)]
    exact recollect_of_told scope d m (scope.bind name type) rfl (m.knows_bind scope.current name type)
  | introduce name =>
    rw [Event.level, recollect_min scope d m (Nat.le_refl _)]
    exact recollect_of_told scope d m (scope.bindTypeVar name) rfl
      (m.knows_introduce scope.current name)

end Matters

section Latest

variable {α : Type} {events : List Event} {e : Event} {i d : Nat} {m : Matter α} {a : α}

/-- That the frame of an event is still open and among the outermost ones. -/
def Visible (d : Nat) (events : List Event) (i : Nat) : Prop :=
  StillOpen events i ∧ level (events.take i) ≤ d

/-- What event number `i` tells, if there is one. -/
def told (m : Matter α) (events : List Event) (i : Nat) : Option α :=
  events[i]?.bind m.tells

/-- That an event is the last to tell something of those whose frames are still open and among the
outermost ones. -/
structure Latest (m : Matter α) (d : Nat) (events : List Event) (a : α) (i : Nat) : Prop where
  tells : told m events i = some a
  visible : Visible d events i
  last : ∀ j, i < j → Visible d events j → told m events j = none

theorem told_concat_of_lt (before : i < events.length) : told m (events ++ [e]) i = told m events i := by
  rw [told, told, List.getElem?_append_left before]

theorem told_concat_length : told m (events ++ [e]) events.length = m.tells e := by
  rw [told, List.getElem?_concat_length, Option.bind_some]

theorem told_of_length_le (outside : events.length ≤ i) : told m events i = none := by
  rw [told, List.getElem?_eq_none outside, Option.bind_none]

theorem lt_length_of_told (tells : told m events i = some a) : i < events.length := by
  by_contra outside
  rw [told_of_length_le (Nat.le_of_not_lt outside)] at tells
  contradiction

theorem stillOpen_concat_iff (before : i ≤ events.length) :
    StillOpen (events ++ [e]) i ↔
      StillOpen events i ∧ level (events.take i) ≤ level (events ++ [e]) := by
  have same {j : Nat} (inside : j ≤ events.length) : (events ++ [e]).take j = events.take j :=
    List.take_append_of_le_length inside
  have whole {j : Nat} (outside : events.length < j) : (events ++ [e]).take j = events ++ [e] :=
    List.take_of_length_le (by rw [List.length_append]; exact outside)
  constructor
  · intro opened
    refine ⟨fun j later => ?_, ?_⟩
    · have now := opened (min j events.length) (by omega)
      rwa [same before, same (Nat.min_le_right _ _), ← List.take_eq_take_min] at now
    · have now := opened (events.length + 1) (by omega)
      rwa [same before, whole (Nat.lt_succ_self _)] at now
  · rintro ⟨opened, now⟩ j later
    rw [same before]
    rcases Nat.lt_or_ge events.length j with outside | inside
    · rwa [whole outside]
    · rw [same inside]
      exact opened j later

theorem visible_concat_iff (before : i < events.length) :
    Visible d (events ++ [e]) i ↔ Visible (min d (level (events ++ [e]))) events i := by
  rw [Visible, Visible, stillOpen_concat_iff (Nat.le_of_lt before),
    List.take_append_of_le_length (Nat.le_of_lt before), Nat.le_min]
  constructor
  · rintro ⟨⟨opened, now⟩, among⟩
    exact ⟨opened, among, now⟩
  · rintro ⟨opened, among, now⟩
    exact ⟨⟨opened, now⟩, among⟩

theorem visible_length_iff (kept : e.level (level events) = level events) :
    Visible d (events ++ [e]) events.length ↔ level events ≤ d := by
  rw [Visible, stillOpen_concat_iff (Nat.le_refl _), List.take_left, List.take_length, level_concat, kept]
  constructor
  · exact And.right
  · intro among
    refine ⟨⟨fun j later => ?_, Nat.le_refl _⟩, among⟩
    rw [List.take_length, List.take_of_length_le later]

theorem level_of_tells {told : α} (tells : m.tells e = some told) (n : Nat) : e.level n = n := by
  cases e with
  | enter => rw [m.tells_enter] at tells; contradiction
  | leave => rw [m.tells_leave] at tells; contradiction
  | _ => rfl

/-- What is told in the current frame is the last that is told. -/
theorem latest_concat_of_tells {b : α} (among : level events ≤ d) (tells : m.tells e = some b) :
    (∃ i, Latest m d (events ++ [e]) a i) ↔ b = a := by
  have visible := (visible_length_iff (level_of_tells tells (level events))).mpr among
  constructor
  · rintro ⟨i, latest⟩
    have inside := lt_length_of_told latest.tells
    rw [List.length_append, List.length_singleton] at inside
    rcases Nat.lt_succ_iff_lt_or_eq.mp inside with before | rfl
    · have silent := latest.last events.length before visible
      rw [told_concat_length, tells] at silent
      contradiction
    · have same := latest.tells
      rw [told_concat_length, tells] at same
      exact Option.some.inj same
  · rintro rfl
    refine ⟨events.length, told_concat_length.trans tells, visible, fun j later _ => ?_⟩
    exact told_of_length_le (by rw [List.length_append]; exact later)

/-- If nothing is told, the frames that are open after the event know what they knew before. -/
theorem latest_concat_of_silent (silent : level events ≤ d → m.tells e = none) :
    Latest m d (events ++ [e]) a i ↔ Latest m (min d (level (events ++ [e]))) events a i := by
  have quiet {j : Nat} (outside : events.length ≤ j) (visible : Visible d (events ++ [e]) j) :
      told m (events ++ [e]) j = none := by
    rcases Nat.eq_or_lt_of_le outside with rfl | later
    · rw [told_concat_length]
      cases tells : m.tells e with
      | none => rfl
      | some b =>
        have among := (visible_length_iff (level_of_tells tells (level events))).mp visible
        exact tells.symm.trans (silent among)
    · exact told_of_length_le (by rw [List.length_append]; exact later)
  constructor
  · intro latest
    have before : i < events.length := by
      by_contra outside
      have nothing := latest.tells.symm.trans (quiet (Nat.le_of_not_lt outside) latest.visible)
      contradiction
    refine ⟨(told_concat_of_lt before).symm.trans latest.tells,
      (visible_concat_iff before).mp latest.visible, fun j later visible => ?_⟩
    rcases Nat.lt_or_ge j events.length with inside | outside
    · rw [← told_concat_of_lt inside]
      exact latest.last j later ((visible_concat_iff inside).mpr visible)
    · exact told_of_length_le outside
  · intro latest
    have before := lt_length_of_told latest.tells
    refine ⟨(told_concat_of_lt before).trans latest.tells,
      (visible_concat_iff before).mpr latest.visible, fun j later visible => ?_⟩
    rcases Nat.lt_or_ge j events.length with inside | outside
    · rw [told_concat_of_lt inside]
      exact latest.last j later ((visible_concat_iff inside).mp visible)
    · exact quiet outside visible

/-- What the outermost frames know is what was told last in those of them that are still open. -/
theorem recollect_play_iff : (play events).recollect d m = some a ↔ ∃ i, Latest m d events a i := by
  -- For any number of outermost frames at once: a frame is left by asking for fewer of them before.
  induction events using List.reverseRecOn generalizing d with
  | nil =>
    have nothing : (play []).recollect d m = none := by
      refine List.findSome?_eq_none_iff.mpr fun frame member => ?_
      obtain rfl := List.mem_singleton.mp (List.mem_of_mem_drop member)
      exact m.knows_new
    rw [nothing]
    refine iff_of_false (by simp) ?_
    rintro ⟨i, latest⟩
    exact absurd (lt_length_of_told latest.tells) (Nat.not_lt_zero i)
  | append_singleton events e ih =>
    rw [play_concat, recollect_apply, depth_play, ← level_concat]
    cases news : if level events ≤ d then m.tells e else none with
    | some b =>
      obtain ⟨among, tells⟩ := Option.ite_none_right_eq_some.mp news
      rw [latest_concat_of_tells among tells, Option.some_or, Option.some.injEq]
    | none =>
      have silent (among : level events ≤ d) : m.tells e = none := (if_pos among).symm.trans news
      rw [Option.none_or, ih]
      exact exists_congr fun i => (latest_concat_of_silent silent).symm

theorem exists_last {P : Nat → Prop} {n : Nat} (bounded : ∀ j, P j → j ≤ n) (some : ∃ i, P i) :
    ∃ i, P i ∧ ∀ j, i < j → ¬P j := by
  classical
  obtain ⟨i, holds⟩ := some
  refine ⟨Nat.findGreatest P n, Nat.findGreatest_spec (bounded i holds) holds, fun j later again => ?_⟩
  exact absurd (Nat.le_findGreatest (bounded j again) again) (Nat.not_le_of_lt later)

/-- Something is known if it was told in a frame that is still open. -/
theorem recollect_play_isSome_iff :
    ((play events).recollect d m).isSome = true ↔
      ∃ i a, told m events i = some a ∧ Visible d events i := by
  rw [Option.isSome_iff_exists]
  constructor
  · rintro ⟨a, known⟩
    obtain ⟨i, latest⟩ := recollect_play_iff.mp known
    exact ⟨i, a, latest.tells, latest.visible⟩
  · rintro ⟨i, a, tells, visible⟩
    have bounded (j : Nat) :
        (∃ b, told m events j = some b ∧ Visible d events j) → j ≤ events.length :=
      fun ⟨_, tells, _⟩ => Nat.le_of_lt (lt_length_of_told tells)
    obtain ⟨k, ⟨b, tells, visible⟩, last⟩ := exists_last bounded ⟨i, a, tells, visible⟩
    refine ⟨b, recollect_play_iff.mpr ⟨k, tells, visible, fun j later visible => ?_⟩⟩
    exact Option.eq_none_iff_forall_ne_some.mpr fun c tells => last j later ⟨c, tells, visible⟩

theorem visible_iff_stillOpen (tells : told m events i = some a) :
    Visible (level events) events i ↔ StillOpen events i := by
  refine ⟨And.left, fun opened => ⟨opened, ?_⟩⟩
  simpa using opened events.length (Nat.le_of_lt (lt_length_of_told tells))

end Latest

section Answers

variable {events : List Event} {name : String} {type : Ty} {i : Nat}

theorem told_typeOf_iff :
    told (typeOf name) events i = some type ↔ events[i]? = some (.bind name type) := by
  rw [told, Option.bind_eq_some_iff]
  simp only [tells_typeOf_iff, exists_eq_right]

theorem told_typeVar_iff :
    told (typeVar name) events i = some () ↔ events[i]? = some (.introduce name) := by
  rw [told, Option.bind_eq_some_iff]
  simp only [tells_typeVar_iff, exists_eq_right]

theorem latest_iff_prevails :
    Latest (typeOf name) (level events) events type i ↔ Prevails events name type i := by
  constructor
  · rintro ⟨tells, visible, last⟩
    have earlier {j : Nat} {type' : Ty} (binds : events[j]? = some (.bind name type'))
        (opened : StillOpen events j) : j ≤ i := by
      have again := told_typeOf_iff.mpr binds
      by_contra later
      have silent := last j (Nat.lt_of_not_le later) ((visible_iff_stillOpen again).mpr opened)
      exact Option.some_ne_none type' (again.symm.trans silent)
    exact ⟨told_typeOf_iff.mp tells, visible.1,
      fun j _ binds opened => opened i (earlier binds opened),
      fun j _ binds opened _ => earlier binds opened⟩
  · intro prevails
    have tells := told_typeOf_iff.mpr prevails.binds
    refine ⟨tells, (visible_iff_stillOpen tells).mpr prevails.stillOpen, fun j later visible => ?_⟩
    cases again : told (typeOf name) events j with
    | none => rfl
    | some type' =>
      have binds := told_typeOf_iff.mp again
      have same := Nat.le_antisymm (prevails.innermost j type' binds visible.1)
        (prevails.stillOpen j (Nat.le_of_lt later))
      exact absurd (prevails.latest j type' binds visible.1 same) (Nat.not_le_of_lt later)

theorem lookup_eq_recollect :
    (play events).lookup name = (play events).recollect (level events) (typeOf name) := by
  rw [recollect, depth_play, Nat.sub_self, List.drop_zero]
  rfl

theorem hasTypeVar_eq_recollect :
    (play events).hasTypeVar name = ((play events).recollect (level events) (typeVar name)).isSome := by
  rw [recollect, depth_play, Nat.sub_self, List.drop_zero, Bool.eq_iff_iff, List.findSome?_isSome_iff,
    hasTypeVar, List.any_eq_true]
  simp [typeVar]

/-- A scope answers by its history, whatever has been done to it and in whatever order. It always has
a frame. A variable has the type that it was last given in the innermost frame, still open, that
binds it, and none if no frame that is still open does. A type variable is there exactly if a frame
that is still open has introduced it. -/
theorem answers_follow_history (ops : List Op) (name : String) :
    1 ≤ (run ops).depth ∧ (run ops).depth = level (history ops) ∧
      (∀ type, (run ops).lookup name = some type ↔ ∃ i, Prevails (history ops) name type i) ∧
      ((run ops).lookup name = none ↔
        ∀ i type, (history ops)[i]? = some (.bind name type) → ¬StillOpen (history ops) i) ∧
      ((run ops).hasTypeVar name = true ↔
        ∃ i, (history ops)[i]? = some (.introduce name) ∧ StillOpen (history ops) i) := by
  rw [run_eq]
  generalize history ops = events
  refine ⟨depth_pos _, depth_play events, fun type => ?_, ?_, ?_⟩
  · rw [lookup_eq_recollect, recollect_play_iff]
    exact exists_congr fun i => latest_iff_prevails
  · rw [lookup_eq_recollect, ← Option.not_isSome_iff_eq_none, recollect_play_isSome_iff]
    simp only [told_typeOf_iff, not_exists, not_and]
    refine forall₂_congr fun i type => forall_congr' fun binds => not_congr ?_
    exact visible_iff_stillOpen (told_typeOf_iff.mpr binds)
  · rw [hasTypeVar_eq_recollect, recollect_play_isSome_iff]
    refine exists_congr fun i => ⟨?_, fun ⟨introduces, opened⟩ => ?_⟩
    · rintro ⟨⟨⟩, tells, visible⟩
      exact ⟨told_typeVar_iff.mp tells, visible.1⟩
    · have tells := told_typeVar_iff.mpr introduces
      exact ⟨(), tells, (visible_iff_stillOpen tells).mpr opened⟩

/-- The outermost frame is left in vain, before its variable is bound and after it was hidden. -/
example :
    (run [.pop, .bind "x" .nat, .push, .bindAll [("x", .bool), ("x", .unit)], .pop, .pop]).lookup "x" =
      some .nat :=
  rfl

end Answers

end StellaLang.Scope
