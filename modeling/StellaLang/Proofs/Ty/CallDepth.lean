import StellaLang.Proofs.Ty.Nameless

/-! How deep the calls of substitution and conformance go. Both call themselves on bodies whose
binders have just been renamed, which are no parts of the types they are asked about. Here the two
are written as one round of calls each, and rounds are put together up to a depth: too small a depth
has no answer. A renamed body is as large as it was, so as many rounds as the types are large are
always enough. -/
namespace StellaLang.Ty

section Lists

variable {α β : Type} {as : List α}

theorem mapM_eq_some {f : α → Option β} {g : α → β} (each : ∀ a ∈ as, f a = some (g a)) :
    as.mapM f = some (as.map g) := by
  induction as with
  | nil => rfl
  | cons a as ih =>
    obtain ⟨first, rest⟩ := List.forall_mem_cons.mp each
    rw [List.mapM_cons, first, ih rest]
    rfl

theorem allM_eq_some {f : α → Option Bool} {g : α → Bool} (each : ∀ a ∈ as, f a = some (g a)) :
    as.allM f = some (as.all g) := by
  induction as with
  | nil => rfl
  | cons a as ih =>
    obtain ⟨first, rest⟩ := List.forall_mem_cons.mp each
    rw [List.allM, first, List.all_cons]
    cases g a with
    | true => exact ih rest
    | false => rfl

end Lists

theorem size_pos (t : Ty) : 0 < t.size := by
  cases t <;> simp [size]

section Substitution

/-- The name and the body of a binder below which a type is put in, by calls of substitution. -/
def avoidCapture (call : Ty → String → Ty → Option Ty) (siblings : List String) (y : String) (b : Ty)
    (x : String) (s : Ty) : Option (String × Ty) :=
  if captures y b x s then
    let fresh := Fresh.name y (taken siblings b x s)
    (call b y (var fresh)).map (fresh, ·)
  else return (y, b)

/-- The same for several binders of one body, one after the other. -/
def avoidCaptures (call : Ty → String → Ty → Option Ty) (siblings : List String) :
    List String → Ty → String → Ty → Option (List String × Ty)
  | [], b, _, _ => return ([], b)
  | y :: ys, b, x, s => do
    let (z, c) ← avoidCapture call siblings y b x s
    let (zs, d) ← avoidCaptures call siblings ys c x s
    return (z :: zs, d)

/-- One round of substitution. -/
def substituteBy (call : Ty → String → Ty → Option Ty) (t : Ty) (x : String) (s : Ty) : Option Ty :=
  match t with
  | var y => return if y = x then s else var y
  | arrow ps r => return arrow (← ps.mapM (call · x s)) (← call r x s)
  | forAll xs b =>
    if x ∈ xs then return forAll xs b
    else do
      let (ys, c) ← avoidCaptures call xs xs b x s
      return forAll ys (← call c x s)
  | recursive y b =>
    if y = x then return recursive y b
    else do
      let (z, c) ← avoidCapture call [] y b x s
      return recursive z (← call c x s)
  | tuple ts => return tuple (← ts.mapM (call · x s))
  | sum l r => return sum (← call l x s) (← call r x s)
  | record fs => return record (← fs.mapM fun (l, t) => return (l, ← call t x s))
  | variant fs =>
    return variant (← fs.mapM fun (l, payload) =>
      match payload with
      | none => return (l, none)
      | some t => return (l, some (← call t x s)))
  | list t => return list (← call t x s)
  | ref t => return ref (← call t x s)
  | bool | nat | unit | top | bottom | never | unknown | error => return t

/-- Substitution with calls no deeper than a limit. -/
def substituteWithin : Nat → Ty → String → Ty → Option Ty
  | 0 => fun _ _ _ => none
  | depth + 1 => substituteBy (substituteWithin depth)

/-- That calls of substitution give the right answer on types up to a size. -/
def SubstitutesUpTo (n : Nat) (call : Ty → String → Ty → Option Ty) : Prop :=
  ∀ t x s, t.size ≤ n → call t x s = some (t.substitute x s)

variable {n : Nat} {call : Ty → String → Ty → Option Ty} (right : SubstitutesUpTo n call)

include right

/-- A body keeps its size when its binder gets another name. -/
theorem avoidCapture_eq (siblings : List String) (y : String) {b : Ty} (small : b.size ≤ n) (x : String)
    (s : Ty) :
    ∃ z c, avoidCapture call siblings y b x s = some (z, c) ∧ c.size = b.size ∧
      (∀ ys, (renameBinders siblings (y :: ys) b x s).1 =
        (z :: (renameBinders siblings ys c x s).1.1, (renameBinders siblings ys c x s).1.2)) := by
  rw [avoidCapture]
  by_cases captured : captures y b x s = true
  · simp only [if_pos captured, right b y _ small]
    refine ⟨_, _, rfl, size_substitute_var .., fun ys => ?_⟩
    rw [renameBinders, if_pos captured]
    rfl
  · rw [if_neg captured]
    refine ⟨y, b, rfl, rfl, fun ys => ?_⟩
    rw [renameBinders, if_neg captured]

theorem avoidCaptures_eq (siblings : List String) {ys : List String} {b : Ty} (small : b.size ≤ n)
    (x : String) (s : Ty) :
    avoidCaptures call siblings ys b x s = some (renameBinders siblings ys b x s).1 := by
  induction ys generalizing b with
  | nil =>
    rw [renameBinders_nil]
    rfl
  | cons y ys ih =>
    obtain ⟨z, c, found, sameSize, renamed⟩ := avoidCapture_eq right siblings y small x s
    rw [avoidCaptures, found, renamed]
    simp [ih (sameSize ▸ small)]

/-- The answer of a round whose calls are right is right for types that are larger by one. -/
theorem substituteBy_eq {t : Ty} (small : t.size ≤ n + 1) (x : String) (s : Ty) :
    substituteBy call t x s = some (t.substitute x s) := by
  cases t with
  | var y =>
    rw [substituteBy, substitute_var]
    rfl
  | arrow ps r =>
    rw [size] at small
    have params : ps.mapM (call · x s) = some (ps.map (·.substitute x s)) :=
      mapM_eq_some fun p member => right p x s (by have := size_lt_of_mem member; omega)
    rw [substituteBy, substitute_arrow, params, right r x s (by omega)]
    rfl
  | forAll xs b =>
    rw [size] at small
    rw [substituteBy, substitute_forAll]
    split
    · rfl
    · have sameSize := (renameBinders xs xs b x s).2.2
      rw [avoidCaptures_eq right xs (by omega) x s]
      simp [right _ x s (show (renameBinders xs xs b x s).1.2.size ≤ n by omega)]
  | recursive y b =>
    rw [size] at small
    rw [substituteBy]
    split
    · rw [substitute_recursive, if_pos ‹y = x›]
      rfl
    · obtain ⟨z, c, found, sameSize, renamed⟩ := avoidCapture_eq right [] y (b := b) (by omega) x s
      obtain ⟨fresh, binder, substituted⟩ := substitute_recursive_eq (b := b) (s := s) ‹y ≠ x›
      obtain rfl : z = fresh := by simpa [renamed, renameBinders_nil] using binder
      simp only [renamed, renameBinders_nil] at substituted
      rw [found, substituted]
      simp [right c x s (by omega)]
  | tuple ts =>
    rw [size] at small
    have elements : ts.mapM (call · x s) = some (ts.map (·.substitute x s)) :=
      mapM_eq_some fun t member => right t x s (by have := size_lt_of_mem member; omega)
    rw [substituteBy, substitute_tuple, elements]
    rfl
  | sum l r =>
    rw [size] at small
    rw [substituteBy, substitute_sum, right l x s (by omega), right r x s (by omega)]
    rfl
  | record fs =>
    rw [size] at small
    rw [substituteBy, substitute_record]
    refine congrArg (· >>= fun fs => some (record fs)) (mapM_eq_some ?_)
    rintro ⟨l, t⟩ member
    have smaller := size_lt_of_mem_fields member
    simp [right t x s (by omega)]
  | variant fs =>
    rw [size] at small
    rw [substituteBy, substitute_variant]
    refine congrArg (· >>= fun fs => some (variant fs)) (mapM_eq_some ?_)
    rintro ⟨l, payload⟩ member
    cases payload with
    | none => rfl
    | some t =>
      have smaller := size_lt_of_mem_alternatives member
      simp [right t x s (by omega)]
  | list t =>
    rw [size] at small
    rw [substituteBy, substitute_list, right t x s (by omega)]
    rfl
  | ref t =>
    rw [size] at small
    rw [substituteBy, substitute_ref, right t x s (by omega)]
    rfl
  | _ => simp [substituteBy, substitute, substituteSized]

omit right in
theorem substituteWithin_upTo (depth : Nat) : SubstitutesUpTo depth (substituteWithin depth) := by
  induction depth with
  | zero =>
    intro t x s small
    have positive := size_pos t
    omega
  | succ depth ih => exact fun t x s small => substituteBy_eq ih small x s

end Substitution

section Conformance

/-- Binders of two bodies under one name, by calls of substitution. -/
def alignBy (substitute : Ty → String → Ty → Option Ty) (bodies : Ty × Ty) (binders : String × String) :
    Option (Ty × Ty) := do
  let fresh := var (Fresh.name "'" (bodies.1.freeNames ++ bodies.2.freeNames))
  return (← substitute bodies.1 binders.1 fresh, ← substitute bodies.2 binders.2 fresh)

/-- Two lists of one length by calls of conformance, until one says no. -/
def allBy (call : Ty → Ty → Option Bool) (ts us : List Ty) : Option Bool :=
  pure (ts.length == us.length) <&&> (ts.zip us).allM fun (t, u) => call t u

def fieldsBy (call : Ty → Ty → Option Bool) (fs gs : List (String × Ty)) : Option Bool :=
  gs.allM fun (l, u) =>
    match fs.lookup l with
    | some t => call t u
    | none => return false

def alternativesBy (call : Ty → Ty → Option Bool) (fs gs : List (String × Option Ty)) : Option Bool :=
  fs.allM fun (l, payload) =>
    match payload, gs.lookup l with
    | some t, some (some u) => call t u
    | none, some none => return true
    | _, _ => return false

/-- One round of conformance. -/
def conformsBy (substitute : Ty → String → Ty → Option Ty) (call : Ty → Ty → Option Bool)
    (subtyping : Bool) (t u : Ty) : Option Bool :=
  if t.isWildcard || u.isWildcard then return true
  else if subtyping && (u.isTop || t.isBottom) then return true
  else
    match t, u with
    | bool, bool | nat, nat | unit, unit | top, top | bottom, bottom => return true
    | var x, var y => return x == y
    | arrow ps r, arrow qs s => allBy call qs ps <&&> call r s
    | forAll xs b, forAll ys c =>
      pure (xs.length == ys.length) <&&> do
        let (b, c) ← (xs.zip ys).foldlM (alignBy substitute) (b, c)
        call b c
    | recursive x b, recursive y c => do
      let (b, c) ← alignBy substitute (b, c) (x, y)
      call b c
    | tuple ts, tuple us => allBy call ts us
    | sum l r, sum l' r' => call l l' <&&> call r r'
    | record fs, record gs => pure (subtyping || fs.length == gs.length) <&&> fieldsBy call fs gs
    | variant fs, variant gs => alternativesBy call fs gs
    | list t, list u => call t u
    | ref t, ref u => call t u <&&> call u t
    | _, _ => return false

/-- Conformance with calls no deeper than a limit, those of substitution included. -/
def conformsWithin (subtyping : Bool) : Nat → Ty → Ty → Option Bool
  | 0 => fun _ _ => none
  | depth + 1 => conformsBy (substituteWithin depth) (conformsWithin subtyping depth) subtyping

theorem both_eq_some {p q : Option Bool} {a b : Bool} (first : p = some a) (second : q = some b) :
    (p <&&> q) = some (a && b) := by
  rw [first, second]
  cases a <;> rfl

section Alignment

variable {n : Nat} {substitute : Ty → String → Ty → Option Ty} (put : SubstitutesUpTo n substitute)

include put

theorem alignBy_eq {b c : Ty} (small : b.size ≤ n) (small' : c.size ≤ n) (x y : String) :
    alignBy substitute (b, c) (x, y) = some (align b x c y) := by
  simp only [alignBy, put b x _ small, put c y _ small']
  rfl

theorem alignAllBy_eq {xys : List (String × String)} {b c : Ty} (small : b.size ≤ n)
    (small' : c.size ≤ n) : xys.foldlM (alignBy substitute) (b, c) = some (alignAll xys b c) := by
  induction xys generalizing b c with
  | nil => rfl
  | cons xy xys ih =>
    obtain ⟨sameSize, sameSize'⟩ := size_align b c xy.1 xy.2
    rw [List.foldlM_cons, alignBy_eq put small small']
    exact ih (sameSize ▸ small) (sameSize' ▸ small')

end Alignment

variable {n : Nat} {subtyping : Bool}

/-- That calls of conformance give the right answer on two types that are together no larger than a
size. -/
def ConformsUpTo (n : Nat) (subtyping : Bool) (call : Ty → Ty → Option Bool) : Prop :=
  ∀ t u, t.size + u.size ≤ n → call t u = some (conforms subtyping t u)

section Lists

variable {call : Ty → Ty → Option Bool} (right : ConformsUpTo n subtyping call)

include right

theorem allBy_eq {ts us : List Ty} (small : sizes ts + sizes us ≤ n) :
    allBy call ts us = some (conformsAll subtyping ts us) := by
  have whole : conformsAll subtyping ts us =
      (ts.length == us.length && (ts.zip us).all fun (t, u) => conforms subtyping t u) := by
    rw [Bool.eq_iff_iff, conformsAll_iff]
    simp
  rw [whole]
  refine both_eq_some rfl (allM_eq_some fun (t, u) member => right t u ?_)
  have smaller := size_lt_of_mem (List.of_mem_zip member).1
  have smaller' := size_lt_of_mem (List.of_mem_zip member).2
  omega

theorem fieldsBy_eq {fs gs : List (String × Ty)} (small : fieldSizes fs + fieldSizes gs ≤ n) :
    fieldsBy call fs gs = some (conformsFields subtyping fs gs) := by
  have whole : conformsFields subtyping fs gs =
      gs.all fun (l, u) => (fs.lookup l).any (conforms subtyping · u) := by
    rw [Bool.eq_iff_iff, conformsFields_iff]
    simp [Option.any_eq_true]
  rw [whole]
  refine allM_eq_some fun (l, u) member => ?_
  have smaller := size_lt_of_mem_fields member
  dsimp only
  cases found : fs.lookup l with
  | none => rfl
  | some t =>
    have smaller' := size_lt_of_lookup found
    exact right t u (by omega)

theorem alternativesBy_eq {fs gs : List (String × Option Ty)}
    (small : alternativeSizes fs + alternativeSizes gs ≤ n) :
    alternativesBy call fs gs = some (conformsAlternatives subtyping fs gs) := by
  have whole : conformsAlternatives subtyping fs gs =
      fs.all fun (l, payload) => (gs.lookup l).any (conformsPayload subtyping payload) := by
    rw [Bool.eq_iff_iff, conformsAlternatives_iff]
    simp [Option.any_eq_true]
  rw [whole]
  refine allM_eq_some fun (l, payload) member => ?_
  dsimp only
  cases found : gs.lookup l with
  | none => cases payload <;> rfl
  | some payload' =>
    cases payload with
    | none => cases payload' <;> rfl
    | some t =>
      cases payload' with
      | none => rfl
      | some u =>
        have smaller := size_lt_of_mem_alternatives member
        have smaller' := size_lt_of_lookup_alternative found
        exact right t u (by omega)

end Lists

theorem conformsBy_eq {substitute : Ty → String → Ty → Option Ty} {call : Ty → Ty → Option Bool}
    (put : SubstitutesUpTo n substitute) (right : ConformsUpTo n subtyping call) {t u : Ty}
    (small : t.size + u.size ≤ n + 1) :
    conformsBy substitute call subtyping t u = some (conforms subtyping t u) := by
  rw [conforms.eq_def]
  unfold conformsBy
  split
  · rfl
  split
  · rfl
  split
  case h_7 ps r qs s _ _ =>
    simp only [size] at small
    exact both_eq_some (allBy_eq right (by omega)) (right r s (by omega))
  case h_8 xs b ys c _ _ =>
    simp only [size] at small
    have sameSizes := size_alignAll (xs.zip ys) b c
    refine both_eq_some rfl ?_
    rw [alignAllBy_eq put (by omega) (by omega)]
    exact right (alignAll (xs.zip ys) b c).1 (alignAll (xs.zip ys) b c).2 (by omega)
  case h_9 x b y c _ _ =>
    simp only [size] at small
    have sameSizes := size_align b c x y
    rw [alignBy_eq put (by omega) (by omega)]
    exact right (align b x c y).1 (align b x c y).2 (by omega)
  case h_10 ts us _ _ =>
    simp only [size] at small
    exact allBy_eq right (by omega)
  case h_11 l r l' r' _ _ =>
    simp only [size] at small
    exact both_eq_some (right l l' (by omega)) (right r r' (by omega))
  case h_12 fs gs _ _ =>
    simp only [size] at small
    exact both_eq_some rfl (fieldsBy_eq right (by omega))
  case h_13 fs gs _ _ =>
    simp only [size] at small
    exact alternativesBy_eq right (by omega)
  case h_14 t u _ _ =>
    simp only [size] at small
    exact right t u (by omega)
  case h_15 t u _ _ =>
    simp only [size] at small
    exact both_eq_some (right t u (by omega)) (right u t (by omega))
  case h_16 => grind [Option.pure_def]
  all_goals rfl

theorem conformsWithin_upTo (subtyping : Bool) (depth : Nat) :
    ConformsUpTo depth subtyping (conformsWithin subtyping depth) := by
  induction depth with
  | zero =>
    intro t u small
    have positive := size_pos t
    omega
  | succ depth ih => exact fun t u small => conformsBy_eq (substituteWithin_upTo depth) ih small

/-- Every call comes to an end. A variable put in for a variable keeps the size of a type. So the calls
of substitution are nested no deeper than its type is large, and those of conformance no deeper
than its two types are together, whatever is put in and in both modes. -/
theorem calls_end :
    (∀ (t : Ty) (x y : String), (t.substitute x (var y)).size = t.size) ∧
      (∀ (t : Ty) (x : String) (s : Ty) (more : Nat),
        substituteWithin (t.size + more) t x s = some (t.substitute x s)) ∧
      ∀ (subtyping : Bool) (t u : Ty) (more : Nat),
        conformsWithin subtyping (t.size + u.size + more) t u = some (conforms subtyping t u) := by
  refine ⟨size_substitute_var, fun t x s more => ?_, fun subtyping t u more => ?_⟩
  · exact substituteWithin_upTo _ t x s (Nat.le_add_right _ _)
  · exact conformsWithin_upTo subtyping _ t u (Nat.le_add_right _ _)

/-- A renamed body is no part of the type, and is looked at one call deeper. -/
example : let t := recursive "a" (list (var "b"))
    substituteWithin 2 t "b" (var "a") = none ∧
      substituteWithin 3 t "b" (var "a") = some (recursive "a1" (list (var "a"))) :=
  ⟨rfl, rfl⟩

end Conformance

end StellaLang.Ty
