import StellaLang.Ty.Basic
import StellaLang.Ty.Fresh

/-! Substitution of a type for the free occurrences of a variable. A binder whose
name is free in the type put in is renamed first, if the variable occurs in its
scope. -/
namespace StellaLang.Ty

/-- The names that a binder of `body` may not be renamed to when `s` is put in for
`x` below it and below its `siblings`. -/
def taken (siblings : List String) (body : Ty) (x : String) (s : Ty) : List String :=
  x :: siblings ++ s.freeNames ++ body.freeNames

/-- Whether a binder `y` of `body` would capture a name of `s` put in for `x`. -/
def captures (y : String) (body : Ty) (x : String) (s : Ty) : Bool :=
  s.mentions y && body.mentions x

mutual

/-- Substitution, with the reason why its own recursion ends: putting in a variable
keeps the size. -/
def substituteSized (t : Ty) (x : String) (s : Ty) :
    { r : Ty // s.isVar = true → r.size = t.size } :=
  match t with
  | var y =>
    if y = x then ⟨s, fun h => by cases s <;> simp_all [isVar, size]⟩ else ⟨var y, fun _ => rfl⟩
  | arrow ps r =>
    let ps' := substituteAllSized ps x s
    let r' := substituteSized r x s
    ⟨arrow ps'.1 r'.1, fun h => by simp only [size, ps'.2 h, r'.2 h]⟩
  | forAll xs b =>
    if x ∈ xs then ⟨forAll xs b, fun _ => rfl⟩
    else
      match renameBinders xs xs b x s with
      | ⟨(ys, c), sameLength, sameSize⟩ =>
        have equal : c.size = b.size := sameSize
        let c' := substituteSized c x s
        ⟨forAll ys c'.1, fun h => by
          simp only [size, c'.2 h, equal, show ys.length = xs.length from sameLength]⟩
  | recursive y b =>
    if y = x then ⟨recursive y b, fun _ => rfl⟩
    else if captures y b x s then
      let fresh := Fresh.name y (taken [] b x s)
      match substituteSized b y (var fresh) with
      | ⟨c, sameSize⟩ =>
        have := sameSize rfl
        let c' := substituteSized c x s
        ⟨recursive fresh c'.1, fun h => by simp only [size, c'.2 h, this]⟩
    else
      let b' := substituteSized b x s
      ⟨recursive y b'.1, fun h => by simp only [size, b'.2 h]⟩
  | tuple ts =>
    let ts' := substituteAllSized ts x s
    ⟨tuple ts'.1, fun h => by simp only [size, ts'.2 h]⟩
  | sum l r =>
    let l' := substituteSized l x s
    let r' := substituteSized r x s
    ⟨sum l'.1 r'.1, fun h => by simp only [size, l'.2 h, r'.2 h]⟩
  | record fs =>
    let fs' := substituteFieldsSized fs x s
    ⟨record fs'.1, fun h => by simp only [size, fs'.2 h]⟩
  | variant fs =>
    let fs' := substituteAlternativesSized fs x s
    ⟨variant fs'.1, fun h => by simp only [size, fs'.2 h]⟩
  | list t =>
    let t' := substituteSized t x s
    ⟨list t'.1, fun h => by simp only [size, t'.2 h]⟩
  | ref t =>
    let t' := substituteSized t x s
    ⟨ref t'.1, fun h => by simp only [size, t'.2 h]⟩
  | bool => ⟨bool, fun _ => rfl⟩
  | nat => ⟨nat, fun _ => rfl⟩
  | unit => ⟨unit, fun _ => rfl⟩
  | top => ⟨top, fun _ => rfl⟩
  | bottom => ⟨bottom, fun _ => rfl⟩
  | never => ⟨never, fun _ => rfl⟩
  | unknown => ⟨unknown, fun _ => rfl⟩
  | error => ⟨error, fun _ => rfl⟩
termination_by t.size
decreasing_by all_goals (simp only [size]; omega)

def substituteAllSized (ts : List Ty) (x : String) (s : Ty) :
    { rs : List Ty // s.isVar = true → sizes rs = sizes ts } :=
  match ts with
  | [] => ⟨[], fun _ => rfl⟩
  | t :: ts =>
    let t' := substituteSized t x s
    let ts' := substituteAllSized ts x s
    ⟨t'.1 :: ts'.1, fun h => by simp only [sizes, t'.2 h, ts'.2 h]⟩
termination_by sizes ts
decreasing_by all_goals (simp only [sizes]; omega)

def substituteFieldsSized (fs : List (String × Ty)) (x : String) (s : Ty) :
    { rs : List (String × Ty) // s.isVar = true → fieldSizes rs = fieldSizes fs } :=
  match fs with
  | [] => ⟨[], fun _ => rfl⟩
  | (l, t) :: fs =>
    let t' := substituteSized t x s
    let fs' := substituteFieldsSized fs x s
    ⟨(l, t'.1) :: fs'.1, fun h => by simp only [fieldSizes, t'.2 h, fs'.2 h]⟩
termination_by fieldSizes fs
decreasing_by all_goals (simp only [fieldSizes]; omega)

def substituteAlternativesSized (fs : List (String × Option Ty)) (x : String) (s : Ty) :
    { rs : List (String × Option Ty) //
      s.isVar = true → alternativeSizes rs = alternativeSizes fs } :=
  match fs with
  | [] => ⟨[], fun _ => rfl⟩
  | (l, none) :: fs =>
    let fs' := substituteAlternativesSized fs x s
    ⟨(l, none) :: fs'.1, fun h => by simp only [alternativeSizes, fs'.2 h]⟩
  | (l, some t) :: fs =>
    let t' := substituteSized t x s
    let fs' := substituteAlternativesSized fs x s
    ⟨(l, some t'.1) :: fs'.1, fun h => by simp only [alternativeSizes, t'.2 h, fs'.2 h]⟩
termination_by alternativeSizes fs
decreasing_by all_goals (simp only [alternativeSizes]; omega)

/-- Renames those of the binders `ys` of a body that would capture a name of `s`, one
after the other. The binders' `siblings` are names no binder is renamed to. -/
def renameBinders (siblings ys : List String) (b : Ty) (x : String) (s : Ty) :
    { r : List String × Ty // r.1.length = ys.length ∧ r.2.size = b.size } :=
  match ys with
  | [] => ⟨([], b), rfl, rfl⟩
  | y :: ys =>
    if captures y b x s then
      let fresh := Fresh.name y (taken siblings b x s)
      match substituteSized b y (var fresh) with
      | ⟨c, sameSize⟩ =>
        have := sameSize rfl
        let rest := renameBinders siblings ys c x s
        ⟨(fresh :: rest.1.1, rest.1.2), by simp [rest.2.1], rest.2.2.trans this⟩
    else
      let rest := renameBinders siblings ys b x s
      ⟨(y :: rest.1.1, rest.1.2), by simp [rest.2.1], rest.2.2⟩
termination_by b.size + ys.length + 1
decreasing_by all_goals (simp only [List.length_cons]; omega)

end

/-- The type with `s` in place of every free occurrence of `x`. -/
def substitute (t : Ty) (x : String) (s : Ty) : Ty :=
  (substituteSized t x s).1

theorem size_substitute_var (t : Ty) (x y : String) :
    (t.substitute x (var y)).size = t.size :=
  (substituteSized t x (var y)).2 rfl

theorem substituteAllSized_val (ts : List Ty) (x : String) (s : Ty) :
    (substituteAllSized ts x s).1 = ts.map (·.substitute x s) := by
  induction ts with
  | nil => simp [substituteAllSized]
  | cons t ts ih => simp [substituteAllSized, substitute, ih]

theorem substituteFieldsSized_val (fs : List (String × Ty)) (x : String) (s : Ty) :
    (substituteFieldsSized fs x s).1 = fs.map fun (l, t) => (l, t.substitute x s) := by
  induction fs with
  | nil => simp [substituteFieldsSized]
  | cons f fs ih =>
    obtain ⟨l, t⟩ := f
    simp [substituteFieldsSized, substitute, ih]

theorem substituteAlternativesSized_val (fs : List (String × Option Ty)) (x : String) (s : Ty) :
    (substituteAlternativesSized fs x s).1 =
      fs.map fun (l, t) => (l, t.map (·.substitute x s)) := by
  induction fs with
  | nil => simp [substituteAlternativesSized]
  | cons f fs ih =>
    obtain ⟨l, t⟩ := f
    cases t with
    | none => simp [substituteAlternativesSized, ih]
    | some t => simp [substituteAlternativesSized, substitute, ih]

@[simp] theorem substitute_var (y x : String) (s : Ty) :
    (var y).substitute x s = if y = x then s else var y := by
  simp only [substitute, substituteSized]
  split <;> rfl

@[simp] theorem substitute_arrow (ps : List Ty) (r : Ty) (x : String) (s : Ty) :
    (arrow ps r).substitute x s = arrow (ps.map (·.substitute x s)) (r.substitute x s) := by
  simp [substitute, substituteSized, substituteAllSized_val]

@[simp] theorem substitute_tuple (ts : List Ty) (x : String) (s : Ty) :
    (tuple ts).substitute x s = tuple (ts.map (·.substitute x s)) := by
  simp [substitute, substituteSized, substituteAllSized_val]

@[simp] theorem substitute_sum (l r : Ty) (x : String) (s : Ty) :
    (sum l r).substitute x s = sum (l.substitute x s) (r.substitute x s) := by
  simp [substitute, substituteSized]

@[simp] theorem substitute_record (fs : List (String × Ty)) (x : String) (s : Ty) :
    (record fs).substitute x s = record (fs.map fun (l, t) => (l, t.substitute x s)) := by
  simp [substitute, substituteSized, substituteFieldsSized_val]

@[simp] theorem substitute_variant (fs : List (String × Option Ty)) (x : String) (s : Ty) :
    (variant fs).substitute x s =
      variant (fs.map fun (l, t) => (l, t.map (·.substitute x s))) := by
  simp [substitute, substituteSized, substituteAlternativesSized_val]

@[simp] theorem substitute_list (t : Ty) (x : String) (s : Ty) :
    (list t).substitute x s = list (t.substitute x s) := by
  simp [substitute, substituteSized]

@[simp] theorem substitute_ref (t : Ty) (x : String) (s : Ty) :
    (ref t).substitute x s = ref (t.substitute x s) := by
  simp [substitute, substituteSized]

/-- Below a binder of the same name nothing is free; below one that captures a name, the
binder is renamed first. -/
theorem substitute_recursive (y : String) (b : Ty) (x : String) (s : Ty) :
    (recursive y b).substitute x s =
      if y = x then recursive y b
      else if captures y b x s then
        let fresh := Fresh.name y (taken [] b x s)
        recursive fresh ((b.substitute y (var fresh)).substitute x s)
      else recursive y (b.substitute x s) := by
  simp only [substitute]
  rw [substituteSized]
  split
  · rfl
  · split <;> rfl

theorem substitute_forAll (xs : List String) (b : Ty) (x : String) (s : Ty) :
    (forAll xs b).substitute x s =
      if x ∈ xs then forAll xs b
      else
        let renamed := (renameBinders xs xs b x s).1
        forAll renamed.1 (renamed.2.substitute x s) := by
  simp only [substitute]
  rw [substituteSized]
  split
  · rfl
  · obtain ⟨⟨ys, c⟩, _, _⟩ := renameBinders xs xs b x s
    rfl

/-- One step of unfolding a recursive type: the type itself for its variable. Other
types stay. -/
def unfold : Ty → Ty
  | recursive x b => b.substitute x (recursive x b)
  | t => t

/-- Renames those of the binders `xs` that occur free in the arguments. The names of
`siblings` are not used for that. -/
def renameApart (args : List Ty) (siblings : List String) : List String → Ty → List String × Ty
  | [], body => ([], body)
  | x :: xs, body =>
    if (freeNamesAll args).contains x then
      let fresh := Fresh.name x (freeNamesAll args ++ body.freeNames ++ siblings)
      let rest := renameApart args siblings xs (body.substitute x (var fresh))
      (fresh :: rest.1, rest.2)
    else
      let rest := renameApart args siblings xs body
      (x :: rest.1, rest.2)

/-- The body of a universal type with an argument for each variable, all put in at
once: no argument is put into another one. -/
def instantiate (xs : List String) (body : Ty) (args : List Ty) : Ty :=
  let apart := renameApart args xs xs body
  (apart.1.zip args).foldl (fun t (x, arg) => t.substitute x arg) apart.2

end StellaLang.Ty
