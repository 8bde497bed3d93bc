import StellaLang.Typing.Annotation

/-! Patterns against the types of what they take apart. The answer is the variables a
pattern binds, from left to right. -/
namespace StellaLang.Typing

open Syntax (Pattern)

abbrev Bindings := List (String × Ty)

/-- Reports that no value of a type has the shape of a pattern. -/
def unexpectedPattern (t : Ty) (position : Option Position) : Check Bindings := do
  let _ ← Check.report (.patternMismatch t) position
  return []

/-- A literal asks for the type of its values and binds nothing. -/
def literalBindings (ctx : Context) (t expected : Ty) (position : Option Position) :
    Check Bindings :=
  if ctx.conforms t expected then return [] else unexpectedPattern t position

mutual

/-- The variables of a pattern for values of a type. Once checking has halted, none. -/
def bindings (ctx : Context) (t : Ty) : Located Pattern → Check Bindings
  | ⟨p, position⟩ => Check.guarded [] (bindingsNode ctx t position p)

/-- The same, halted or not, for the pattern itself. -/
def bindingsNode (ctx : Context) (t : Ty) (position : Option Position) : Pattern → Check Bindings
  | .castAs p type => do
    let target ← meaning ctx type
    unless t.castableTo target do
      let _ ← Check.report (.illegalCast t target) position
    bindings ctx target p
  | .ascribed p type => do
    let ascribed ← meaning ctx type
    Check.require ctx t ascribed position
    bindings ctx ascribed p
  | .variant l payload =>
    match t with
    | .variant fs =>
      match fs.lookup l, payload with
      | none, _ => do
        let _ ← Check.report (.unexpectedVariantLabel l) position
        return []
      | some (some u), some p => bindings ctx u p
      | some none, none => return []
      | _, _ => unexpectedPattern t position
    | _ =>
      if t.isWildcard then
        match payload with
        | some p => bindings ctx t p
        | none => return []
      else do
        let _ ← Check.report (.notAVariant t) position
        return []
  | .inl p =>
    match t with
    | .sum l _ => bindings ctx l p
    | _ => if t.isWildcard then bindings ctx t p else unexpectedPattern t position
  | .inr p =>
    match t with
    | .sum _ r => bindings ctx r p
    | _ => if t.isWildcard then bindings ctx t p else unexpectedPattern t position
  | .tuple ps =>
    match t with
    | .tuple ts =>
      if ts.length = ps.length then bindingsEach ctx ts ps else unexpectedPattern t position
    | _ => if t.isWildcard then bindingsAll ctx t ps else unexpectedPattern t position
  | .record fs =>
    match t with
    | .record gs => bindingsFields ctx gs position fs
    | _ => if t.isWildcard then bindingsFieldsAll ctx t fs else unexpectedPattern t position
  | .list ps =>
    match t with
    | .list u => bindingsAll ctx u ps
    | _ => if t.isWildcard then bindingsAll ctx t ps else unexpectedPattern t position
  | .cons h tail =>
    match t with
    | .list u => return (← bindings ctx u h) ++ (← bindings ctx t tail)
    | _ =>
      if t.isWildcard then return (← bindings ctx t h) ++ (← bindings ctx t tail)
      else unexpectedPattern t position
  | .bool _ => literalBindings ctx t .bool position
  | .unit => literalBindings ctx t .unit position
  | .nat _ => literalBindings ctx t .nat position
  | .succ p => return (← literalBindings ctx t .nat position) ++ (← bindings ctx .nat p)
  | .var x => return [(x, t)]

/-- Patterns for values of one type. -/
def bindingsAll (ctx : Context) (t : Ty) : List (Located Pattern) → Check Bindings
  | [] => return []
  | p :: ps => return (← bindings ctx t p) ++ (← bindingsAll ctx t ps)

/-- Each pattern for values of its own type. -/
def bindingsEach (ctx : Context) (ts : List Ty) : List (Located Pattern) → Check Bindings
  | [] => return []
  | p :: ps =>
    match ts with
    | [] => return []
    | t :: ts => return (← bindings ctx t p) ++ (← bindingsEach ctx ts ps)

/-- Labelled patterns for the fields of a record type. Of fields with one label the
first counts. -/
def bindingsFields (ctx : Context) (gs : List (String × Ty)) (position : Option Position) :
    List (String × Located Pattern) → Check Bindings
  | [] => return []
  | (l, p) :: fs =>
    match gs.lookup l with
    | some t => return (← bindings ctx t p) ++ (← bindingsFields ctx gs position fs)
    | none => do
      let _ ← Check.report (.missingRecordField l (.record gs)) position
      bindingsFields ctx gs position fs

/-- Labelled patterns for values of one type. -/
def bindingsFieldsAll (ctx : Context) (t : Ty) : List (String × Located Pattern) → Check Bindings
  | [] => return []
  | (_, p) :: fs => return (← bindings ctx t p) ++ (← bindingsFieldsAll ctx t fs)

end

theorem bindingsNode_variant (ctx : Context) (fs : List (String × Option Ty))
    (position : Option Position) (l : String) (payload : Option (Located Pattern)) :
    bindingsNode ctx (.variant fs) position (.variant l payload) =
      match fs.lookup l, payload with
      | none, _ => do
        let _ ← Check.report (.unexpectedVariantLabel l) position
        return []
      | some (some u), some p => bindings ctx u p
      | some none, none => return []
      | _, _ => unexpectedPattern (.variant fs) position := by
  rw [bindingsNode.eq_def]

theorem bindingsFields_cons (ctx : Context) (gs : List (String × Ty))
    (position : Option Position) (l : String) (p : Located Pattern)
    (fs : List (String × Located Pattern)) :
    bindingsFields ctx gs position ((l, p) :: fs) =
      match gs.lookup l with
      | none => Check.report (.missingRecordField l (.record gs)) position >>= fun _ =>
        bindingsFields ctx gs position fs
      | some t => do return (← bindings ctx t p) ++ (← bindingsFields ctx gs position fs) := by
  rw [bindingsFields.eq_def]
  dsimp only
  cases gs.lookup l <;> rfl

end StellaLang.Typing
