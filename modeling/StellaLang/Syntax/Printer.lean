import StellaLang.Layout
import StellaLang.Syntax.Decl

/-! Programs and their parts as text. Parentheses stand where a part binds less
tightly than the place it is written in. Types and patterns take one line; the
other families are laid out by a style. -/
namespace StellaLang.Syntax

open Layout (Doc Style)

def commaSeparated (parts : List String) : String :=
  String.intercalate ", " parts

/-- Parentheses around a text that binds less tightly than its place asks. -/
def wrap (own place : Nat) (text : String) : String :=
  if own < place then "(" ++ text ++ ")" else text

namespace TypeExpr

/-- How tightly function, universal and recursive types bind. -/
def loosest : Nat := 0
def sumLevel : Nat := 1
def atomLevel : Nat := 2

mutual

/-- The text of a type at a place that asks for a level of binding. -/
def text (place : Nat) : Located TypeExpr → String
  | ⟨t, _⟩ => textNode place t

def textNode (place : Nat) : TypeExpr → String
  | auto => "auto"
  | bool => "Bool"
  | nat => "Nat"
  | unit => "Unit"
  | top => "Top"
  | bottom => "Bot"
  | var x => x
  | arrow ps r =>
    wrap loosest place ("fn(" ++ commaSeparated (texts ps) ++ ") -> " ++ text loosest r)
  | forAll xs b => wrap loosest place ("forall " ++ commaSeparated xs ++ ". " ++ text loosest b)
  | recursive x b => wrap loosest place ("µ " ++ x ++ ". " ++ text loosest b)
  | sum l r => wrap sumLevel place (text atomLevel l ++ " + " ++ text sumLevel r)
  | tuple ts => "\x7b" ++ commaSeparated (texts ts) ++ "\x7d"
  | record fs => "\x7b" ++ commaSeparated (fieldTexts fs) ++ "\x7d"
  | variant fs => "<| " ++ commaSeparated (alternativeTexts fs) ++ " |>"
  | list t => "[" ++ text loosest t ++ "]"
  | ref t => "&" ++ text atomLevel t

def texts : List (Located TypeExpr) → List String
  | [] => []
  | t :: ts => text loosest t :: texts ts

def fieldTexts : List (String × Located TypeExpr) → List String
  | [] => []
  | (l, t) :: fs => (l ++ " : " ++ text loosest t) :: fieldTexts fs

def alternativeTexts : List (String × Option (Located TypeExpr)) → List String
  | [] => []
  | (l, none) :: fs => l :: alternativeTexts fs
  | (l, some t) :: fs => (l ++ " : " ++ text loosest t) :: alternativeTexts fs

end

end TypeExpr

namespace Pattern

mutual

def text : Located Pattern → String
  | ⟨p, _⟩ => textNode p

def textNode : Pattern → String
  | castAs p t => text p ++ " cast as " ++ TypeExpr.text TypeExpr.loosest t
  | ascribed p t => text p ++ " as " ++ TypeExpr.text TypeExpr.loosest t
  | variant l none => "<| " ++ l ++ " |>"
  | variant l (some p) => "<| " ++ l ++ " = " ++ text p ++ " |>"
  | inl p => "inl(" ++ text p ++ ")"
  | inr p => "inr(" ++ text p ++ ")"
  | tuple ps => "\x7b" ++ commaSeparated (texts ps) ++ "\x7d"
  | record fs => "\x7b" ++ commaSeparated (fieldTexts fs) ++ "\x7d"
  | list ps => "[" ++ commaSeparated (texts ps) ++ "]"
  | cons h t => "cons(" ++ text h ++ ", " ++ text t ++ ")"
  | bool b => if b then "true" else "false"
  | unit => "unit"
  | nat n => toString n
  | succ p => "succ(" ++ text p ++ ")"
  | var x => x

def texts : List (Located Pattern) → List String
  | [] => []
  | p :: ps => text p :: texts ps

def fieldTexts : List (String × Located Pattern) → List String
  | [] => []
  | (l, p) :: fs => (l ++ " = " ++ text p) :: fieldTexts fs

end

end Pattern

namespace Literal

/-- A number in base sixteen, with capital letters. -/
def hexadecimal (n : Nat) : String :=
  .ofList ((Nat.toDigits 16 n).map Char.toUpper)

def text : Literal → String
  | bool b => if b then "true" else "false"
  | unit => "unit"
  | nat n => toString n
  | address n => "<0x" ++ hexadecimal n ++ ">"

end Literal

namespace Expr

/-- How tightly sequences, assignments, bindings and conditionals bind. -/
def loosest : Nat := 0
/-- Comparisons, ascriptions and casts. -/
def comparisonLevel : Nat := 1
def additionLevel : Nat := 2
/-- Multiplication, `fold` and `unfold`. -/
def productLevel : Nat := 3
/-- Applications, projections, dereference and all that is bracketed. -/
def postfixLevel : Nat := 4

/-- Parentheses around a document that binds less tightly than its place asks. -/
def wrapDoc (own place : Nat) (doc : Doc) : Doc :=
  if own < place then doc.parenthesize else doc

mutual

/-- The document of an expression at a place that asks for a level of binding. -/
def doc (place : Nat) : Located Expr → Doc
  | ⟨e, _⟩ => docNode place e

def docNode (place : Nat) : Expr → Doc
  | sequence a b => wrapDoc loosest place (doc comparisonLevel a ++ "; " ++ doc loosest b)
  | assign a b => wrapDoc loosest place (doc comparisonLevel a ++ " := " ++ doc comparisonLevel b)
  | cond a b c =>
    wrapDoc loosest place
      ("if " ++ doc loosest a ++ " then " ++ doc loosest b ++ " else " ++ doc loosest c)
  | letIn bs e =>
    wrapDoc loosest place ("let " ++ Doc.join ", " (bindingDocs " = " bs) ++ " in " ++ doc loosest e)
  | letRec bs e =>
    wrapDoc loosest place
      ("letrec " ++ Doc.join ", " (bindingDocs " = " bs) ++ " in " ++ doc loosest e)
  | typeAbstraction xs e =>
    wrapDoc loosest place ("generic [" ++ commaSeparated xs ++ "] " ++ doc loosest e)
  | binary op a b =>
    wrapDoc op.precedence place
      (doc op.precedence a ++ " " ++ op.text ++ " " ++ doc (op.precedence + 1) b)
  | ascribe e t =>
    wrapDoc comparisonLevel place (doc additionLevel e ++ " as " ++ TypeExpr.text TypeExpr.loosest t)
  | cast e t =>
    wrapDoc comparisonLevel place (doc additionLevel e ++ " cast as " ++ TypeExpr.text TypeExpr.loosest t)
  | abstraction ps e =>
    "fn(" ++ commaSeparated (TypeExpr.fieldTexts ps) ++ ") \x7b return " ++ doc loosest e ++ " \x7d"
  | variant l none => "<| " ++ l ++ " |>"
  | variant l (some e) => "<| " ++ l ++ " = " ++ doc loosest e ++ " |>"
  | matching e cs => .alternatives ("match " ++ doc loosest e) (bindingDocs " => " cs)
  | list es => "[" ++ Doc.join ", " (docs es) ++ "]"
  | unary .deref e => wrapDoc postfixLevel place ("*" ++ doc postfixLevel e)
  | unary op e => op.text ++ "(" ++ doc loosest e ++ ")"
  | application e es => doc postfixLevel e ++ "(" ++ Doc.join ", " (docs es) ++ ")"
  | typeApplication e ts => doc postfixLevel e ++ " [" ++ commaSeparated (TypeExpr.texts ts) ++ "]"
  | field e l => doc postfixLevel e ++ "." ++ l
  | component e i => doc postfixLevel e ++ "." ++ toString i
  | tuple es => "\x7b" ++ Doc.join ", " (docs es) ++ "\x7d"
  | record fs => "\x7b" ++ Doc.join ", " (fieldDocs fs) ++ "\x7d"
  | cons h t => "cons(" ++ doc loosest h ++ ", " ++ doc loosest t ++ ")"
  | panic => "panic!"
  | tryCatch e p h =>
    "try \x7b " ++ doc loosest e ++ " \x7d catch \x7b " ++ Pattern.text p ++ " => " ++
      doc loosest h ++ " \x7d"
  | tryWith a b => "try \x7b " ++ doc loosest a ++ " \x7d with \x7b " ++ doc loosest b ++ " \x7d"
  | tryCast e t p a b =>
    "try \x7b " ++ doc loosest e ++ " \x7d cast as " ++ TypeExpr.text TypeExpr.loosest t ++ " \x7b " ++
      Pattern.text p ++ " => " ++ doc loosest a ++ " \x7d with \x7b " ++ doc loosest b ++ " \x7d"
  | natRec a b c =>
    "Nat::rec(" ++ doc loosest a ++ ", " ++ doc loosest b ++ ", " ++ doc loosest c ++ ")"
  | fold t e =>
    wrapDoc productLevel place ("fold [" ++ TypeExpr.text TypeExpr.loosest t ++ "] " ++ doc postfixLevel e)
  | unfold t e =>
    wrapDoc productLevel place ("unfold [" ++ TypeExpr.text TypeExpr.loosest t ++ "] " ++ doc postfixLevel e)
  | literal l => l.text
  | var x => x

def docs : List (Located Expr) → List Doc
  | [] => []
  | e :: es => doc loosest e :: docs es

def fieldDocs : List (String × Located Expr) → List Doc
  | [] => []
  | (l, e) :: fs => (l ++ " = " ++ doc loosest e) :: fieldDocs fs

/-- A pattern and an expression each, with a sign between the two. -/
def bindingDocs (sign : String) : List (Located Pattern × Located Expr) → List Doc
  | [] => []
  | (p, e) :: bs => (Pattern.text p ++ sign ++ doc loosest e) :: bindingDocs sign bs

end

end Expr

namespace Decl

/-- The part of a function declaration before its body. -/
def header (modifiers : List Modifier) (name : String) (generics : Option (List String))
    (params : List (String × Located TypeExpr)) (result : Option (Located TypeExpr))
    (throws : List (Located TypeExpr)) : String :=
  String.join (modifiers.map (·.text ++ " ")) ++
    (match generics with
    | none => "fn " ++ name
    | some xs => "generic fn " ++ name ++ "[" ++ commaSeparated xs ++ "]") ++
    "(" ++ commaSeparated (TypeExpr.fieldTexts params) ++ ")" ++
    (match result with
    | none => ""
    | some t => " -> " ++ TypeExpr.text TypeExpr.loosest t) ++
    (if throws.isEmpty then "" else " throws " ++ commaSeparated (TypeExpr.texts throws))

mutual

def doc : Located Decl → Doc
  | ⟨d, _⟩ => docNode d

/-- The locals and the body of a function stand one level deeper, a line each. -/
def docNode : Decl → Doc
  | function as f gs ps r ts ds e =>
    header as f gs ps r ts ++ " \x7b" ++
      .nest (localDocs ds ++ Doc.line ++ "return " ++ Expr.doc Expr.loosest e) ++ Doc.line ++ "\x7d"
  | typeAlias x t => "type " ++ x ++ " = " ++ TypeExpr.text TypeExpr.loosest t
  | exceptionType t => "exception type = " ++ TypeExpr.text TypeExpr.loosest t
  | exceptionVariant l t => "exception variant " ++ l ++ " : " ++ TypeExpr.text TypeExpr.loosest t

def localDocs : List (Located Decl) → Doc
  | [] => .text ""
  | d :: ds => Doc.line ++ doc d ++ localDocs ds

end

end Decl

/-- The language, the extensions and the declarations, a blank line before each of
the last. -/
def Program.doc (p : Located Program) : Doc :=
  "language core;\n" ++
    String.join (p.node.extensions.map fun names => "extend with " ++ commaSeparated names ++ ";\n") ++
    .concat (p.node.decls.map fun d => "\n" ++ Decl.doc d ++ "\n")

end StellaLang.Syntax
