import StellaLang.Proofs.Syntax.Children
import StellaLang.Proofs.Text.Words
import StellaLang.Syntax.Printer

/-! What is printed, as a list of words. It is the same in every style. -/
namespace StellaLang.Syntax

open Text (separated)

/-- The words of the printer's own that could be taken for names. -/
def reserved : List String :=
  ["if", "then", "else", "let", "letrec", "in", "generic", "and", "or", "as", "cast", "fn", "return",
    "match", "cons", "throw", "try", "catch", "with", "inl", "inr", "succ", "not", "fix", "fold",
    "unfold", "new", "true", "false", "unit", "auto", "Bool", "Nat", "Unit", "Top", "Bot", "forall"]

/-- Letters, digits and underscores, no digit first, and none of the printer's own words. -/
def isName (x : String) : Bool :=
  x.toList.head?.any (fun c => c.isAlpha || c == '_') && x.toList.all Text.isWordly &&
    !reserved.contains x

theorem Literal.toList_address (n : Nat) :
    (text (.address n)).toList = ['<', '0', 'x'] ++ (Nat.toDigits 16 n).map Char.toUpper ++ ['>'] := by
  have digits : (hexadecimal n).toList = (Nat.toDigits 16 n).map Char.toUpper := String.toList_ofList
  rw [text, String.toList_append, String.toList_append, digits]
  rfl

section Legible

/-- Whether the names that a type has itself are names, and it has parts where it must. -/
def TypeExpr.isLegible : TypeExpr → Bool
  | var x => isName x
  | forAll xs _ => xs.all isName
  | recursive x _ => isName x
  | tuple ts => !ts.isEmpty
  | record fs => !fs.isEmpty && fs.all fun field => isName field.1
  | variant fs => fs.all fun field => isName field.1
  | _ => true

def Pattern.isLegible : Pattern → Bool
  | variant l _ => isName l
  | tuple ps => !ps.isEmpty
  | record fs => !fs.isEmpty && fs.all fun field => isName field.1
  | var x => isName x
  | _ => true

def Expr.isLegible : Expr → Bool
  | typeAbstraction xs _ => xs.all isName
  | abstraction ps _ => ps.all fun param => isName param.1
  | variant l _ => isName l
  | field _ l => isName l
  | tuple es => !es.isEmpty
  | record fs => !fs.isEmpty && fs.all fun field => isName field.1
  | var x => isName x
  | _ => true

namespace Node

def isLegible : Node → Bool
  | type t => t.node.isLegible
  | pattern p => p.node.isLegible
  | expr e => e.node.isLegible
  | decl _ => true
  | program _ => true

/-- That all names in a tree are names, and no tuple or record in it is empty. -/
def Legible (n : Node) : Prop :=
  ∀ m ∈ n.postOrder, m.isLegible = true

theorem Legible.self {n : Node} (legible : n.Legible) : n.isLegible = true := by
  refine legible n ?_
  rw [postOrder_eq]
  exact List.mem_append_right _ List.mem_cons_self

theorem Legible.child {n c : Node} (legible : n.Legible) (part : c ∈ n.children) : c.Legible :=
  fun m member => legible m (mem_postOrder_of_child part member)

end Node

end Legible

/-- Parentheses around words that bind less tightly than their place asks. -/
def enclose (own place : Nat) (ws : List String) : List String :=
  if own < place then ["("] ++ ws ++ [")"] else ws

namespace TypeExpr

mutual

/-- The words of a type at a place that asks for a level of binding. -/
def tokens (place : Nat) : Located TypeExpr → List String
  | ⟨t, _⟩ => tokensNode place t

def tokensNode (place : Nat) : TypeExpr → List String
  | auto => ["auto"]
  | bool => ["Bool"]
  | nat => ["Nat"]
  | unit => ["Unit"]
  | top => ["Top"]
  | bottom => ["Bot"]
  | var x => [x]
  | arrow ps r =>
    enclose loosest place
      (["fn", "("] ++ separated "," (tokensEach ps) ++ [")", "->"] ++ tokens loosest r)
  | forAll xs b =>
    enclose loosest place
      (["forall"] ++ separated "," (xs.map fun x => [x]) ++ ["."] ++ tokens loosest b)
  | recursive x b => enclose loosest place (["µ"] ++ [x] ++ ["."] ++ tokens loosest b)
  | sum l r => enclose sumLevel place (tokens atomLevel l ++ ["+"] ++ tokens sumLevel r)
  | tuple ts => ["\x7b"] ++ separated "," (tokensEach ts) ++ ["\x7d"]
  | record fs => ["\x7b"] ++ separated "," (fieldTokens fs) ++ ["\x7d"]
  | variant fs => ["<|"] ++ separated "," (alternativeTokens fs) ++ ["|>"]
  | list t => ["["] ++ tokens loosest t ++ ["]"]
  | ref t => ["&"] ++ tokens atomLevel t

def tokensEach : List (Located TypeExpr) → List (List String)
  | [] => []
  | t :: ts => tokens loosest t :: tokensEach ts

def fieldTokens : List (String × Located TypeExpr) → List (List String)
  | [] => []
  | (l, t) :: fs => ([l] ++ [":"] ++ tokens loosest t) :: fieldTokens fs

def alternativeTokens : List (String × Option (Located TypeExpr)) → List (List String)
  | [] => []
  | (l, none) :: fs => [l] :: alternativeTokens fs
  | (l, some t) :: fs => ([l] ++ [":"] ++ tokens loosest t) :: alternativeTokens fs

end

end TypeExpr

namespace Pattern

mutual

def tokens : Located Pattern → List String
  | ⟨p, _⟩ => tokensNode p

def tokensNode : Pattern → List String
  | castAs p t => tokens p ++ ["cast", "as"] ++ TypeExpr.tokens TypeExpr.loosest t
  | ascribed p t => tokens p ++ ["as"] ++ TypeExpr.tokens TypeExpr.loosest t
  | variant l none => ["<|"] ++ [l] ++ ["|>"]
  | variant l (some p) => ["<|"] ++ [l] ++ ["="] ++ tokens p ++ ["|>"]
  | inl p => ["inl", "("] ++ tokens p ++ [")"]
  | inr p => ["inr", "("] ++ tokens p ++ [")"]
  | tuple ps => ["\x7b"] ++ separated "," (tokensEach ps) ++ ["\x7d"]
  | record fs => ["\x7b"] ++ separated "," (fieldTokens fs) ++ ["\x7d"]
  | list ps => ["["] ++ separated "," (tokensEach ps) ++ ["]"]
  | cons h t => ["cons", "("] ++ tokens h ++ [","] ++ tokens t ++ [")"]
  | bool b => [if b then "true" else "false"]
  | unit => ["unit"]
  | nat n => [toString n]
  | succ p => ["succ", "("] ++ tokens p ++ [")"]
  | var x => [x]

def tokensEach : List (Located Pattern) → List (List String)
  | [] => []
  | p :: ps => tokens p :: tokensEach ps

def fieldTokens : List (String × Located Pattern) → List (List String)
  | [] => []
  | (l, p) :: fs => ([l] ++ ["="] ++ tokens p) :: fieldTokens fs

end

end Pattern

namespace Expr

mutual

/-- The words of an expression at a place that asks for a level of binding. -/
def tokens (place : Nat) : Located Expr → List String
  | ⟨e, _⟩ => tokensNode place e

def tokensNode (place : Nat) : Expr → List String
  | sequence a b => enclose loosest place (tokens comparisonLevel a ++ [";"] ++ tokens loosest b)
  | assign a b => enclose loosest place (tokens comparisonLevel a ++ [":="] ++ tokens comparisonLevel b)
  | cond a b c =>
    enclose loosest place
      (["if"] ++ tokens loosest a ++ ["then"] ++ tokens loosest b ++ ["else"] ++ tokens loosest c)
  | letIn bs e =>
    enclose loosest place
      (["let"] ++ separated "," (bindingTokens "=" bs) ++ ["in"] ++ tokens loosest e)
  | letRec bs e =>
    enclose loosest place
      (["letrec"] ++ separated "," (bindingTokens "=" bs) ++ ["in"] ++ tokens loosest e)
  | typeAbstraction xs e =>
    enclose loosest place
      (["generic", "["] ++ separated "," (xs.map fun x => [x]) ++ ["]"] ++ tokens loosest e)
  | binary op a b =>
    enclose op.precedence place (tokens op.precedence a ++ [op.text] ++ tokens (op.precedence + 1) b)
  | ascribe e t =>
    enclose comparisonLevel place
      (tokens additionLevel e ++ ["as"] ++ TypeExpr.tokens TypeExpr.loosest t)
  | cast e t =>
    enclose comparisonLevel place
      (tokens additionLevel e ++ ["cast", "as"] ++ TypeExpr.tokens TypeExpr.loosest t)
  | abstraction ps e =>
    ["fn", "("] ++ separated "," (TypeExpr.fieldTokens ps) ++ [")", "\x7b", "return"] ++
      tokens loosest e ++ ["\x7d"]
  | variant l none => ["<|"] ++ [l] ++ ["|>"]
  | variant l (some e) => ["<|"] ++ [l] ++ ["="] ++ tokens loosest e ++ ["|>"]
  | matching e cs =>
    ["match"] ++ tokens loosest e ++ ["\x7b"] ++ separated "|" (bindingTokens "=>" cs) ++ ["\x7d"]
  | list es => ["["] ++ separated "," (tokensEach es) ++ ["]"]
  | unary .deref e => enclose postfixLevel place (["*"] ++ tokens postfixLevel e)
  | unary op e => [op.text] ++ ["("] ++ tokens loosest e ++ [")"]
  | application e es => tokens postfixLevel e ++ ["("] ++ separated "," (tokensEach es) ++ [")"]
  | typeApplication e ts =>
    tokens postfixLevel e ++ ["["] ++ separated "," (TypeExpr.tokensEach ts) ++ ["]"]
  | field e l => tokens postfixLevel e ++ ["."] ++ [l]
  | component e i => tokens postfixLevel e ++ ["."] ++ [toString i]
  | tuple es => ["\x7b"] ++ separated "," (tokensEach es) ++ ["\x7d"]
  | record fs => ["\x7b"] ++ separated "," (fieldTokens fs) ++ ["\x7d"]
  | cons h t => ["cons", "("] ++ tokens loosest h ++ [","] ++ tokens loosest t ++ [")"]
  | panic => ["panic!"]
  | tryCatch e p h =>
    ["try", "\x7b"] ++ tokens loosest e ++ ["\x7d", "catch", "\x7b"] ++ Pattern.tokens p ++ ["=>"] ++
      tokens loosest h ++ ["\x7d"]
  | tryWith a b =>
    ["try", "\x7b"] ++ tokens loosest a ++ ["\x7d", "with", "\x7b"] ++ tokens loosest b ++ ["\x7d"]
  | tryCast e t p a b =>
    ["try", "\x7b"] ++ tokens loosest e ++ ["\x7d", "cast", "as"] ++
      TypeExpr.tokens TypeExpr.loosest t ++ ["\x7b"] ++ Pattern.tokens p ++ ["=>"] ++
      tokens loosest a ++ ["\x7d", "with", "\x7b"] ++ tokens loosest b ++ ["\x7d"]
  | natRec a b c =>
    ["Nat::rec", "("] ++ tokens loosest a ++ [","] ++ tokens loosest b ++ [","] ++
      tokens loosest c ++ [")"]
  | fold t e =>
    enclose productLevel place
      (["fold", "["] ++ TypeExpr.tokens TypeExpr.loosest t ++ ["]"] ++ tokens postfixLevel e)
  | unfold t e =>
    enclose productLevel place
      (["unfold", "["] ++ TypeExpr.tokens TypeExpr.loosest t ++ ["]"] ++ tokens postfixLevel e)
  | literal l => [l.text]
  | var x => [x]

def tokensEach : List (Located Expr) → List (List String)
  | [] => []
  | e :: es => tokens loosest e :: tokensEach es

def fieldTokens : List (String × Located Expr) → List (List String)
  | [] => []
  | (l, e) :: fs => ([l] ++ ["="] ++ tokens loosest e) :: fieldTokens fs

/-- A pattern and an expression each, with a sign between the two. -/
def bindingTokens (sign : String) : List (Located Pattern × Located Expr) → List (List String)
  | [] => []
  | (p, e) :: bs => (Pattern.tokens p ++ [sign] ++ tokens loosest e) :: bindingTokens sign bs

end

theorem tokensNode_call {op : UnaryOp} (word : op ≠ .deref) (place : Nat) (e : Located Expr) :
    tokensNode place (unary op e) = [op.text] ++ ["("] ++ tokens loosest e ++ [")"] := by
  cases op with
  | deref => contradiction
  | _ => rfl

end Expr

end StellaLang.Syntax
