import StellaLang.Position
import StellaLang.Ty.Text

/-! What can be wrong with a program, in which words it is said, and where. -/
namespace StellaLang.Typing

inductive Fault where
  | mismatch (expected found : Ty)
  | undefinedVariable (name : String)
  | notAFunction (found : Ty)
  | notATuple (found : Ty)
  | tupleIndexOutOfBounds (index size : Nat)
  | notARecord (found : Ty)
  | missingRecordField (label : String) (record : Ty)
  | notAReference (found : Ty)
  | notASum (found : Ty)
  | notAList (found : Ty)
  | notAGeneric (found : Ty)
  | wrongTypeArgCount (expected found : Nat)
  | wrongArgCount (expected found : Nat)
  | unexpectedVariantLabel (label : String)
  | notAVariant (found : Ty)
  | ambiguousType
  | exceptionTypeNotDeclared
  | illegalCast (source target : Ty)
  | nonExhaustiveMatch (missing : List String)
  | patternMismatch (type : Ty)
  | emptyMatch
  | missingMain
  | duplicateDeclaration (name : String)
  | notARecursiveType (found : Ty)

namespace Fault

/-- A few words for the kind of fault. -/
def description : Fault → String
  | mismatch .. => "type mismatch"
  | undefinedVariable _ => "undefined variable"
  | notAFunction _ => "not a function"
  | notATuple _ => "not a tuple"
  | tupleIndexOutOfBounds .. => "tuple index out of bounds"
  | notARecord _ => "not a record"
  | missingRecordField .. => "missing record field"
  | notAReference _ => "not a reference"
  | notASum _ => "not a sum type"
  | notAList _ => "not a list"
  | notAGeneric _ => "not a generic function"
  | wrongTypeArgCount .. => "wrong number of type arguments"
  | wrongArgCount .. => "wrong number of arguments"
  | unexpectedVariantLabel _ => "unexpected variant label"
  | notAVariant _ => "not a variant"
  | ambiguousType => "ambiguous type"
  | exceptionTypeNotDeclared => "exception type not declared"
  | illegalCast .. => "illegal cast"
  | nonExhaustiveMatch _ => "non-exhaustive match expression"
  | patternMismatch _ => "unexpected pattern"
  | emptyMatch => "empty match"
  | missingMain => "missing main function"
  | duplicateDeclaration _ => "duplicate declaration"
  | notARecursiveType _ => "not a recursive type"

/-- The tag that the language gives the kind of fault. -/
def code : Fault → String
  | mismatch .. => "ERROR_UNEXPECTED_TYPE_FOR_EXPRESSION"
  | undefinedVariable _ => "ERROR_UNDEFINED_VARIABLE"
  | notAFunction _ => "ERROR_NOT_A_FUNCTION"
  | notATuple _ => "ERROR_NOT_A_TUPLE"
  | tupleIndexOutOfBounds .. => "ERROR_TUPLE_INDEX_OUT_OF_BOUNDS"
  | notARecord _ => "ERROR_NOT_A_RECORD"
  | missingRecordField .. => "ERROR_UNEXPECTED_FIELD_ACCESS"
  | notAReference _ => "ERROR_NOT_A_REFERENCE"
  | notASum _ => "ERROR_UNEXPECTED_INJECTION"
  | notAList _ => "ERROR_NOT_A_LIST"
  | notAGeneric _ => "ERROR_NOT_A_GENERIC_FUNCTION"
  | wrongTypeArgCount .. => "ERROR_INCORRECT_NUMBER_OF_TYPE_ARGUMENTS"
  | wrongArgCount .. => "ERROR_INCORRECT_NUMBER_OF_ARGUMENTS"
  | unexpectedVariantLabel _ => "ERROR_UNEXPECTED_VARIANT_LABEL"
  | notAVariant _ => "ERROR_UNEXPECTED_VARIANT"
  | ambiguousType => "ERROR_AMBIGUOUS_TYPE"
  | exceptionTypeNotDeclared => "ERROR_EXCEPTION_TYPE_NOT_DECLARED"
  | illegalCast .. => "ERROR_ILLEGAL_CAST"
  | nonExhaustiveMatch _ => "ERROR_NONEXHAUSTIVE_MATCH_PATTERNS"
  | patternMismatch _ => "ERROR_UNEXPECTED_PATTERN_FOR_TYPE"
  | emptyMatch => "ERROR_ILLEGAL_EMPTY_MATCHING"
  | missingMain => "ERROR_MISSING_MAIN"
  | duplicateDeclaration _ => "ERROR_DUPLICATE_FUNCTION_DECLARATION"
  | notARecursiveType _ => "ERROR_NOT_A_RECURSIVE_TYPE"

def message : Fault → String
  | mismatch expected found =>
    "type mismatch: expected " ++ expected.text ++ ", found " ++ found.text
  | undefinedVariable name => "undefined variable: " ++ name
  | notAFunction found => "expected a function, found " ++ found.text
  | notATuple found => "expected a tuple, found " ++ found.text
  | tupleIndexOutOfBounds index size =>
    "tuple index " ++ toString index ++ " out of bounds for a tuple of " ++ toString size
  | notARecord found => "expected a record, found " ++ found.text
  | missingRecordField label record => "record " ++ record.text ++ " has no field " ++ label
  | notAReference found => "expected a reference, found " ++ found.text
  | notASum found => "injection used where " ++ found.text ++ " is expected"
  | notAList found => "expected a list, found " ++ found.text
  | notAGeneric found => "type application of non-generic " ++ found.text
  | wrongTypeArgCount expected found =>
    "wrong number of type arguments: expected " ++ toString expected ++ ", found " ++
      toString found
  | wrongArgCount expected found =>
    "wrong number of arguments: expected " ++ toString expected ++ ", found " ++ toString found
  | unexpectedVariantLabel label => "unexpected variant label: " ++ label
  | notAVariant found => "variant used where " ++ found.text ++ " is expected"
  | ambiguousType => "ambiguous type: add type annotation"
  | exceptionTypeNotDeclared => "exceptions used without an exception type declaration"
  | illegalCast source target => "cannot cast " ++ source.text ++ " to " ++ target.text
  | nonExhaustiveMatch missing =>
    "non-exhaustive match: missing patterns: " ++ String.intercalate ", " missing
  | patternMismatch type => "pattern cannot match a value of type " ++ type.text
  | emptyMatch => "match expression has no cases"
  | missingMain => "program has no main function"
  | duplicateDeclaration name => "duplicate declaration: " ++ name
  | notARecursiveType found => "expected a recursive type, found " ++ found.text

end Fault

/-- A fault and the place of the node at fault. -/
structure TypeError where
  fault : Fault
  position : Option Position

/-- A fault at a node. A missing `main` is the fault of no node. -/
def Fault.at (position : Option Position) : Fault → TypeError
  | .missingMain => ⟨.missingMain, none⟩
  | fault => ⟨fault, position⟩

end StellaLang.Typing
