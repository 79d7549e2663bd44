import DesignLink.Mapping.Basic
import DesignLink.Problem

/-!
What can be wrong with a declaration, apart from its place.
-/

namespace DesignLink

inductive Complaint where
  | unknownHelper (text : String)
  | propertyExpected (kind : HelperKind)
  | booleanValuesExpected
  | booleanKey (key : String)
  | enumValuesExpected
  | enumEmpty
  | childrenExpected
  | childExpected
  | wildcardInArray
  | layerExpected
  | innerPropsExpected
  | classNameExpected
  | textLayerExpected
  | spread
  | keyExpected
  | duplicateKey (key : String)
  | propWithoutHelper (key : String)
  | unsupportedValue (text : String)
  | helperExpected
  | propsExpected
  | connectArgument
  | nodeExpected
  | connectPropsExpected
  | importExpected
  deriving DecidableEq

namespace Complaint

def kind : Complaint → ProblemKind
  | unknownHelper _ => .unknownHelper
  | wildcardInArray => .wildcardInArray
  | duplicateKey _ => .duplicateKey
  | _ => .invalidArgument

def message : Complaint → String
  | unknownHelper text => "Unknown intrinsic: " ++ text
  | propertyExpected kind =>
    kind.callName ++ " takes at least one argument, which is the Figma property name"
  | booleanValuesExpected =>
    "figma.boolean second argument should be an object literal, that sets values for 'true' and 'false'"
  | booleanKey key =>
    "figma.boolean value mapping only accepts the keys 'true' and 'false', found '" ++ key ++ "'"
  | enumValuesExpected =>
    "figma.enum second argument should be an object literal, that maps Figma prop values to code"
  | enumEmpty => "figma.enum value mapping must contain at least one entry"
  | childrenExpected =>
    "Invalid argument to figma.children, should be a string literal or an array of strings"
  | childExpected => "figma.children array elements must be string literals"
  | wildcardInArray =>
    "Wildcards can not be used with an array of strings. Use a single string literal instead."
  | layerExpected =>
    "Invalid argument to figma.nestedProps, `layerName` should be a string literal"
  | innerPropsExpected =>
    "Invalid argument to figma.nestedProps, `props` should be an object literal"
  | classNameExpected => "figma.className takes an array of strings"
  | textLayerExpected =>
    "figma.textContent takes a single argument which is the Figma layer name"
  | spread => "Spread properties are not supported in mappings"
  | keyExpected => "Mapping keys must be identifiers, string literals or numbers"
  | duplicateKey key => "Duplicate key '" ++ key ++ "'"
  | propWithoutHelper key => "Prop '" ++ key ++ "' must be mapped with a figma.* helper call"
  | unsupportedValue text =>
    "Unsupported value `" ++ text ++ "`: expected a string, number, boolean, undefined, " ++
      "function, JSX element, object, template string or property access"
  | helperExpected => "Expected a figma.* helper call"
  | propsExpected => "Expected an object literal of props"
  | connectArgument =>
    "figma.connect takes an optional component, the Figma node URL and a config object"
  | nodeExpected => "figma.connect requires the Figma node URL as a string literal"
  | connectPropsExpected => "`props` should be an object literal"
  | importExpected => "`imports` should be an array of string literals"

end Complaint

namespace Source

/-- A complaint about the text of a span. -/
def complain {α : Type} (source : Source) (complaint : Complaint) (span : Span) :
    Except Problem α :=
  .error (source.problem complaint.kind complaint.message span)

end Source

end DesignLink
