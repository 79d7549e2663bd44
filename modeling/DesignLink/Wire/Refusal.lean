import DesignLink.Text.Visible
import DesignLink.Wire.Doc

/-!
Refusals: why a document is not of the shape asked for, and the path to the part that is meant.
-/

namespace DesignLink.Wire

/-- One step of a path into a document. -/
inductive Segment where
  | key (name : String)
  | index (position : Nat)
  | unnamed
  deriving DecidableEq

/-- What was found where something else was expected. -/
inductive Found where
  | null
  | boolean (value : Bool)
  | integer (value : Int)
  | real (value : Number)
  | string (value : String)
  | list
  | object
  deriving DecidableEq

inductive Cause where
  | broken (fault : Fault)
  | missingField (name : String)
  | duplicateField (name : String)
  | unknownVariant (name : String) (options : List String)
  | invalidType (found : Found) (expected : String)
  | invalidValue (found : Found) (expected : String)
  | invalidLength (length : Nat) (expected : String)
  | noVariant (name : String)
  deriving DecidableEq

structure Refusal where
  path : List Segment
  cause : Cause
  deriving DecidableEq

namespace Found

def text : Found → String
  | null => "null"
  | boolean value => "boolean `" ++ (if value then "true" else "false") ++ "`"
  | integer value => "integer `" ++ toString value ++ "`"
  | real value => "floating point `" ++ Json.realText value ++ "`"
  | string value => "string " ++ Text.visible value
  | list => "sequence"
  | object => "map"

end Found

namespace Cause

def backquoted (name : String) : String := "`" ++ name ++ "`"

/-- The options of an unknown variant. -/
def optionsText : List String → String
  | [] => "there are no variants"
  | [one] => "expected " ++ backquoted one
  | [one, two] => "expected " ++ backquoted one ++ " or " ++ backquoted two
  | options => "expected one of " ++ String.intercalate ", " (options.map backquoted)

def message : Cause → String
  | broken fault => fault.message
  | missingField name => "missing field " ++ backquoted name
  | duplicateField name => "duplicate field " ++ backquoted name
  | unknownVariant name options =>
    "unknown variant " ++ backquoted name ++ ", " ++ optionsText options
  | invalidType found expected => "invalid type: " ++ found.text ++ ", expected " ++ expected
  | invalidValue found expected => "invalid value: " ++ found.text ++ ", expected " ++ expected
  | invalidLength length expected =>
    "invalid length " ++ toString length ++ ", expected " ++ expected
  | noVariant name => "data did not match any variant of untagged enum " ++ name

end Cause

namespace Refusal

def pathTail : List Segment → String
  | [] => ""
  | .key name :: rest => "." ++ name ++ pathTail rest
  | .index position :: rest => "[" ++ toString position ++ "]" ++ pathTail rest
  | .unnamed :: rest => ".?" ++ pathTail rest

/-- The path as text; the document itself is a single point. -/
def pathText (r : Refusal) : String :=
  match r.path with
  | [] => "."
  | .key name :: rest => name ++ pathTail rest
  | .unnamed :: rest => "?" ++ pathTail rest
  | path => pathTail path

end Refusal

end DesignLink.Wire
