import DesignLink.Protocol.Component
import DesignLink.Text.Words

/-!
Mappings derived from the property definitions of a component, for links that carry none.
-/

namespace DesignLink

/-- A property name without the node id that the design appends to it. -/
def withoutNodeId (name : String) : String :=
  let isIdPart (c : Char) : Bool := c.isDigit || c = ':'
  match name.toList.reverse.takeWhile isIdPart, name.toList.reverse.dropWhile isIdPart with
  | _ :: _, '#' :: before => String.ofList before.reverse
  | _, _ => name

def codeName (property : String) : String := Text.camel (withoutNodeId property)

/-- The options of a variant property, each with the code value named after it. -/
def variantValues (definition : Json) : ValueMapping :=
  let options := (definition.get? "variantOptions").bind Json.items? |>.getD []
  (options.filterMap Json.text?).foldl (fun values option =>
    Dictionary.put values option (.literal (.string (Text.camel option)))) []

/-- The helper that looks a property up, if its type has one. -/
def helperOfDefinition? (property : String) (definition : Json) : Option Helper :=
  match ((definition.get? "type").bind Json.text?).getD "" with
  | "BOOLEAN" => some (.boolean property none)
  | "TEXT" => some (.string property)
  | "INSTANCE_SWAP" => some (.swap property)
  | "VARIANT" =>
    match variantValues definition with
    | [] => none
    | values => some (.enum property values)
  | _ => none

/-- The mapping of the definitions in their order; of two with one code name the first counts. -/
def derivedFrom (props : PropMapping) : List (String × Json) → PropMapping
  | [] => props
  | (property, definition) :: rest =>
    let name := codeName property
    if name.isEmpty || Dictionary.contains props name then derivedFrom props rest
    else
      match helperOfDefinition? property definition with
      | none => derivedFrom props rest
      | some helper => derivedFrom (props ++ [(name, helper)]) rest

/-- The mapping that the definitions of a component stand for. -/
def Component.derivedProps (c : Component) : PropMapping := derivedFrom [] (c.definitions.getD [])

end DesignLink
