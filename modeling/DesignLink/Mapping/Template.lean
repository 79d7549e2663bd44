import DesignLink.Mapping.Basic
import DesignLink.Text.Quoted

/-!
The code that looks a mapping up in the design: each helper becomes an expression over a layer,
each mapping an object literal in the order of its entries.
-/

namespace DesignLink

/-- Props of an inner layer stand where only a look-up can: they have no expression of their own. -/
structure UnsupportedNesting where
  layer : String
  deriving DecidableEq, Repr

def UnsupportedNesting.message (e : UnsupportedNesting) : String :=
  "nested props must be expressed by naming the inner layer at the top level (layer `" ++
    e.layer ++ "`)"

/-- The layer that look-ups start from unless another is given. -/
def currentLayer : String := "figma.currentLayer"

/-- The function that rebuilds captured code. -/
def SnippetKind.builder : SnippetKind → String
  | function => "_fcc_function"
  | identifier => "_fcc_identifier"
  | object => "_fcc_object"
  | templateString => "_fcc_templateString"
  | jsxElement => "_fcc_jsxElement"

def Snippet.render (s : Snippet) : String :=
  s.kind.builder ++ "(" ++ Text.quotedSingle s.text ++ ")"

def Literal.render : Literal → String
  | snippet s => s.render
  | boolean value => if value then "true" else "false"
  | number value => value.format
  | string value => Text.quotedSingle value
  | undefined => "undefined"

/-- An object literal with one entry a line. -/
def renderObject (entries : List String) : String :=
  "\x7b\n" ++ String.intercalate ",\n" entries ++ "\x7d"

def renderEntry (key value : String) : String := Text.quoted key ++ ": " ++ value

/-- The look-up of a property through the accessor of a kind. -/
def renderAccess (layer : String) (kind : HelperKind) (arguments : String) : String :=
  layer ++ ".__properties__." ++ kind.tag ++ "(" ++ arguments ++ ")"

/-- The layer that a look-up starts from. -/
def layerOf (selector : Option String) : String := selector.getD currentLayer

mutual

/-- The expression that looks a helper up. -/
def Helper.render (selector : Option String) : Helper → Except UnsupportedNesting String
  | .boolean property none =>
    .ok (renderAccess (layerOf selector) .boolean (Text.quotedSingle property))
  | .boolean property (some values) => do
    let entries ← renderValues (some (layerOf selector)) values
    return renderAccess (layerOf selector) .boolean
      (Text.quotedSingle property ++ ", " ++ renderObject entries)
  | .enum property values => do
    let entries ← renderValues (some (layerOf selector)) values
    return renderAccess (layerOf selector) .enum
      (Text.quotedSingle property ++ ", " ++ renderObject entries)
  | .string property =>
    .ok (renderAccess (layerOf selector) .string (Text.quotedSingle property))
  | .swap property => .ok (renderAccess (layerOf selector) .swap (Text.quotedSingle property))
  | .children layers =>
    .ok (renderAccess (layerOf selector) .children
      ("[" ++ String.intercalate "," (layers.map Text.quoted) ++ "]"))
  | .nestedProps inner _ => .error ⟨inner⟩
  | .className parts => do
    let parts ← renderParts (some (layerOf selector)) parts
    return "[" ++ String.intercalate ", " parts ++ "].filter(v => !!v).join(' ')"
  | .textContent inner =>
    .ok (layerOf selector ++ ".__findChildWithCriteria__(\x7b name: " ++ Text.quotedSingle inner ++
      ", type: \"TEXT\" \x7d).textContent")

def renderValues (selector : Option String) :
    List (String × Value) → Except UnsupportedNesting (List String)
  | [] => .ok []
  | (key, .helper helper) :: rest => do
    let value ← helper.render selector
    let entries ← renderValues selector rest
    return renderEntry key value :: entries
  | (key, .literal literal) :: rest => do
    let entries ← renderValues selector rest
    return renderEntry key literal.render :: entries

def renderParts (selector : Option String) :
    List ClassPart → Except UnsupportedNesting (List String)
  | [] => .ok []
  | .literal text :: rest => do
    let parts ← renderParts selector rest
    return Text.quoted text :: parts
  | .helper helper :: rest => do
    let part ← helper.render selector
    let parts ← renderParts selector rest
    return part :: parts

end

def renderProps (selector : Option String) :
    List (String × Helper) → Except UnsupportedNesting (List String)
  | [] => .ok []
  | (key, helper) :: rest => do
    let value ← helper.render selector
    let entries ← renderProps selector rest
    return renderEntry key value :: entries

def ValueMapping.render (selector : Option String) (values : ValueMapping) :
    Except UnsupportedNesting String :=
  (renderValues selector values).map renderObject

def PropMapping.render (selector : Option String) (props : PropMapping) :
    Except UnsupportedNesting String :=
  (renderProps selector props).map renderObject

end DesignLink
