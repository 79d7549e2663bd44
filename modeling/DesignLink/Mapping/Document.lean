import DesignLink.Mapping.Basic
import DesignLink.Wire.Tagged

/-!
The document form of mappings: a helper is a record of its kind and its arguments, a code value
stands for itself, captured code names how it is rebuilt, and `null` is `undefined`.
-/

namespace DesignLink

open Wire

namespace SnippetKind

/-- The name of the kind in documents. -/
def tag : SnippetKind → String
  | function => "function"
  | identifier => "identifier"
  | object => "object"
  | templateString => "template-string"
  | jsxElement => "jsx-element"

def all : List SnippetKind := [function, identifier, object, templateString, jsxElement]

end SnippetKind

namespace Snippet

def toJson (s : Snippet) : Json :=
  .object [("type", .string s.kind.tag), ("value", .string s.text)]

def read : Reader Snippet :=
  Tagged.adjacent "Snippet" ⟨"type", "value"⟩ (SnippetKind.all.map fun kind =>
    (kind.tag, fun mode doc => (Reader.text mode doc).map fun text => ⟨kind, text⟩))

end Snippet

namespace Literal

def toJson : Literal → Json
  | snippet s => s.toJson
  | boolean value => .boolean value
  | number value => .real value
  | string value => .string value
  | undefined => .null

/-- Only `null`. -/
def readUndefined : Reader Literal
  | _, .null => .ok undefined
  | _, doc => Reader.mismatch "unit" doc

def read : Reader Literal :=
  Reader.firstOf "Literal" [
    fun mode doc => (Snippet.read mode doc).map snippet,
    fun mode doc => (Reader.flag mode doc).map boolean,
    fun mode doc => (Reader.number mode doc).map number,
    fun mode doc => (Reader.text mode doc).map string,
    readUndefined]

end Literal

mutual

def Helper.toJson : Helper → Json
  | .boolean property none => taggedArguments .boolean [("figmaPropName", .string property)]
  | .boolean property (some values) =>
    taggedArguments .boolean
      [("figmaPropName", .string property), ("valueMapping", .object (valueMembers values))]
  | .enum property values =>
    taggedArguments .enum
      [("figmaPropName", .string property), ("valueMapping", .object (valueMembers values))]
  | .string property => taggedArguments .string [("figmaPropName", .string property)]
  | .swap property => taggedArguments .swap [("figmaPropName", .string property)]
  | .children layers => taggedArguments .children [("layers", .list (layers.map .string))]
  | .nestedProps layer props =>
    taggedArguments .nestedProps
      [("layer", .string layer), ("props", .object (propMembers props))]
  | .className parts => taggedArguments .className [("className", .list (partItems parts))]
  | .textContent layer => taggedArguments .textContent [("layer", .string layer)]
where
  /-- The record of a kind and its arguments. -/
  taggedArguments (kind : HelperKind) (arguments : List (String × Json)) : Json :=
    .object [("kind", .string kind.tag), ("args", .object arguments)]

def valueMembers : List (String × Value) → List (String × Json)
  | [] => []
  | (key, .helper helper) :: rest => (key, helper.toJson) :: valueMembers rest
  | (key, .literal literal) :: rest => (key, literal.toJson) :: valueMembers rest

def propMembers : List (String × Helper) → List (String × Json)
  | [] => []
  | (key, helper) :: rest => (key, helper.toJson) :: propMembers rest

def partItems : List ClassPart → List Json
  | [] => []
  | .literal text :: rest => .string text :: partItems rest
  | .helper helper :: rest => helper.toJson :: partItems rest

end

namespace Helper

/-- The record of the single property that several kinds look up. -/
def property : Record String := .required "figmaPropName" Reader.text

def asArguments (name : String) (record : Record Helper) : Reader Helper := record.read name

def argumentReader (helper : Reader Helper) : HelperKind → Reader Helper :=
  let value : Reader Value := Reader.firstOf "ValueMappingKind" [
    fun mode doc => (helper mode doc).map .helper,
    fun mode doc => (Literal.read mode doc).map .literal]
  let part : Reader ClassPart := Reader.firstOf "ClassNamePart" [
    fun mode doc => (Reader.text mode doc).map .literal,
    fun mode doc => (helper mode doc).map .helper]
  let values := Reader.dictionary value
  fun
  | .boolean =>
    asArguments "BooleanArgs" <| (property.both (.optional "valueMapping" values)).map
      fun (name, values) => boolean name values
  | .enum =>
    asArguments "EnumArgs" <| (property.both (.required "valueMapping" values)).map
      fun (name, values) => enum name values
  | .string => asArguments "PropNameArgs" (property.map string)
  | .swap => asArguments "PropNameArgs" (property.map swap)
  | .children =>
    asArguments "ChildrenArgs" ((Record.required "layers" (Reader.list Reader.text)).map children)
  | .nestedProps =>
    asArguments "NestedPropsArgs" <|
      ((Record.required "layer" Reader.text).both
        (.required "props" (Reader.dictionary helper))).map
        fun (layer, props) => nestedProps layer props
  | .className =>
    asArguments "ClassNameArgs" ((Record.required "className" (Reader.list part)).map className)
  | .textContent =>
    asArguments "TextContentArgs" ((Record.required "layer" Reader.text).map textContent)

/-- Reads a helper whose helpers inside are nested at most `depth` deep. -/
def readNested : Nat → Reader Helper
  | 0, _, _ => .error (.fault .tooDeep)
  | depth + 1, mode, doc =>
    Tagged.adjacent "Intrinsic" ⟨"kind", "args"⟩
      (HelperKind.all.map fun kind => (kind.tag, argumentReader (readNested depth) kind)) mode doc

/-- Reads a helper. No document holds as many levels as the limit of documents allows. -/
def read : Reader Helper := readNested Mode.depthLimit

end Helper

namespace Value

def toJson : Value → Json
  | helper h => h.toJson
  | literal l => l.toJson

def read : Reader Value := Reader.firstOf "ValueMappingKind" [
  fun mode doc => (Helper.read mode doc).map .helper,
  fun mode doc => (Literal.read mode doc).map .literal]

end Value

namespace ValueMapping

def toJson (values : ValueMapping) : Json := .object (valueMembers values)

def read : Reader ValueMapping := Reader.dictionary Value.read

end ValueMapping

namespace PropMapping

def toJson (props : PropMapping) : Json := .object (propMembers props)

def read : Reader PropMapping := Reader.dictionary Helper.read

end PropMapping

end DesignLink
