import DesignLink.Declaration.HelperCall
import DesignLink.Mapping.Template
import DesignLink.Protocol.Exchange

/-!
Connections: the `figma.connect` calls of a module, each with what it declares.
-/

namespace DesignLink

open Script

/-- What a `figma.connect` call declares. -/
structure Connection where
  node : String
  component : Option String
  location : Location
  props : PropMapping
  sample : Option String
  variant : Option ValueMapping
  imports : List String

namespace Declaration

def connectName : String := "figma.connect"

def isConnect (source : Source) (span : Span) : Bool :=
  connectName.toList.isPrefixOf (source.textOf span).toList

/-! The calls of a module, found in the order of the text. A call inside a found one is not looked
for. -/

mutual

def callsInExpr (source : Source) : Expr → List Expr
  | .identifier _ _ | .string _ _ | .number _ _ | .boolean _ _ => []
  | .template _ parts | .function _ parts | .markup _ parts | .other _ parts =>
    callsInExprs source parts
  | .object _ members => callsInMembers source members
  | .array _ items => callsInItems source items
  | .call span callee types arguments =>
    if isConnect source span then [.call span callee types arguments]
    else
      callsInExpr source callee ++ callsInExprs source types ++ callsInItems source arguments
  | .property _ inner | .chain _ inner | .nonNull _ inner | .negation _ inner
  | .prefixed _ inner | .group _ inner => callsInExpr source inner
  | .element _ object index => callsInExpr source object ++ callsInExprs source index
  | .instantiation _ inner types | .ascription _ inner types =>
    callsInExpr source inner ++ callsInExprs source types
  | .logical _ _ left right => callsInExpr source left ++ callsInExpr source right
  | .assignment _ _ target value => callsInExpr source target ++ callsInExpr source value

def callsInExprs (source : Source) : List Expr → List Expr
  | [] => []
  | e :: rest => callsInExpr source e ++ callsInExprs source rest

def callsInMembers (source : Source) : List Member → List Expr
  | [] => []
  | .field _ key _ value :: rest =>
    callsInKey source key ++ callsInExpr source value ++ callsInMembers source rest
  | .spread _ value :: rest => callsInExpr source value ++ callsInMembers source rest
  | .initialized _ name value :: rest =>
    callsInExpr source name ++ callsInExpr source value ++ callsInMembers source rest

def callsInKey (source : Source) : Key → List Expr
  | .name _ _ => []
  | .expression e => callsInExpr source e

def callsInItems (source : Source) : List Item → List Expr
  | [] => []
  | .value e :: rest => callsInExpr source e ++ callsInItems source rest
  | .spread _ e :: rest => callsInExpr source e ++ callsInItems source rest
  | .hole _ :: rest => callsInItems source rest

end

def callsInStatement (source : Source) : Statement → List Expr
  | .expression _ value => callsInExpr source value
  | .other parts => callsInExprs source parts

def connectCalls (source : Source) (module : Module) : List Expr :=
  module.body.flatMap (callsInStatement source)

/-- What the arguments of a call hold: a component before the node, and the last object. -/
structure ConnectArguments where
  component : Option String
  node : Option String
  config : List Member

def takeArgument (source : Source) (found : ConnectArguments) (item : Item) :
    Except Problem ConnectArguments :=
  let wrong := source.complain .connectArgument item.span
  let component (span : Span) : Except Problem ConnectArguments :=
    if found.component.isNone ∧ found.node.isNone then
      .ok { found with component := some (source.textOf span) }
    else wrong
  match item with
  | .value (.string _ value) =>
    if found.node.isNone then .ok { found with node := some value } else wrong
  | .value (.identifier span _) => component span
  | .value (.property span _) => component span
  | .value (.object _ members) => .ok { found with config := members }
  | _ => wrong

/-- The imports that an array of strings names. -/
def importsOf (source : Source) : List Item → Except Problem (List String)
  | [] => .ok []
  | .value (.string _ text) :: rest => do
    let imports ← importsOf source rest
    return text :: imports
  | item :: _ => source.complain .importExpected item.span

def settingKey? : Key → Option String
  | .name _ text => some text
  | .expression (.string _ value) => some value
  | _ => none

def takeSetting (source : Source) (connection : Connection) (member : Member) :
    Except Problem Connection :=
  match member with
  | .field _ key _ value =>
    match settingKey? key, value with
    | some "props", .object _ members => do
      return { connection with props := ← propsOf source members }
    | some "props", other => source.complain .connectPropsExpected other.span
    | some "variant", .object _ members => do
      return { connection with variant := some (← mappingOf source members) }
    | some "example", value =>
      .ok { connection with sample := some (source.textOf value.span) }
    | some "imports", .array _ items => do
      let imports ← importsOf source items
      return { connection with imports := connection.imports ++ imports }
    | _, _ => .ok connection
  | _ => .ok connection

/-- The connection that a call declares. -/
def connectionOf (source : Source) (span : Span) (arguments : List Item) :
    Except Problem Connection := do
  let found ← arguments.foldlM (takeArgument source) ⟨none, none, []⟩
  match found.node with
  | none => source.complain .nodeExpected span
  | some node =>
    let bare : Connection :=
      ⟨node, found.component, source.location span.start, [], none, none, []⟩
    found.config.foldlM (takeSetting source) bare

def connectionOfCall (source : Source) : Expr → Except Problem Connection
  | .call span _ _ arguments => connectionOf source span arguments
  | e => source.complain .nodeExpected e.span

/-- Reads the connections of a file. A text that is no module has none; otherwise every connection
is read on its own. -/
def readConnections [Diagnoses] (file text : String) :
    Except Problem (List (Except Problem Connection)) :=
  let source := Source.ofString file text
  match Module.read? source.text with
  | none => .error source.refused
  | some module => .ok ((connectCalls source module).map (connectionOfCall source))

end Declaration

namespace Connection

/-- The code published for a connection. -/
def template (c : Connection) : Except UnsupportedNesting String := do
  let props ← PropMapping.render none c.props
  let sample := match c.sample with
    | some text => (Snippet.mk .function text).render
    | none => "undefined"
  return "const figma = require('figma')\n\nconst props = " ++ props ++
    "\n\nexport default \x7b example: " ++ sample ++ ", props \x7d\n"

def published (c : Connection) (file : String) (settings : Settings) :
    Except UnsupportedNesting Published := do
  let template ← c.template
  return {
    node := c.node
    component := c.component
    variant := c.variant
    source := file
    line := c.location.line
    template := template
    props := some c.props
    imports := c.imports
    language := settings.languageText
    label := settings.labelText }

end Connection

end DesignLink
