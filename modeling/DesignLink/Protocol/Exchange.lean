import DesignLink.Protocol.Component
import DesignLink.Protocol.Message
import DesignLink.Settings

/-!
Requests to parsers and their responses: PARSE turns connection files into published documents,
CREATE writes a new connection file.
-/

namespace DesignLink

open Wire

inductive RequestMode where
  | parse
  | create
  deriving DecidableEq, Repr

namespace RequestMode

def tag : RequestMode → String
  | parse => "PARSE"
  | create => "CREATE"

def toJson (m : RequestMode) : Json := .string m.tag

def field : Record RequestMode :=
  .required "mode" (Tagged.tag [("PARSE", parse), ("CREATE", create)])

end RequestMode

/-- A published connection. -/
structure Published where
  node : String
  component : Option String
  variant : Option ValueMapping
  source : String
  line : Nat
  template : String
  props : Option PropMapping
  imports : List String
  language : String
  label : String

namespace Published

def toJson (p : Published) : Json :=
  .object <|
    [("figmaNode", .string p.node)] ++ Json.given "component" .string p.component ++
      Json.given "variant" ValueMapping.toJson p.variant ++
      [("source", .string p.source), ("sourceLocation", .object [("line", .integer p.line)]),
        ("template", .string p.template),
        ("templateData", .object <|
          Json.given "props" PropMapping.toJson p.props ++
            (if p.imports.isEmpty then [] else [("imports", .list (p.imports.map .string))])),
        ("language", .string p.language), ("label", .string p.label)]

def readLine : Reader Nat := (Record.required "line" Reader.word32).read "SourceLine"

def readData : Reader (Option PropMapping × List String) :=
  ((Record.optional "props" PropMapping.read).both
    (.defaulted "imports" [] (Reader.list Reader.text))).read "TemplateData"

def record : Record Published :=
  ((Record.required "figmaNode" Reader.text).both
    ((Record.optional "component" Reader.text).both
      ((Record.optional "variant" ValueMapping.read).both
        ((Record.required "source" Reader.text).both
          ((Record.defaulted "sourceLocation" 0 readLine).both
            ((Record.required "template" Reader.text).both
              ((Record.defaulted "templateData" (none, []) readData).both
                ((Record.required "language" Reader.text).both
                  (.required "label" Reader.text))))))))).map
    fun (node, component, variant, source, line, template, (props, imports), language, label) =>
      ⟨node, component, variant, source, line, template, props, imports, language, label⟩

def read : Reader Published := record.read "CodeConnectJson"

end Published

structure ParseOptions where
  autoAddImports : Bool
  verbose : Bool
  deriving DecidableEq

namespace ParseOptions

def toJson (o : ParseOptions) : Json :=
  .object [("autoAddImports", .boolean o.autoAddImports), ("verbose", .boolean o.verbose)]

def read : Reader ParseOptions :=
  (((Record.defaulted "autoAddImports" false Reader.flag).both
    (.defaulted "verbose" false Reader.flag)).map fun (a, v) => ParseOptions.mk a v).read
    "ParseOptions"

end ParseOptions

structure ParseRequest where
  mode : RequestMode
  paths : List String
  options : ParseOptions
  settings : Settings

namespace ParseRequest

def toJson (r : ParseRequest) : Json :=
  .object [("mode", r.mode.toJson), ("paths", .list (r.paths.map .string)),
    ("options", r.options.toJson), ("config", r.settings.toJson)]

def read : Reader ParseRequest :=
  ((RequestMode.field.both
    ((Record.required "paths" (Reader.list Reader.text)).both
      ((Record.defaulted "options" ⟨false, false⟩ ParseOptions.read).both
        (.required "config" Settings.read)))).map
    fun (mode, paths, options, settings) => ParseRequest.mk mode paths options settings).read
    "ParseRequestPayload"

end ParseRequest

structure ParseResponse where
  documents : List Published
  messages : List Message

namespace ParseResponse

def toJson (r : ParseResponse) : Json :=
  .object [("docs", .list (r.documents.map Published.toJson)),
    ("messages", .list (r.messages.map Message.toJson))]

def read : Reader ParseResponse :=
  (((Record.required "docs" (Reader.list Published.read)).both
    (.required "messages" (Reader.list Message.read))).map
    fun (documents, messages) => ParseResponse.mk documents messages).read "ParseResponsePayload"

end ParseResponse

/-- CREATE for ecosystems with one export per file. -/
structure SingleRequest where
  mode : RequestMode
  destination : String
  source : Option String
  component : Component
  settings : Settings

/-- CREATE for several components linked to exports of one source file. -/
structure MultiRequest where
  mode : RequestMode
  destination : String
  source : String
  name : String
  links : List Link
  settings : Settings

inductive CreateRequest where
  | multi (request : MultiRequest)
  | single (request : SingleRequest)

namespace SingleRequest

def toJson (r : SingleRequest) : Json :=
  .object <|
    [("mode", r.mode.toJson), ("destinationDir", .string r.destination)] ++
      Json.given "sourceFilepath" .string r.source ++
      [("component", r.component.toJson), ("config", r.settings.toJson)]

def read : Reader SingleRequest :=
  ((RequestMode.field.both
    ((Record.required "destinationDir" Reader.text).both
      ((Record.optional "sourceFilepath" Reader.text).both
        ((Record.required "component" Component.read).both
          (.required "config" Settings.read))))).map
    fun (mode, destination, source, component, settings) =>
      SingleRequest.mk mode destination source component settings).read "CreateRequestPayload"

end SingleRequest

namespace MultiRequest

def toJson (r : MultiRequest) : Json :=
  .object [("mode", r.mode.toJson), ("destinationDir", .string r.destination),
    ("sourceFilepath", .string r.source), ("normalizedName", .string r.name),
    ("figmaConnections", .list (r.links.map Link.toJson)), ("config", r.settings.toJson)]

def read : Reader MultiRequest :=
  ((RequestMode.field.both
    ((Record.required "destinationDir" Reader.text).both
      ((Record.required "sourceFilepath" Reader.text).both
        ((Record.required "normalizedName" Reader.text).both
          ((Record.required "figmaConnections" (Reader.list Link.read)).both
            (.required "config" Settings.read)))))).map
    fun (mode, destination, source, name, links, settings) =>
      MultiRequest.mk mode destination source name links settings).read
    "CreateRequestPayloadMulti"

end MultiRequest

namespace CreateRequest

def destination : CreateRequest → String
  | multi r => r.destination
  | single r => r.destination

def settings : CreateRequest → Settings
  | multi r => r.settings
  | single r => r.settings

def toJson : CreateRequest → Json
  | multi r => r.toJson
  | single r => r.toJson

def read : Reader CreateRequest := Reader.firstOf "CreatePayload" [
  fun mode doc => (MultiRequest.read mode doc).map multi,
  fun mode doc => (SingleRequest.read mode doc).map single]

end CreateRequest

structure CreateResponse where
  files : List String
  messages : List Message
  deriving DecidableEq

namespace CreateResponse

def toJson (r : CreateResponse) : Json :=
  .object [
    ("createdFiles", .list (r.files.map fun path => .object [("filePath", .string path)])),
    ("messages", .list (r.messages.map Message.toJson))]

def read : Reader CreateResponse :=
  (((Record.required "createdFiles" (Reader.list
      ((Record.required "filePath" Reader.text).read "CreatedFile"))).both
    (.required "messages" (Reader.list Message.read))).map
    fun (files, messages) => CreateResponse.mk files messages).read "CreateResponsePayload"

end CreateResponse

end DesignLink
