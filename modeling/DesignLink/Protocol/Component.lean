import DesignLink.Mapping.Document

/-!
Components of the design and their links to exports of source files.
-/

namespace DesignLink

open Wire

/-- A component of the design. Definitions of its properties are kept as they came. -/
structure Component where
  nodeUrl : String
  id : String
  name : String
  normalizedName : Option String
  nodeType : Option String
  definitions : Option (List (String × Json))

namespace Component

def toJson (c : Component) : Json :=
  .object <|
    [("figmaNodeUrl", .string c.nodeUrl), ("id", .string c.id), ("name", .string c.name)] ++
      Json.given "normalizedName" .string c.normalizedName ++
      Json.given "type" .string c.nodeType ++
      Json.given "componentPropertyDefinitions" .object c.definitions

def record : Record Component :=
  ((Record.required "figmaNodeUrl" Reader.text).both
    ((Record.defaulted "id" "" Reader.text).both
      ((Record.defaulted "name" "" Reader.text).both
        ((Record.optional "normalizedName" Reader.text).both
          ((Record.optional "type" Reader.text).both
            (.optional "componentPropertyDefinitions"
              (Reader.dictionary Reader.anything))))))).map
    fun (nodeUrl, id, name, normalizedName, nodeType, definitions) =>
      ⟨nodeUrl, id, name, normalizedName, nodeType, definitions⟩

def read : Reader Component := record.read "ComponentDescriptor"

end Component

/-- The types of the properties of an export, by name. -/
abbrev Signature := List (String × String)

namespace Signature

def toJson (s : Signature) : Json := .object (s.map fun (name, type) => (name, .string type))

def read : Reader Signature := Reader.dictionary Reader.text

def field : Record (Option Signature) :=
  .optionalAs "typeSignature" ["reactTypeSignature"] read

end Signature

/-- A component linked to an export of the source file at hand. -/
structure Link where
  sourceExport : String
  props : Option PropMapping
  signature : Option Signature
  component : Component

namespace Link

def toJson (l : Link) : Json :=
  .object <|
    [("sourceExport", .string l.sourceExport)] ++
      Json.given "propMapping" PropMapping.toJson l.props ++
      Json.given "typeSignature" Signature.toJson l.signature ++
      [("component", l.component.toJson)]

def record : Record Link :=
  ((Record.required "sourceExport" Reader.text).both
    ((Record.optional "propMapping" PropMapping.read).both
      (Signature.field.both (.required "component" Component.read)))).map
    fun (sourceExport, props, signature, component) => ⟨sourceExport, props, signature, component⟩

def read : Reader Link := record.read "FigmaConnection"

end Link

/-- A component linked to an export of some source file, waiting to be written. -/
structure Pending where
  filepath : String
  sourceExport : String
  component : Component
  props : Option PropMapping
  signature : Option Signature

namespace Pending

def toJson (p : Pending) : Json :=
  .object <|
    [("filepath", .string p.filepath), ("sourceExport", .string p.sourceExport),
      ("component", p.component.toJson)] ++
      Json.given "propMapping" PropMapping.toJson p.props ++
      Json.given "typeSignature" Signature.toJson p.signature

def record : Record Pending :=
  ((Record.required "filepath" Reader.text).both
    ((Record.defaulted "sourceExport" "default" Reader.text).both
      ((Record.required "component" Component.read).both
        ((Record.optional "propMapping" PropMapping.read).both Signature.field)))).map
    fun (filepath, sourceExport, component, props, signature) =>
      ⟨filepath, sourceExport, component, props, signature⟩

def read : Reader Pending := record.read "PendingConnection"

def link (p : Pending) : Link := ⟨p.sourceExport, p.props, p.signature, p.component⟩

end Pending

end DesignLink
