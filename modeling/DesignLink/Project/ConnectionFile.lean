import DesignLink.Disk.Access
import DesignLink.Mapping.Derived
import DesignLink.Mapping.Printer
import DesignLink.Project.Grouping

/-!
New connection files: their text, and how they are written. A file that is there is never written
over.
-/

namespace DesignLink

/-- A connection of a new file. Its component is absent if the file does not import it; the example
shows a component in any case. -/
structure NewConnection where
  component : Option String
  shown : String
  node : String
  props : PropMapping

namespace NewConnection

/-- The example: the component with every prop that can be written as an attribute. -/
def sample (c : NewConnection) : String :=
  let attributes := ((Dictionary.keys c.props).filter Text.isIdentifier).map fun name =>
    name ++ "=\x7bprops." ++ name ++ "\x7d"
  if attributes.isEmpty then "() => <" ++ c.shown ++ " />"
  else "(props) => <" ++ c.shown ++ " " ++ String.intercalate " " attributes ++ " />"

/-- The call that declares the connection. -/
def print (c : NewConnection) : String :=
  "figma.connect(" ++ (c.component.map (· ++ ", ")).getD "" ++ Text.quoted c.node ++
    ", \x7b\n  props: " ++ PropMapping.print 2 c.props ++ ",\n  example: " ++ c.sample ++
    ",\n\x7d)\n"

end NewConnection

/-- The import of a source file's exports, if any are named. -/
def importLine (defaultName : Option String) (named : List String) (specifier : String) :
    Option String :=
  let braced :=
    if named.isEmpty then none else some ("\x7b " ++ String.intercalate ", " named ++ " \x7d")
  let names : Option String :=
    match defaultName, braced with
    | some name, some others => some (name ++ ", " ++ others)
    | some name, none => some name
    | none, others => others
  names.map fun names => "import " ++ names ++ " from \"" ++ specifier ++ "\""

def connectionFileText (imports : List String) (connections : List NewConnection) : String :=
  "import figma from \"@figma/code-connect\"\n" ++
    String.join (imports.map (· ++ "\n")) ++
    String.join (connections.map fun c => "\n" ++ c.print)

namespace Link

/-- The name under which a new file imports the export, given the name of the default export. An
export that is no identifier is not imported. -/
def importedName (l : Link) (defaultName : String) : Option String :=
  if l.sourceExport = "default" then some defaultName
  else if Text.isIdentifier l.sourceExport then some l.sourceExport
  else none

def connection (l : Link) (defaultName : String) : NewConnection :=
  let component := l.importedName defaultName
  { component
    shown := component.getD defaultName
    node := l.component.nodeUrl
    props := l.props.getD l.component.derivedProps }

end Link

namespace MultiRequest

def defaultImport (r : MultiRequest) : Option String :=
  if r.links.any fun l => l.sourceExport = "default" then some r.name else none

def namedImports (r : MultiRequest) : List String :=
  ((r.links.map Link.sourceExport).filter fun name =>
    name ≠ "default" && Text.isIdentifier name).eraseDups

def fileText (r : MultiRequest) (directory : String) : String :=
  let specifier :=
    Path.importSpecifier (Path.join directory r.destination) (Path.join directory r.source)
  connectionFileText (importLine r.defaultImport r.namedImports specifier).toList
    (r.links.map (·.connection r.name))

end MultiRequest

namespace SingleRequest

def connection (r : SingleRequest) : NewConnection :=
  { component := none
    shown := r.fileName
    node := r.component.nodeUrl
    props := r.component.derivedProps }

def fileText (r : SingleRequest) : String := connectionFileText [] [r.connection]

end SingleRequest

namespace CreateRequest

def fileText (r : CreateRequest) (directory : String) : String :=
  match r with
  | multi r => r.fileText directory
  | single r => r.fileText

/-- The answer to a request whose file could not be written. -/
def declined (r : CreateRequest) (cause : DiskError) : CreateResponse :=
  let text :=
    match cause with
    | .alreadyExists => " already exists, not overwriting"
    | cause => ": " ++ cause.message
  ⟨[], [.error (r.destinationFile ++ text)]⟩

/-- Writes the new file of a request below a project directory. -/
def write (r : CreateRequest) (directory : String) (disk : Disk) : CreateResponse × Disk :=
  let folder := Path.join directory r.destination
  match disk.ensureDirectories folder with
  | (.error cause, disk) => (r.declined cause, disk)
  | (.ok (), disk) =>
    let path := Path.join folder (r.fileName ++ "." ++ connectionExtension)
    match disk.create path (r.fileText directory).toUTF8 with
    | .error cause => (r.declined cause, disk)
    | .ok disk => (⟨[r.destinationFile], []⟩, disk)

end CreateRequest

end DesignLink
