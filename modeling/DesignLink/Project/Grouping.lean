import DesignLink.Project.Path
import DesignLink.Protocol.Exchange
import DesignLink.Text.Words

/-!
Groups of pending links: one request for each source file, in the order in which the files are
first seen.
-/

namespace DesignLink

/-- What a connection file's name ends with. -/
def connectionExtension : String := "figma.tsx"

namespace Pending

/-- The directory of the new file: the one asked for, or the directory of the source file. -/
def destination (p : Pending) (outDir : Option String) : String :=
  (outDir <|> Path.parent? p.filepath).getD ""

def fileName (p : Pending) : String := Text.pascal ((Path.fileStem? p.filepath).getD "")

def multiRequest (p : Pending) (settings : Settings) (outDir : Option String) : MultiRequest :=
  ⟨.create, p.destination outDir, p.filepath, p.fileName, [p.link], settings⟩

def singleRequest (p : Pending) (settings : Settings) (outDir : Option String) : SingleRequest :=
  ⟨.create, p.destination outDir, some p.filepath,
    { p.component with normalizedName := some p.fileName }, settings⟩

end Pending

/-- Groups by source file. -/
abbrev Groups := List (String × CreateRequest)

namespace Groups

/-- Adds a link to the group of its file, or starts one. -/
def append (groups : Groups) (p : Pending) (settings : Settings) (outDir : Option String) :
    Groups :=
  match Dictionary.get? groups p.filepath with
  | some (.multi request) =>
    Dictionary.put groups p.filepath
      (.multi { request with links := request.links ++ [p.link] })
  | some (.single _) => groups
  | none => Dictionary.put groups p.filepath (.multi (p.multiRequest settings outDir))

/-- Makes a link the only one of its file. -/
def replace (groups : Groups) (p : Pending) (settings : Settings) (outDir : Option String) :
    Groups :=
  Dictionary.put groups p.filepath (.single (p.singleRequest settings outDir))

end Groups

/-- One request for each source file: ecosystems with several exports per file collect all links of
a file, the others keep the last one. -/
def groupPending (pending : List Pending) (settings : Settings) (outDir : Option String) :
    List CreateRequest :=
  (pending.foldl (fun (groups : Groups) p =>
    if settings.ecosystem.isMultiExport then groups.append p settings outDir
    else groups.replace p settings outDir) []).map (·.2)

namespace SingleRequest

def fileName (r : SingleRequest) : String :=
  r.component.normalizedName.getD (Text.pascal r.component.name)

end SingleRequest

namespace CreateRequest

def fileName : CreateRequest → String
  | multi r => r.name
  | single r => r.fileName

/-- The file that a request is expected to produce. -/
def destinationFile (r : CreateRequest) : String :=
  Path.join r.destination (r.fileName ++ "." ++ connectionExtension)

end CreateRequest

end DesignLink
