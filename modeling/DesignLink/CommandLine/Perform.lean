import DesignLink.CommandLine.Help
import DesignLink.Mapping.Template
import DesignLink.Project.Configuration
import DesignLink.Project.Outcome

/-!
Carrying out what the command line asks for.
-/

namespace DesignLink.CommandLine

open Wire

/-- What the program leaves: its exit status, what it printed, and what it complained about. -/
structure Output where
  exit : Nat
  text : String
  complaint : String

namespace Output

def printed (text : String) : Output := ⟨0, text, ""⟩

def complained (complaint : String) : Output := ⟨1, "", complaint⟩

/-- The output of a task that may have come to no end. -/
def ofResult : Except String Output → Output
  | .ok output => output
  | .error complaint => complained complaint

end Output

/-- The text of a file that the task works on. -/
def readOperand (disk : Disk) (path : String) : Except String String :=
  (disk.readText path).mapError fun cause => "reading " ++ path ++ ": " ++ cause.message

/-- The first value of a file. -/
def readValue {α : Type} (disk : Disk) (path expected : String) (read : Reader α) :
    Except String α := do
  let text ← readOperand disk path
  (Reader.ofText read text).mapError fun refusal =>
    path ++ " is not " ++ expected ++ ": " ++ refusal.pathText ++ ": " ++ refusal.cause.message

/-- Reads the helper calls of a file and prints the mapping. -/
def printProps [Diagnoses] (disk : Disk) (file : String) : Except String Output := do
  let text ← readOperand disk file
  let props ← (Declaration.readProps file text).mapError Problem.display
  return .printed ((PropMapping.toJson props).pretty 0 ++ "\n")

def printCode (disk : Disk) (mapping : String) (selector : Option String) :
    Except String Output := do
  let props ← readValue disk mapping "a PropMapping" PropMapping.read
  let code ← (PropMapping.render selector props).mapError UnsupportedNesting.message
  return .printed (code ++ "\n")

/-- The settings of a project, and what answers its requests. -/
def responderOf (disk : Disk) (directory : String) : Except String (Settings × Responder) := do
  let project ← (disk.projectSettings directory).mapError Failure.message
  let responder ← (Responder.select project.settings).mapError Failure.message
  return (project.settings, responder)

/-- Prints the answer to a PARSE request; an error among its messages makes the exit status. -/
def printParsed [Diagnoses] (run : Runner) (paths : List String) (directory : String)
    (options : ParseOptions) (disk : Disk) : Output × Disk :=
  match responderOf disk directory with
  | .error complaint => (.complained complaint, disk)
  | .ok (settings, responder) =>
    match responder.parseProject run directory paths settings options disk with
    | (.error failure, disk) => (.complained failure.message, disk)
    | (.ok response, disk) =>
      (⟨if Message.hasErrors response.messages then 1 else 0, response.toJson.pretty 0 ++ "\n", ""⟩,
        disk)

/-- The lines that tell what became of a CREATE request. -/
def reportLines (r : Report) : List String :=
  match r.status with
  | .created files => files.map fun file => "created  " ++ file
  | .rejected => ["rejected " ++ r.destination]
  | .failed failure => ["failed   " ++ r.destination ++ ": " ++ failure.message]

/-- Creates the files of pending links and prints what became of each of them. -/
def printCreated (run : Runner) (connections directory : String) (outDir : Option String)
    (disk : Disk) : Output × Disk :=
  let prepared : Except String (List CreateRequest × Responder) := do
    let project ← (disk.projectSettings directory).mapError Failure.message
    let pending ← readValue disk connections "a list of connections" (Reader.list Pending.read)
    let responder ← (Responder.select project.settings).mapError Failure.message
    return (groupPending pending project.settings outDir, responder)
  match prepared with
  | .error complaint => (.complained complaint, disk)
  | .ok (requests, responder) =>
    let (outcome, disk) := responder.createAll run directory requests disk
    let lines := outcome.flatMap reportLines
    (⟨if outcome.allSucceeded then 0 else 1, String.join (lines.map (· ++ "\n")), ""⟩, disk)

def Task.files : Task → List String
  | .props file => [file]
  | .render mapping _ => [mapping]
  | .parse paths directory _ =>
    Path.join directory settingsFileName :: paths.map (Path.join directory)
  | .create connections directory _ => [Path.join directory settingsFileName, connections]

/-- Whether a task looks for connection files. -/
def Task.searches : Task → Bool
  | .parse [] _ _ => true
  | _ => false

/-- Carries out a task. -/
def perform [Diagnoses] (run : Runner) (task : Task) (verbose : Bool) (disk : Disk) : Output × Disk :=
  match task with
  | .props file => (.ofResult (printProps disk file), disk)
  | .render mapping selector => (.ofResult (printCode disk mapping selector), disk)
  | .parse paths directory autoAddImports =>
    printParsed run paths directory ⟨autoAddImports, verbose⟩ disk
  | .create connections directory outDir => printCreated run connections directory outDir disk

/-- Carries out what arguments ask for. -/
def run [Diagnoses] (run : Runner) (arguments : List String) (disk : Disk) : Output × Disk :=
  match Request.read arguments with
  | .error misuse => (⟨2, "", "error: " ++ misuse.message⟩, disk)
  | .ok (.showHelp about) => (.printed (helpText about), disk)
  | .ok .showVersion => (.printed versionText, disk)
  | .ok (.perform task verbose) => perform run task verbose disk

end DesignLink.CommandLine
