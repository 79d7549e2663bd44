import DesignLink.Declaration.Connections
import DesignLink.Project.ConnectionFile
import DesignLink.Project.Failure

/-!
What answers requests: this program itself, or a command that takes the request as its input and
prints the answer.
-/

namespace DesignLink

open Wire

inductive Responder where
  | native
  | command (text : String)
  deriving DecidableEq

namespace ParseResponse

def append (a b : ParseResponse) : ParseResponse :=
  ⟨a.documents ++ b.documents, a.messages ++ b.messages⟩

def join (responses : List ParseResponse) : ParseResponse := responses.foldr append ⟨[], []⟩

def document (doc : Published) : ParseResponse := ⟨[doc], []⟩

def error (text : String) : ParseResponse := ⟨[], [.error text]⟩

def info (text : String) : ParseResponse := ⟨[], [.info text]⟩

end ParseResponse

def publishDeclaration (path : String) (settings : Settings) :
    Except Problem Connection → ParseResponse
  | .error problem => .error problem.display
  | .ok connection =>
    match connection.published path settings with
    | .ok doc => .document doc
    | .error nesting => .error (path ++ ": " ++ nesting.message)

def publishText [Diagnoses] (path text : String) (settings : Settings) (verbose : Bool) : ParseResponse :=
  match Declaration.readConnections path text with
  | .error problem => .error problem.display
  | .ok [] =>
    if verbose then .info (path ++ ": no figma.connect calls found") else .join []
  | .ok declarations => .join (declarations.map (publishDeclaration path settings))

namespace Disk

def publishFile [Diagnoses] (disk : Disk) (directory : String) (settings : Settings) (verbose : Bool)
    (path : String) : ParseResponse :=
  match disk.readText (Path.join directory path) with
  | .error cause => .error (path ++ ": " ++ cause.message)
  | .ok text => publishText path text settings verbose

/-- Answers a PARSE request about the files of a project. -/
def publishFiles [Diagnoses] (disk : Disk) (directory : String) (request : ParseRequest) : ParseResponse :=
  .join (request.paths.map
    (disk.publishFile directory request.settings request.options.verbose))

end Disk

/-- The answer that a run of a command printed. A run that did not succeed has none. -/
def Run.answer {α : Type} (run : Run) (destination : String) (read : Reader α) :
    Except Failure α :=
  if run.status.isSuccess then
    (Reader.ofBytes read run.output).mapError (.violation destination)
  else
    .error (.command destination (.exited run.status (Text.trim (Text.ofBytes run.errors))))

namespace Responder

def name : Responder → String
  | native => "native"
  | command text => text

/-- The responder for the settings of a project. -/
def select (settings : Settings) : Except Failure Responder :=
  if settings.ecosystem.isNative then .ok native
  else
    match settings.command with
    | some text => .ok (command text)
    | none => .error (.settings (.commandMissing none settings.ecosystem))

/-- Has a command answer a request. -/
def call {α : Type} (run : Runner) (command directory destination : String) (request : Json)
    (read : Reader α) (disk : Disk) : Except Failure α × Disk :=
  match run command directory request.compact disk with
  | (.error cause, disk) => (.error (.command destination (.notStarted command cause)), disk)
  | (.ok run, disk) => (run.answer destination read, disk)

/-- Answers a PARSE request about a project. -/
def parse [Diagnoses] (responder : Responder) (run : Runner) (directory : String) (request : ParseRequest)
    (disk : Disk) : Except Failure ParseResponse × Disk :=
  match responder with
  | native => (.ok (disk.publishFiles directory request), disk)
  | command text =>
    call run text directory (String.intercalate ", " request.paths) request.toJson
      ParseResponse.read disk

/-- Answers a CREATE request about a project. -/
def create (responder : Responder) (run : Runner) (directory : String) (request : CreateRequest)
    (disk : Disk) : Except Failure CreateResponse × Disk :=
  match responder with
  | native =>
    let (response, disk) := request.write directory disk
    (.ok response, disk)
  | command text =>
    call run text directory request.destination request.toJson CreateResponse.read disk

end Responder

end DesignLink
