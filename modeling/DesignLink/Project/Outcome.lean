import DesignLink.Project.Responder
import DesignLink.Project.Search

/-!
What became of requests: of each CREATE request, and of PARSE for a whole project.
-/

namespace DesignLink

/-- What became of a CREATE request. -/
inductive Status where
  | created (files : List String)
  | rejected
  | failed (failure : Failure)

/-- The report on a CREATE request: the file it was expected to produce and what became of it. -/
structure Report where
  destination : String
  messages : List Message
  status : Status

namespace Report

def succeeded (r : Report) : Bool :=
  match r.status with
  | .created _ => true
  | _ => false

/-- The report on an answer. An answer with an error among its messages is a rejection. -/
def ofAnswer (destination : String) : Except Failure CreateResponse → Report
  | .error failure => ⟨destination, [], .failed failure⟩
  | .ok response =>
    ⟨destination, response.messages,
      if Message.hasErrors response.messages then .rejected else .created response.files⟩

end Report

/-- The reports on requests, in the order of the requests. -/
abbrev Outcome := List Report

namespace Outcome

def allSucceeded (o : Outcome) : Bool := o.all Report.succeeded

def succeeded (o : Outcome) : List Report := o.filter Report.succeeded

def failed (o : Outcome) : List Report := o.filter fun r => r.succeeded = false

end Outcome

namespace Responder

/-- Answers CREATE requests one after the other; each of them whatever became of the others. -/
def createAll (responder : Responder) (run : Runner) (directory : String) :
    List CreateRequest → Disk → Outcome × Disk
  | [], disk => ([], disk)
  | request :: rest, disk =>
    let (answer, disk) := responder.create run directory request disk
    let (others, disk) := responder.createAll run directory rest disk
    (Report.ofAnswer request.destinationFile answer :: others, disk)

/-- Answers a PARSE request about the given files of a project, or about all its connection files
if none are given. -/
def parseProject [Diagnoses] (responder : Responder) (run : Runner) (directory : String) (paths : List String)
    (settings : Settings) (options : ParseOptions) (disk : Disk) :
    Except Failure ParseResponse × Disk :=
  let paths := if paths.isEmpty then disk.connectionFiles directory else .ok paths
  match paths with
  | .error failure => (.error failure, disk)
  | .ok paths => responder.parse run directory ⟨.parse, paths, options, settings⟩ disk

end Responder

end DesignLink
