import DesignLink.Dictionary
import DesignLink.Project.Run
import DesignLink.Shell.Parser
import DesignLink.Shell.Pattern
import DesignLink.Shell.Tool
import DesignLink.Text.Bytes

/-!
Running command lines on a disk.
-/

namespace DesignLink.Shell

/-- Where printed bytes go. -/
inductive Sink where
  | buffer (index : Nat)
  | file (place : Place)
  | nowhere

/-- Where a command reads from and prints to. Inputs are named by their numbers. -/
structure Streams where
  input : Nat
  output : Sink
  errors : Sink

/-- Why no further command is run. -/
inductive Stop where
  | exited (status : Nat)
  | killed (signal : Nat)

/-- The state of a run. The first input is that of the run, the others come from files and pipes.
The first two buffers hold what the run prints and complains about, the others what is on its way
between two commands. The status of the last command that was run inside a word is kept apart from
that of the last command. -/
structure Session where
  disk : Disk
  values : List (String × String)
  inputs : Array (List UInt8)
  buffers : Array (List UInt8)
  status : Nat
  inner : Option Nat
  stop : Option Stop

namespace Session

def start (disk : Disk) (input : List UInt8) : Session :=
  { disk, values := [], inputs := #[input], buffers := #[[], []], status := 0, inner := none
    stop := none }

def write (session : Session) (sink : Sink) (bytes : List UInt8) : Session :=
  match sink with
  | .buffer index => { session with buffers := session.buffers.modify index (· ++ bytes) }
  | .file place =>
    match session.disk.tree.at? place with
    | some (.file content) =>
      { session with
        disk := session.disk.put place (.file (content ++ bytes.toByteArray)) }
    | _ => session
  | .nowhere => session

def complain (session : Session) (streams : Streams) (text : String) : Session :=
  session.write streams.errors (ToolResult.bytesOf ("sh: 1: " ++ text ++ "\n"))

def withStatus (session : Session) (status : Nat) : Session := { session with status }

/-- Adds an input. -/
def feed (session : Session) (bytes : List UInt8) : Session × Nat :=
  ({ session with inputs := session.inputs.push bytes }, session.inputs.size)

/-- The session after a part that ran on its own: it keeps the values and the directory of the
session before, and an exit inside ends the part only. -/
def leave (session outer : Session) : Session :=
  let kept : Session :=
    { session with
      values := outer.values
      disk := { session.disk with here := outer.disk.here } }
  match session.stop with
  | some (.exited status) => { kept with status, stop := none }
  | _ => kept

/-- Runs a part on its own and takes what it prints. -/
def capture (session : Session) (part : Sink → Session → Session) : List UInt8 × Session :=
  let index := session.buffers.size
  let after := (part (.buffer index) { session with buffers := session.buffers.push [] }).leave
    session
  (after.buffers[index]?.getD [], after)

def processId : String := "2"

def parameter (session : Session) (name : String) : String :=
  match name with
  | "$" => processId
  | "?" => toString session.status
  | "#" => "0"
  | "0" => "sh"
  | name => (Dictionary.get? session.values name).getD ""

end Session

/-- A part of an expanded word. What comes from outside quotes is cut at blanks, unless it stands in
the word itself; in quotes nothing is part of a pattern. -/
structure Fragment where
  text : String
  quoted : Bool
  cut : Bool

/-- The text of printed bytes as a value: without line breaks at its end. -/
def valueOf (bytes : List UInt8) : String :=
  Text.ofBytes (((bytes.filter (· ≠ 0)).reverse.dropWhile (· = 10)).reverse).toByteArray

def isFieldBlank (c : Char) : Bool := c = ' ' || c = '\t' || c = '\n'

/-- Cuts a text at blanks into the fields before and the one that is not complete. -/
def cutText (fields : List String) (current : Option (List Char)) (text : List Char) :
    List String × Option (List Char) :=
  text.foldl (fun (fields, current) c =>
    if isFieldBlank c then
      match current with
      | some word => (fields ++ [String.ofList word], none)
      | none => (fields, none)
    else (fields, some (current.getD [] ++ [c]))) (fields, current)

/-- The fields of an expanded word. -/
def fieldsOf (fragments : List Fragment) : List String :=
  let (fields, current) := fragments.foldl (fun (fields, current) fragment =>
    if fragment.cut then cutText fields current fragment.text.toList
    else (fields, some (current.getD [] ++ fragment.text.toList)))
    (([], none) : List String × Option (List Char))
  match current with
  | some word => fields ++ [String.ofList word]
  | none => fields

/-- The value of an expanded word that is not cut. -/
def joinedText (fragments : List Fragment) : String := String.join (fragments.map Fragment.text)

/-- The pattern of an expanded word. Unquoted parts that follow each other are read together. -/
def patternOf : List Char → List Fragment → Pattern
  | plain, [] => Pattern.ofText (plain.length + 1) plain
  | plain, fragment :: rest =>
    if fragment.quoted then
      Pattern.ofText (plain.length + 1) plain ++
        fragment.text.toList.map .literal ++ patternOf [] rest
    else patternOf (plain ++ fragment.text.toList) rest

/-- What a complaint says about a file that can not be opened or made. -/
def openError (creating : Bool) : DiskError → String
  | .notFound | .notDirectory => if creating then "Directory nonexistent" else "No such file"
  | cause => toolError cause

/-- The session and streams behind a redirection to a path; the error text if there is none. -/
def redirect (session : Session) (streams : Streams) (descriptor : Nat) (direction : Direction)
    (target : String) : Except String (Session × Streams) :=
  let aimed (sink : Sink) : Streams :=
    if descriptor = 1 then { streams with output := sink }
    else if descriptor = 2 then { streams with errors := sink }
    else streams
  match direction with
  | .duplicate =>
    match target with
    | "1" => .ok (session, aimed streams.output)
    | "2" => .ok (session, aimed streams.errors)
    | "0" | "-" => .ok (session, aimed .nowhere)
    | _ => .error ("Syntax error: Bad fd number")
  | .input =>
    let fed (bytes : List UInt8) : Session × Streams :=
      let (session, input) := session.feed bytes
      (session, { streams with input })
    if target = "/dev/null" then .ok (fed [])
    else if target = "/dev/stdin" then .ok (session, streams)
    else
      match session.disk.read target with
      | .ok content => .ok (fed content.toList)
      | .error .isDirectory => .ok (fed [])
      | .error cause => .error ("cannot open " ++ target ++ ": " ++ openError false cause)
  | direction =>
    if target = "/dev/null" ∨ target = "/dev/zero" then .ok (session, aimed .nowhere)
    else if target = "/dev/stdout" then .ok (session, aimed streams.output)
    else if target = "/dev/stderr" then .ok (session, aimed streams.errors)
    else
      let opened : Except DiskError (Disk × Place) := do
        let old :=
          if direction = .append then (session.disk.read target).toOption.getD .empty else .empty
        let disk ← session.disk.write target old
        return (disk, ← disk.target target)
      match opened with
      | .ok (disk, place) => .ok ({ session with disk }, aimed (.file place))
      | .error cause => .error ("cannot create " ++ target ++ ": " ++ openError true cause)

/-- The signal that a word names: a number, or a name with or without its first three letters. -/
def signalOf? (word : String) : Option Nat :=
  match word.toNat? with
  | some number => some number
  | none =>
    let name := if word.startsWith "SIG" then String.ofList (word.toList.drop 3) else word
    (ExitStatus.signalNames.idxOf? name).map (· + 1)

/-- The signals that do not end a process. -/
def harmlessSignals : List Nat := [0, 17, 18, 23, 28]

/-- Sends a signal to a process; the only process there is is the one that runs the command. -/
def kill (session : Session) (streams : Streams) (words : List String) : Session :=
  let (signal, targets) : Option Nat × List String :=
    match words with
    | "-s" :: name :: rest => (signalOf? name, rest)
    | word :: rest =>
      match word.toList with
      | '-' :: name => (signalOf? (String.ofList name), rest)
      | _ => (some 15, words)
    | [] => (some 15, [])
  match signal, targets with
  | some signal, [target] =>
    if target ≠ Session.processId then
      (session.complain streams "kill: No such process").withStatus 1
    else if harmlessSignals.contains signal then session.withStatus 0
    else { session with stop := some (.killed signal) }
  | none, _ => (session.complain streams "kill: Illegal option").withStatus 2
  | _, _ => (session.complain streams "kill: usage").withStatus 2

/-- Ends the run with a status, by default that of the last command. -/
def exit (session : Session) (streams : Streams) (words : List String) : Session :=
  match words with
  | [] => { session with stop := some (.exited session.status) }
  | word :: _ =>
    match word.toNat? with
    | some status => { session with stop := some (.exited (status % 256)) }
    | none =>
      { session.complain streams ("exit: Illegal number: " ++ word) with
        stop := some (.exited 2) }

/-- Runs a command given by its name and words. -/
def execute (session : Session) (streams : Streams) (name : String) (words : List String) :
    Session :=
  match name with
  | "exit" => exit session streams words
  | "kill" => kill session streams words
  | name =>
    match tool? name with
    | some tool =>
      let result := tool ⟨session.disk, session.inputs[streams.input]?.getD []⟩ words
      let session :=
        { session with
          inputs := session.inputs.setIfInBounds streams.input result.input
          status := result.status }
      (session.write streams.output result.output).write streams.errors result.errors
    | none =>
      if name.toList.contains '/' ∧ session.disk.contains name then
        (session.complain streams (name ++ ": Permission denied")).withStatus 126
      else (session.complain streams (name ++ ": not found")).withStatus 127

mutual

def expand (streams : Streams) (session : Session) : List Piece → List Fragment × Session
  | [] => ([], session)
  | .text value quoted :: rest =>
    let (fragments, session) := expand streams session rest
    (⟨value, quoted, false⟩ :: fragments, session)
  | .parameter name quoted :: rest =>
    let value := session.parameter name
    let (fragments, session) := expand streams session rest
    (⟨value, quoted, !quoted⟩ :: fragments, session)
  | .output command quoted :: rest =>
    let (bytes, after) := session.capture fun sink session =>
      eval { streams with output := sink } session command
    let session := { after with status := session.status, inner := some after.status }
    let (fragments, session) := expand streams session rest
    (⟨valueOf bytes, quoted, !quoted⟩ :: fragments, session)

/-- Expands words and cuts them into fields. -/
def expandAll (streams : Streams) (session : Session) : List (List Piece) → List String × Session
  | [] => ([], session)
  | word :: rest =>
    let (fragments, session) := expand streams session word
    let (fields, session) := expandAll streams session rest
    (fieldsOf fragments ++ fields, session)

def assign (streams : Streams) (session : Session) : List (String × List Piece) → Session
  | [] => session
  | (name, word) :: rest =>
    let (fragments, session) := expand streams session word
    assign streams
      { session with values := Dictionary.put session.values name (joinedText fragments) }
      rest

/-- Carries out redirections; no streams are left if one of them fails. -/
def redirectAll (streams : Streams) (session : Session) :
    List Redirection → Option Streams × Session
  | [] => (some streams, session)
  | .mk descriptor direction target :: rest =>
    let (fragments, session) := expand streams session target
    match redirect session streams descriptor direction (joinedText fragments) with
    | .ok (session, streams) => redirectAll streams session rest
    | .error text => (none, (session.complain streams text).withStatus 2)

/-- Whether a value is of one of some patterns. -/
def someMatch (streams : Streams) (session : Session) (value : List Char) :
    List (List Piece) → Bool × Session
  | [] => (false, session)
  | word :: rest =>
    let (fragments, session) := expand streams session word
    if (patternOf [] fragments).accepts value then (true, session)
    else someMatch streams session value rest

/-- Runs the first branch that has a pattern for a value. -/
def choose (streams : Streams) (session : Session) (value : List Char) :
    List (List (List Piece) × Command) → Session
  | [] => session.withStatus 0
  | (patterns, body) :: rest =>
    let (found, session) := someMatch streams session value patterns
    if found then eval streams session body
    else choose streams session value rest

def eval (streams : Streams) (session : Session) : Command → Session
  | .nothing => session.withStatus 0
  | .simple assignments words redirections =>
    let (fields, session) := expandAll streams { session with inner := none } words
    match redirectAll streams session redirections with
    | (none, session) => session
    | (some redirected, session) =>
      match fields with
      | name :: words => execute session redirected name words
      | [] =>
        let session := assign streams session assignments
        session.withStatus (session.inner.getD 0)
  | .redirected body redirections =>
    match redirectAll streams session redirections with
    | (none, session) => session
    | (some redirected, session) => eval redirected session body
  | .subshell body => (eval streams session body).leave session
  | .choice subject branches =>
    let (fragments, session) := expand streams session subject
    choose streams session (joinedText fragments).toList branches
  | .conditional test yes no =>
    let session := eval streams session test
    if session.stop.isSome then session
    else if session.status = 0 then eval streams session yes
    else eval streams session no
  | .pipe first second =>
    let (bytes, session) := session.capture fun sink session =>
      eval { streams with output := sink } session first
    if session.stop.isSome then session
    else
      let (fed, input) := session.feed bytes
      (eval { streams with input } fed second).leave session
  | .both first second =>
    let session := eval streams session first
    if session.stop.isSome ∨ session.status ≠ 0 then session else eval streams session second
  | .either first second =>
    let session := eval streams session first
    if session.stop.isSome ∨ session.status = 0 then session else eval streams session second
  | .sequence first second =>
    let session := eval streams session first
    if session.stop.isSome then session else eval streams session second
  | .negation body =>
    let session := eval streams session body
    if session.stop.isSome then session
    else session.withStatus (if session.status = 0 then 1 else 0)

end

def Session.exitStatus (session : Session) : ExitStatus :=
  match session.stop with
  | some (.exited status) => .code status
  | some (.killed signal) => .signal signal
  | none => .code session.status

/-- Runs a command line in a directory. -/
def run : Runner := fun command directory input disk =>
  if command.toList.contains '\x00' ∨ directory.toList.contains '\x00' then
    (.error .nulInCommand, disk)
  else
    match disk.enter directory with
    | .error cause => (.error cause, disk)
    | .ok inside =>
      match Command.read command with
      | .error fault =>
        (.ok ⟨.code 2, .empty, ("sh: 1: " ++ fault.message ++ "\n").toUTF8⟩, disk)
      | .ok line =>
        let session := eval ⟨0, .buffer 0, .buffer 1⟩ (.start inside input.toUTF8.toList) line
        let printed (index : Nat) : ByteArray := (session.buffers[index]?.getD []).toByteArray
        (.ok ⟨session.exitStatus, printed 0, printed 1⟩, { session.disk with here := disk.here })

end DesignLink.Shell
