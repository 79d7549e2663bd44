/-!
The arguments of the command line: options in front of, between and behind the other words.
-/

namespace DesignLink.CommandLine

/-- What the program is asked to do. -/
inductive Task where
  | props (file : String)
  | render (mapping : String) (selector : Option String)
  | parse (paths : List String) (directory : String) (autoAddImports : Bool)
  | create (connections directory : String) (outDir : Option String)
  deriving DecidableEq, Repr

/-- The kinds of tasks, by the word that asks for them. -/
inductive TaskKind where
  | props
  | render
  | parse
  | create
  deriving DecidableEq, Repr

namespace TaskKind

def all : List TaskKind := [props, render, parse, create]

def word : TaskKind → String
  | props => "props"
  | render => "render"
  | parse => "parse"
  | create => "create"

def ofWord? (word : String) : Option TaskKind := all.find? fun kind => kind.word = word

end TaskKind

/-- What can be wrong with arguments. -/
inductive Misuse where
  | unknown (argument : String)
  | valueMissing (option : String)
  | valueUnexpected (option : String)
  | valueEmpty (name : String)
  | repeated (option : String)
  | argumentMissing (name : String)
  | taskMissing
  deriving DecidableEq, Repr

namespace Misuse

def message : Misuse → String
  | unknown argument => "unexpected argument '" ++ argument ++ "' found"
  | valueMissing option => "a value is required for '" ++ option ++ "' but none was supplied"
  | valueUnexpected option => "unexpected value for '" ++ option ++ "' found; no more were expected"
  | valueEmpty name => "a value is required for '" ++ name ++ "' but none was supplied"
  | repeated option => "the argument '" ++ option ++ "' cannot be used multiple times"
  | argumentMissing name => "the following required arguments were not provided: <" ++ name ++ ">"
  | taskMissing => "a subcommand is required but one was not provided"

end Misuse

/-- What arguments ask for. -/
inductive Request where
  | perform (task : Task) (verbose : Bool)
  | showHelp (about : Option TaskKind)
  | showVersion

/-- Why the reading of arguments ends early: they ask for a text, or they are wrong. -/
inductive Early where
  | asked (request : Request)
  | wrong (misuse : Misuse)

/-- What options can be given where. -/
inductive Scope where
  | program
  | task (kind : TaskKind)
  deriving DecidableEq

namespace Scope

def valued : Scope → List String
  | task .render => ["--selector"]
  | task .parse => ["--dir"]
  | task .create => ["--dir", "--out-dir"]
  | _ => []

/-- The options that take no value and may be given once. -/
def flags : Scope → List String
  | task .parse => ["--quiet", "--auto-add-imports"]
  | _ => ["--quiet"]

/-- How many other words there may be. -/
def operandLimit : Scope → Option Nat
  | program => some 0
  | task .parse => none
  | task _ => some 1

end Scope

/-- The arguments read so far. -/
structure Found where
  values : List (String × String)
  flags : List String
  verbose : Bool
  operands : List String

namespace Found

def none : Found := ⟨[], [], false, []⟩

def value? (found : Found) (option : String) : Option String :=
  (found.values.find? fun entry => entry.1 = option).map (·.2)

def addFlag (found : Found) (option : String) : Except Early Found :=
  if found.flags.contains option then .error (.wrong (.repeated option))
  else .ok { found with flags := option :: found.flags }

def addValue (found : Found) (option value : String) : Except Early Found :=
  if (found.value? option).isSome then .error (.wrong (.repeated option))
  else if value.isEmpty ∧ option ≠ "--selector" then .error (.wrong (.valueEmpty option))
  else .ok { found with values := (option, value) :: found.values }

def addOperand (found : Found) (scope : Scope) (word : String) : Except Early Found :=
  match scope.operandLimit with
  | some limit =>
    if limit ≤ found.operands.length then .error (.wrong (.unknown word))
    else if word.isEmpty then .error (.wrong (.valueEmpty "FILE"))
    else .ok { found with operands := found.operands ++ [word] }
  | .none => .ok { found with operands := found.operands ++ [word] }

/-- Adds the options of a word with a single dash. -/
def addLetters (found : Found) (scope : Scope) : List Char → Except Early Found
  | [] => .ok found
  | 'v' :: rest => addLetters { found with verbose := true } scope rest
  | 'q' :: rest => do addLetters (← found.addFlag "--quiet") scope rest
  | 'h' :: _ =>
    match scope with
    | .program => .error (.asked (.showHelp .none))
    | .task kind => .error (.asked (.showHelp (some kind)))
  | 'V' :: _ =>
    if scope = .program then .error (.asked .showVersion) else .error (.wrong (.unknown "-V"))
  | c :: _ => .error (.wrong (.unknown (String.ofList ['-', c])))

/-- Adds an option with two dashes that takes no value. -/
def addLong (found : Found) (scope : Scope) (option : String) (value : Option String) :
    Except Early Found :=
  let known :=
    scope.flags.contains option ∨ option = "--verbose" ∨ option = "--help" ∨
      (option = "--version" ∧ scope = .program)
  if ¬ known then .error (.wrong (.unknown option))
  else if value.isSome then .error (.wrong (.valueUnexpected option))
  else if option = "--verbose" then .ok { found with verbose := true }
  else if option = "--version" then .error (.asked .showVersion)
  else if option = "--help" then
    match scope with
    | .program => .error (.asked (.showHelp .none))
    | .task kind => .error (.asked (.showHelp (some kind)))
  else found.addFlag option

end Found

/-- The name of an option with two dashes, and the value that follows an equals sign. -/
def splitOption (word : String) : String × Option String :=
  let name := word.toList.takeWhile (· ≠ '=')
  match word.toList.drop name.length with
  | _ :: value => (String.ofList name, some (String.ofList value))
  | [] => (word, none)

/-- Whether a word can not be a value or an operand because it looks like an option. -/
def looksLikeOption (word : String) : Bool :=
  word.toList.head? = some '-' && word ≠ "-"

/-- Reads the options in front of the word that asks for a task; what follows them is that word
and the arguments of the task. -/
def readProgram (found : Found) : List String → Except Early (Found × List String)
  | [] => .error (.wrong .taskMissing)
  | word :: rest =>
    if word = "--" then
      match rest with
      | [] => .error (.wrong .taskMissing)
      | operand :: _ => .error (.wrong (.unknown operand))
    else if word.startsWith "--" then do
      let (option, value) := splitOption word
      readProgram (← found.addLong .program option value) rest
    else if looksLikeOption word then do
      readProgram (← found.addLetters .program word.toList.tail) rest
    else .ok (found, word :: rest)

def readTask (scope : Scope) (found : Found) : List String → Except Early Found
  | [] => .ok found
  | word :: rest =>
    if word = "--" then rest.foldlM (fun found word => found.addOperand scope word) found
    else if word.startsWith "--" then
      let (option, value) := splitOption word
      if scope.valued.contains option then
        match value, rest with
        | some value, rest => do readTask scope (← found.addValue option value) rest
        | none, [] => .error (.wrong (.valueMissing option))
        | none, value :: rest =>
          if looksLikeOption value then .error (.wrong (.valueMissing option))
          else do readTask scope (← found.addValue option value) rest
      else do readTask scope (← found.addLong scope option value) rest
    else if looksLikeOption word then do
      readTask scope (← found.addLetters scope word.toList.tail) rest
    else do readTask scope (← found.addOperand scope word) rest

def taskOf (kind : TaskKind) (found : Found) : Except Early Task :=
  let directory := (found.value? "--dir").getD "."
  match kind, found.operands with
  | .props, file :: _ => .ok (.props file)
  | .props, [] => .error (.wrong (.argumentMissing "FILE"))
  | .render, mapping :: _ => .ok (.render mapping (found.value? "--selector"))
  | .render, [] => .error (.wrong (.argumentMissing "MAPPING"))
  | .parse, paths => .ok (.parse paths directory (found.flags.contains "--auto-add-imports"))
  | .create, connections :: _ =>
    .ok (.create connections directory (found.value? "--out-dir"))
  | .create, [] => .error (.wrong (.argumentMissing "CONNECTIONS"))

/-- Reads a request for help about one of the tasks, or about all of them. -/
def readHelp : List String → Except Early Request
  | [] => .ok (.showHelp none)
  | [word] =>
    match TaskKind.ofWord? word with
    | some kind => .ok (.showHelp (some kind))
    | none => .error (.wrong (.unknown word))
  | _ :: word :: _ => .error (.wrong (.unknown word))

/-- Reads arguments up to their end, unless they ask for a text before. -/
def readRequest (arguments : List String) : Except Early Request := do
  let (outer, rest) ← readProgram .none arguments
  match rest with
  | [] => .error (.wrong .taskMissing)
  | word :: rest =>
    if word = "help" then readHelp rest
    else
      match TaskKind.ofWord? word with
      | none => .error (.wrong (.unknown word))
      | some kind =>
        let found ← readTask (.task kind) .none rest
        let task ← taskOf kind found
        return .perform task (outer.verbose || found.verbose)

def Request.read (arguments : List String) : Except Misuse Request :=
  match readRequest arguments with
  | .ok request => .ok request
  | .error (.asked request) => .ok request
  | .error (.wrong misuse) => .error misuse

end DesignLink.CommandLine
