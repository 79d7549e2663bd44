import DesignLink.Text.Source

/-!
Problems of declarations: what was wrong, where it stands and which text is meant.
-/

namespace DesignLink

inductive ProblemKind where
  | invalidArgument
  | unknownHelper
  | wildcardInArray
  | duplicateKey
  | malformed
  deriving DecidableEq, Repr

namespace ProblemKind

/-- The published name of the kind. -/
def name : ProblemKind → String
  | invalidArgument => "InvalidArgument"
  | unknownHelper => "UnknownIntrinsic"
  | wildcardInArray => "UnsupportedWildcardInArray"
  | duplicateKey => "DuplicateKey"
  | malformed => "Syntax"

/-- The stable code of the kind. -/
def code : ProblemKind → String
  | invalidArgument => "FCC-PARSE-001"
  | unknownHelper => "FCC-PARSE-002"
  | wildcardInArray => "FCC-PARSE-003"
  | duplicateKey => "FCC-PARSE-004"
  | malformed => "FCC-PARSE-005"

/-- The advice that goes with the kind. -/
def hint : ProblemKind → String
  | invalidArgument => "Helper arguments must be literals written inline in the call."
  | unknownHelper =>
    "Only figma.boolean, figma.enum, figma.string, figma.instance, figma.children, " ++
    "figma.nestedProps, figma.className and figma.textContent are understood."
  | wildcardInArray =>
    "Wildcards can not be used with an array of strings. Use a single string literal instead."
  | duplicateKey => "Each key of a prop or value mapping may appear only once."
  | malformed => "The file could not be parsed as TypeScript/JSX."

end ProblemKind

/-- What the parser of scripts says about a text that it refuses: a message, and the byte that it
points at, if it points at any. -/
structure Diagnosis where
  message : String
  label : Option Nat

/-- The diagnoses of the parser, in its own words. No text is read otherwise because of them. -/
class Diagnoses where
  diagnosis : List Char → Diagnosis

/-- A parser that says no more than that there is something wrong. -/
instance : Diagnoses := ⟨fun _ => ⟨"The text is not a module", none⟩⟩

/-- The refusal of a text by the parser. -/
structure SyntaxError where
  message : String
  file : String
  location : Location
  deriving DecidableEq, Repr

/-- A problem of a declaration, or of the whole text that declarations are looked for in. -/
inductive Problem where
  | found (kind : ProblemKind) (message file : String) (location : Location)
      (context : Option String)
  | unreadable (error : SyntaxError)
  deriving DecidableEq, Repr

namespace Problem

def kind : Problem → ProblemKind
  | found kind _ _ _ _ => kind
  | unreadable _ => .malformed

def message : Problem → String
  | found _ message _ _ _ => message
  | unreadable error => error.message

def file : Problem → String
  | found _ _ file _ _ => file
  | unreadable error => error.file

def location : Problem → Location
  | found _ _ _ location _ => location
  | unreadable error => error.location

def context : Problem → Option String
  | found _ _ _ _ context => context
  | unreadable _ => none

/-- The problem as one line of text. -/
def display (p : Problem) : String :=
  s!"{p.file}:{p.location.line}:{p.location.column}: {p.message} [{p.kind.code}]"

end Problem

namespace Source

/-- A problem with the text of a span. -/
def problem (source : Source) (kind : ProblemKind) (message : String) (span : Span) : Problem :=
  let text := source.textOf span
  .found kind message source.file (source.location span.start)
    (if text.isEmpty then none else some text)

/-- A problem with the form of the text at an offset. -/
def malformedAt (source : Source) (message : String) (offset : Nat) : Problem :=
  .found .malformed message source.file (source.location offset) none

/-- The problem with a text that the parser refuses. It stands where the parser points, otherwise at
the start. -/
def refused [Diagnoses] (source : Source) : Problem :=
  let diagnosis := Diagnoses.diagnosis source.text
  .unreadable ⟨diagnosis.message, source.file, source.location (diagnosis.label.getD 0)⟩

end Source

end DesignLink
