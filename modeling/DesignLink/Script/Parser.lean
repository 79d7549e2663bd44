import DesignLink.Script.Token
import DesignLink.Script.Tree

/-!
Parsers: they move over tokens, fail at the first thing that does not fit, and can be taken back.
-/

namespace DesignLink.Script

/-- The state of a parser: the token it stands at, the end of the token before, and how many
defaults in object literals still wait for their literal to turn out a pattern. -/
structure State where
  lexeme : Lexeme
  previous : Nat
  waiting : Nat

abbrev Parser := StateT State Option

/-- What surrounds a piece of code, as far as it decides what the piece may be. -/
structure Context where
  /-- `in` is an operator. -/
  allowsIn : Bool
  /-- `yield` is an operator. -/
  yields : Bool
  /-- `await` is an operator. -/
  awaits : Bool
  /-- `return` may stand here. -/
  returns : Bool
  /-- Brackets do not go on with the expression, as behind an `@`. -/
  decorates : Bool
  /-- Bodies and initial values may be missing. -/
  ambient : Bool
  /-- `extends` goes on with a type. -/
  allowsConditional : Bool

namespace Context

/-- The context of the statements of a module. -/
def module : Context := ⟨true, false, true, false, false, false, true⟩

def withIn (c : Context) : Context := { c with allowsIn := true, decorates := false }

def withoutIn (c : Context) : Context := { c with allowsIn := false }

/-- The context of the parameters and the body of a function. -/
def ofFunction (c : Context) (isAsync isGenerator : Bool) : Context :=
  { c with
    allowsIn := true, yields := isGenerator, awaits := isAsync, returns := true,
    decorates := false }

end Context

namespace Parser

def fail {α : Type} : Parser α := fun _ => none

def lexeme : Parser Lexeme := fun s => some (s.lexeme, s)

def token : Parser Token := fun s => some (s.lexeme.token, s)

/-- Where the current token starts. -/
def start : Parser Nat := fun s => some (s.lexeme.start, s)

/-- The span from an offset to the end of the token before the current one. -/
def spanFrom (start : Nat) : Parser Span := fun s => some (⟨start, s.previous⟩, s)

/-- Whether a line ends before the current token. -/
def onNewLine : Parser Bool := fun s => some (s.lexeme.newline, s)

/-- Moves on to the next token. -/
def advance : Parser Unit := fun s =>
  match s.lexeme.token with
  | .fault => none
  | _ => some ((), { s with lexeme := .next s.lexeme.after, previous := s.lexeme.stop })

/-- Moves on to a token that was scanned in another way, behind an end. -/
def moveTo (previous : Nat) (lexeme : Lexeme) : Parser Unit := fun s =>
  some ((), { s with lexeme := lexeme, previous := previous })

/-- Tries a parser and takes it back if it fails. -/
def attempt {α : Type} (p : Parser α) : Parser (Option α) := fun s =>
  match p s with
  | some (a, s') => some (some a, s')
  | none => some (none, s)

/-- Looks at what a parser would find, without moving. -/
def peek {α : Type} (p : Parser α) : Parser (Option α) := fun s => some ((p s).map (·.1), s)

/-- The first of two parsers that does not fail. -/
def orElse {α : Type} (p q : Parser α) : Parser α := fun s =>
  match p s with
  | some result => some result
  | none => q s

def wouldRead {α : Type} (p : Parser α) : Parser Bool := fun s => some ((p s).isSome, s)

/-- The text of a mark or of a word without escapes. -/
def plainText : Token → Option String
  | .mark text => some text
  | .word text false => some text
  | _ => none

/-- Whether the current token is this mark or word. -/
def at? (text : String) : Parser Bool := fun s => some (plainText s.lexeme.token == some text, s)

def atAny (texts : List String) : Parser Bool := fun s =>
  some (((plainText s.lexeme.token).map texts.contains).getD false, s)

/-- Moves over a mark or word if it is there. -/
def eat (text : String) : Parser Bool := do
  if ← at? text then
    advance
    return true
  else return false

/-- Moves over a mark or word that must be there. -/
def expect (text : String) : Parser Unit := do
  if ← at? text then advance else fail

def require (condition : Bool) : Parser Unit := if condition then pure () else fail

/-- Repeats a step until it gives a result; `bound` bounds the number of steps. -/
def iterate {α β : Type} (step : α → Parser (α ⊕ β)) : Nat → α → Parser β
  | 0, _ => fail
  | bound + 1, a => do
    match ← step a with
    | .inl a => iterate step bound a
    | .inr b => pure b

/-- Collects parts as long as `more` says so. -/
def collectWhile {α : Type} (bound : Nat) (more : Parser Bool) (part : Parser α) :
    Parser (List α) :=
  iterate (fun found => do
    if ← more then
      let next ← part
      return .inl (next :: found)
    else return .inr found.reverse) bound []

/-- Parts with commas between them up to a closing mark, which is not taken; a comma may follow the
last one. -/
def listUntil {α : Type} (bound : Nat) (close : String) (part : Parser α) : Parser (List α) :=
  iterate (fun found => do
    if ← at? close then return .inr found.reverse
    else
      let next ← part
      let found := next :: found
      if ← eat "," then return .inl found
      else
        require (← at? close)
        return .inr found.reverse) bound []

/-- Parts with a separator between them, at least one. -/
def separated {α : Type} (bound : Nat) (separator : String) (part : Parser α) :
    Parser (List α) := do
  let first ← part
  let rest ← collectWhile bound (at? separator) (do advance; part)
  return first :: rest

/-- The words that can not be names. -/
def reserved : List String := [
  "break", "case", "catch", "class", "const", "continue", "debugger", "default", "delete", "do",
  "else", "enum", "export", "extends", "false", "finally", "for", "function", "if", "import", "in",
  "instanceof", "new", "null", "return", "super", "switch", "this", "throw", "true", "try",
  "typeof", "var", "void", "while", "with"]

/-- Whether a word may be a name in a context. -/
def isName (c : Context) (text : String) : Bool :=
  !reserved.contains text && !(c.yields && text == "yield") && !(c.awaits && text == "await")

/-- The current word, if it may be a name. -/
def nameHere? (c : Context) : Parser (Option String) := fun s =>
  match s.lexeme.token with
  | .word text _ => some (if isName c text then some text else none, s)
  | _ => some (none, s)

def atName (c : Context) : Parser Bool := do return (← nameHere? c).isSome

def name (c : Context) : Parser String := do
  match ← nameHere? c with
  | some text =>
    advance
    return text
  | none => fail

/-- Whether the current token is any word. -/
def atWord : Parser Bool := do
  match ← token with
  | .word _ _ => return true
  | _ => return false

def anyWord : Parser String := do
  match ← token with
  | .word text _ =>
    advance
    return text
  | _ => fail

def endStatement : Parser Unit := do
  if ← eat ";" then return ()
  else if (← at? "\x7d") || (← onNewLine) then return ()
  else require ((← token) == .finished)

def canEndStatement : Parser Bool := do
  return (← atAny [";", "\x7d"]) || (← onNewLine) || (← token) == .finished

/-- Takes what follows a closing angle into one operator, if it belongs to one. -/
def joinAngle : Parser Unit := fun s =>
  match s.lexeme.token with
  | .mark ">" =>
    match Token.markOf Token.angleMarks s.lexeme.here with
    | none => some ((), s)
    | some text =>
      let lexeme := { s.lexeme with
        token := .mark text
        stop := s.lexeme.start + text.utf8ByteSize
        rest := s.lexeme.here.drop text.length }
      some ((), { s with lexeme := lexeme })
  | _ => some ((), s)

/-- Takes only the first angle of an operator that starts with one, at the start of type
arguments. -/
def splitAngle : Parser Unit := fun s =>
  match s.lexeme.token with
  | .mark "<<" =>
    let lexeme := { s.lexeme with
      token := .mark "<"
      stop := s.lexeme.start + 1
      rest := s.lexeme.here.drop 1 }
    some ((), { s with lexeme := lexeme })
  | _ => some ((), s)

/-- Counts a default in an object literal. -/
def addWaiting : Parser Unit := fun s => some ((), { s with waiting := s.waiting + 1 })

/-- Settles defaults whose literal is a pattern. -/
def settleWaiting (count : Nat) : Parser Unit := fun s =>
  some ((), { s with waiting := s.waiting - count })

end Parser

end DesignLink.Script
