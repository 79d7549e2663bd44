import DesignLink.Shell.Syntax

/-!
Reading command lines. Every reader takes the text from where it stands and returns what follows;
the first argument of those that nest bounds the nesting and the number of parts.
-/

namespace DesignLink.Shell

def isNameStart (c : Char) : Bool := c.isAlpha || c = '_'

def isNamePart (c : Char) : Bool := isNameStart c || c.isDigit

/-- Whether a character outside quotes ends a word. -/
def endsWord (c : Char) : Bool :=
  [' ', '\t', '\n', ';', '&', '|', '<', '>', '(', ')'].contains c

def reservedWords : List String :=
  ["!", "\x7b", "\x7d", "case", "do", "done", "elif", "else", "esac", "fi", "for", "if", "in",
    "then", "until", "while"]

/-- The reserved words that end a list of commands. -/
def closingWords : List String := ["\x7d", "do", "done", "elif", "else", "esac", "fi", "then"]

/-- Drops blanks, joined lines and a comment. -/
def skipBlanks : List Char → List Char
  | ' ' :: rest => skipBlanks rest
  | '\t' :: rest => skipBlanks rest
  | '\\' :: '\n' :: rest => skipBlanks rest
  | '#' :: rest => rest.dropWhile (· ≠ '\n')
  | text => text

/-- Drops blanks and line breaks. -/
def skipLines : List Char → List Char
  | ' ' :: rest => skipLines rest
  | '\t' :: rest => skipLines rest
  | '\n' :: rest => skipLines rest
  | '\\' :: '\n' :: rest => skipLines rest
  | text => text

/-- Drops blanks, line breaks and comments; `fuel` bounds the number of lines. -/
def skipComments : Nat → List Char → List Char
  | 0, text => text
  | fuel + 1, text =>
    match skipLines text with
    | '#' :: rest => skipComments fuel (rest.dropWhile (· ≠ '\n'))
    | text => text

def reservedWord? (text : List Char) : Option String :=
  let word := String.ofList (text.takeWhile fun c => !endsWord c)
  if reservedWords.contains word then some word else none

def expectWord (word : String) (text : List Char) : Except SyntaxFault (List Char) :=
  match text with
  | [] => .error (.unexpectedEnd (some word))
  | text =>
    if reservedWord? text = some word then .ok (text.drop word.length)
    else .error (.unexpected (String.ofList (text.takeWhile fun c => !endsWord c)))

def atListEnd (text : List Char) : Bool :=
  match text with
  | [] => true
  | ')' :: _ => true
  | ';' :: ';' :: _ => true
  | text =>
    match reservedWord? text with
    | some word => closingWords.contains word
    | none => false

/-- The token at the start of a text, as it is named in complaints. -/
def tokenOf (text : List Char) : String :=
  match text with
  | ';' :: ';' :: _ => ";;"
  | '&' :: '&' :: _ => "&&"
  | '|' :: '|' :: _ => "||"
  | '\n' :: _ => "newline"
  | c :: rest =>
    if endsWord c then c.toString else String.ofList ((c :: rest).takeWhile fun c => !endsWord c)
  | [] => ""

/-- The text of a backquoted command, and what follows it. -/
def backquoted (inQuotes : Bool) : List Char → Except SyntaxFault (List Char × List Char)
  | [] => .error .unterminatedBackquote
  | '\x60' :: rest => .ok ([], rest)
  | ['\\'] => .error .unterminatedBackquote
  | '\\' :: c :: rest => do
    let (text, rest) ← backquoted inQuotes rest
    if c = '\x60' ∨ c = '\\' ∨ c = '$' ∨ (inQuotes ∧ c = '"') then return (c :: text, rest)
    else return ('\\' :: c :: text, rest)
  | c :: rest => do
    let (text, rest) ← backquoted inQuotes rest
    return (c :: text, rest)

/-- The name of an assignment at the start of a text, and what follows the equals sign. -/
def assignment? (text : List Char) : Option (String × List Char) :=
  let name := text.takeWhile isNamePart
  match name, text.drop name.length with
  | c :: _, '=' :: rest => if isNameStart c then some (String.ofList name, rest) else none
  | _, _ => none

/-- A redirection operator at the start of a text: its descriptor and direction, and what follows. -/
def redirection? (text : List Char) : Option (Nat × Direction × List Char) :=
  let (digits, after) := (text.takeWhile Char.isDigit, text.dropWhile Char.isDigit)
  let given : Option Nat := (String.ofList digits).toNat?
  match after with
  | '>' :: '>' :: rest => some (given.getD 1, .append, rest)
  | '>' :: '&' :: rest => some (given.getD 1, .duplicate, rest)
  | '>' :: '|' :: rest => some (given.getD 1, .output, rest)
  | '>' :: rest => some (given.getD 1, .output, rest)
  | '<' :: '&' :: rest => some (given.getD 0, .duplicate, rest)
  | '<' :: rest => some (given.getD 0, .input, rest)
  | _ => none

/-- A parameter that has a single character for a name. -/
def isSpecialParameter (c : Char) : Bool :=
  c.isDigit || ['$', '?', '#', '@', '*', '!', '-'].contains c

mutual

/-- Reads what stands behind a dollar sign. -/
def readDollar (quoted : Bool) : Nat → List Char → Except SyntaxFault (Piece × List Char)
  | 0, _ => .error .badSubstitution
  | fuel + 1, text =>
    match text with
    | '(' :: rest => do
      let (command, rest) ← readList fuel rest
      match rest with
      | ')' :: rest => return (.output command quoted, rest)
      | [] => .error (.unexpectedEnd (some ")"))
      | text => .error (.unexpected (tokenOf text))
    | '\x7b' :: rest =>
      let name := rest.takeWhile isNamePart
      match name, rest.drop name.length with
      | _ :: _, '\x7d' :: after => .ok (.parameter (String.ofList name) quoted, after)
      | [], c :: '\x7d' :: after =>
        if isSpecialParameter c then .ok (.parameter c.toString quoted, after)
        else .error .badSubstitution
      | _, _ => .error .badSubstitution
    | c :: rest =>
      if isNameStart c then
        .ok (.parameter (String.ofList ((c :: rest).takeWhile isNamePart)) quoted,
          (c :: rest).dropWhile isNamePart)
      else if isSpecialParameter c then .ok (.parameter c.toString quoted, rest)
      else .ok (.text "$" quoted, c :: rest)
    | [] => .ok (.text "$" quoted, [])

def readBackquoted (quoted : Bool) : Nat → List Char → Except SyntaxFault (Piece × List Char)
  | 0, _ => .error .badSubstitution
  | fuel + 1, text => do
    let (inner, rest) ← backquoted quoted text
    let (command, left) ← readList fuel inner
    match left with
    | [] => return (.output command quoted, rest)
    | left => .error (.unexpected (tokenOf left))

/-- Reads what stands in double quotes, behind the first of them. -/
def readQuoted : Nat → List Char → Except SyntaxFault (List Piece × List Char)
  | 0, _ => .error .unterminatedQuote
  | _ + 1, [] => .error .unterminatedQuote
  | _ + 1, '"' :: rest => .ok ([], rest)
  | _ + 1, ['\\'] => .error .unterminatedQuote
  | fuel + 1, '\\' :: c :: rest => do
    let (pieces, rest) ← readQuoted fuel rest
    if c = '\n' then return (pieces, rest)
    else if c = '$' ∨ c = '\x60' ∨ c = '"' ∨ c = '\\' then
      return (.text c.toString true :: pieces, rest)
    else return (.text (String.ofList ['\\', c]) true :: pieces, rest)
  | fuel + 1, '$' :: rest => do
    let (piece, rest) ← readDollar true fuel rest
    let (pieces, rest) ← readQuoted fuel rest
    return (piece :: pieces, rest)
  | fuel + 1, '\x60' :: rest => do
    let (piece, rest) ← readBackquoted true fuel rest
    let (pieces, rest) ← readQuoted fuel rest
    return (piece :: pieces, rest)
  | fuel + 1, c :: rest => do
    let (pieces, rest) ← readQuoted fuel rest
    return (.text c.toString true :: pieces, rest)

def readWord : Nat → List Char → Except SyntaxFault (Word × List Char)
  | 0, text => .ok ([], text)
  | _ + 1, [] => .ok ([], [])
  | fuel + 1, '\'' :: rest =>
    let inner := rest.takeWhile (· ≠ '\'')
    match rest.drop inner.length with
    | _ :: rest => do
      let (pieces, rest) ← readWord fuel rest
      return (.text (String.ofList inner) true :: pieces, rest)
    | [] => .error .unterminatedQuote
  | fuel + 1, '"' :: rest => do
    let (inner, rest) ← readQuoted fuel rest
    let (pieces, rest) ← readWord fuel rest
    return (.text "" true :: inner ++ pieces, rest)
  | _ + 1, ['\\'] => .ok ([.text "\\" true], [])
  | fuel + 1, '\\' :: c :: rest => do
    let (pieces, rest) ← readWord fuel rest
    if c = '\n' then return (pieces, rest) else return (.text c.toString true :: pieces, rest)
  | fuel + 1, '$' :: rest => do
    let (piece, rest) ← readDollar false fuel rest
    let (pieces, rest) ← readWord fuel rest
    return (piece :: pieces, rest)
  | fuel + 1, '\x60' :: rest => do
    let (piece, rest) ← readBackquoted false fuel rest
    let (pieces, rest) ← readWord fuel rest
    return (piece :: pieces, rest)
  | fuel + 1, c :: rest =>
    if endsWord c then .ok ([], c :: rest)
    else do
      let (pieces, rest) ← readWord fuel rest
      return (.text c.toString false :: pieces, rest)

/-- Reads a redirection, if one stands here. -/
def readRedirection (fuel : Nat) (text : List Char) :
    Except SyntaxFault (Option Redirection × List Char) :=
  match fuel, redirection? text with
  | fuel + 1, some (descriptor, direction, rest) => do
    let (target, rest) ← readWord fuel (skipBlanks rest)
    match target, rest with
    | [], [] => .error (.unexpectedEnd none)
    | [], rest => .error (.unexpected (tokenOf rest))
    | target, rest => return (some (.mk descriptor direction target), rest)
  | _, _ => .ok (none, text)

/-- Reads redirections up to something else. -/
def readRedirections : Nat → List Char → Except SyntaxFault (List Redirection × List Char)
  | 0, text => .ok ([], text)
  | fuel + 1, text => do
    let (first, rest) ← readRedirection fuel (skipBlanks text)
    match first with
    | none => return ([], rest)
    | some first =>
      let (others, rest) ← readRedirections fuel rest
      return (first :: others, rest)

/-- Reads a simple command, given what was read of it. -/
def readSimple : Nat → List (String × Word) → List Word → List Redirection → List Char →
    Except SyntaxFault (Command × List Char)
  | 0, assignments, words, redirections, text =>
    .ok (.simple assignments words redirections, text)
  | fuel + 1, assignments, words, redirections, text => do
    let text := skipBlanks text
    let (redirection, rest) ← readRedirection fuel text
    match redirection, text with
    | some redirection, _ =>
      readSimple fuel assignments words (redirections ++ [redirection]) rest
    | none, [] => return (.simple assignments words redirections, [])
    | none, c :: _ =>
      if endsWord c then return (.simple assignments words redirections, text)
      else
        match words, assignment? text with
        | [], some (name, rest) => do
          let (value, rest) ← readWord fuel rest
          readSimple fuel (assignments ++ [(name, value)]) words redirections rest
        | _, _ => do
          let (word, rest) ← readWord fuel text
          readSimple fuel assignments (words ++ [word]) redirections rest

/-- Reads the patterns of a branch up to the closing parenthesis. -/
def readPatterns : Nat → List Char → Except SyntaxFault (List Word × List Char)
  | 0, _ => .error (.unexpectedEnd (some ")"))
  | fuel + 1, text => do
    let (pattern, rest) ← readWord fuel (skipBlanks text)
    match pattern, skipBlanks rest with
    | [], [] => .error (.unexpectedEnd none)
    | [], rest => .error (.unexpected (tokenOf rest))
    | pattern, ')' :: rest => return ([pattern], rest)
    | pattern, '|' :: rest =>
      let (others, rest) ← readPatterns fuel rest
      return (pattern :: others, rest)
    | _, [] => .error (.unexpectedEnd (some ")"))
    | _, rest => .error (.unexpected (tokenOf rest))

/-- Reads the branches of a choice up to its end. -/
def readBranches : Nat → List Char → Except SyntaxFault (List (List Word × Command) × List Char)
  | 0, _ => .error (.unexpectedEnd (some "esac"))
  | fuel + 1, text => do
    let text := skipComments (fuel + 1) text
    if reservedWord? text = some "esac" then return ([], text.drop 4)
    else if text.isEmpty then .error (.unexpectedEnd (some "esac"))
    else
      let text := match text with
        | '(' :: rest => rest
        | text => text
      let (patterns, rest) ← readPatterns fuel text
      let (body, rest) ← readList fuel rest
      match skipComments (fuel + 1) rest with
      | ';' :: ';' :: rest =>
        let (others, rest) ← readBranches fuel rest
        return ((patterns, body) :: others, rest)
      | rest =>
        let rest ← expectWord "esac" rest
        return ([(patterns, body)], rest)

/-- Reads a conditional behind its first word. -/
def readConditional : Nat → List Char → Except SyntaxFault (Command × List Char)
  | 0, _ => .error (.unexpectedEnd (some "fi"))
  | fuel + 1, text => do
    let (test, rest) ← readList fuel text
    let rest ← expectWord "then" rest
    let (yes, rest) ← readList fuel rest
    match reservedWord? rest with
    | some "elif" =>
      let (no, rest) ← readConditional fuel (rest.drop 4)
      return (.conditional test yes no, rest)
    | some "else" =>
      let (no, rest) ← readList fuel (rest.drop 4)
      let rest ← expectWord "fi" rest
      return (.conditional test yes no, rest)
    | _ =>
      let rest ← expectWord "fi" rest
      return (.conditional test yes .nothing, rest)

def readCommand : Nat → List Char → Except SyntaxFault (Command × List Char)
  | 0, _ => .error (.unexpectedEnd none)
  | fuel + 1, text => do
    let redirected (read : Except SyntaxFault (Command × List Char)) :
        Except SyntaxFault (Command × List Char) := do
      let (body, rest) ← read
      let (redirections, rest) ← readRedirections fuel rest
      return (if redirections.isEmpty then body else .redirected body redirections, rest)
    match text with
    | [] => .error (.unexpectedEnd none)
    | '(' :: rest => redirected do
      let (body, rest) ← readList fuel rest
      match rest with
      | ')' :: rest => return (.subshell body, rest)
      | [] => .error (.unexpectedEnd (some ")"))
      | rest => .error (.unexpected (tokenOf rest))
    | c :: _ =>
      match reservedWord? text with
      | some "\x7b" => redirected do
        let (body, rest) ← readList fuel (text.drop 1)
        let rest ← expectWord "\x7d" rest
        return (body, rest)
      | some "if" => redirected (readConditional fuel (text.drop 2))
      | some "case" => redirected do
        let (subject, rest) ← readWord fuel (skipBlanks (text.drop 4))
        let rest ← expectWord "in" (skipComments (fuel + 1) rest)
        let (branches, rest) ← readBranches fuel rest
        return (.choice subject branches, rest)
      | some word => .error (.unexpected word)
      | none =>
        if endsWord c ∧ c ≠ '<' ∧ c ≠ '>' then .error (.unexpected (tokenOf text))
        else readSimple fuel [] [] [] text

/-- Reads commands joined by pipes. -/
def readPipe : Nat → List Char → Except SyntaxFault (Command × List Char)
  | 0, _ => .error (.unexpectedEnd none)
  | fuel + 1, text => do
    let (first, rest) ← readCommand fuel text
    match skipBlanks rest with
    | '|' :: '|' :: after => return (first, '|' :: '|' :: after)
    | '|' :: after =>
      let (second, rest) ← readPipe fuel (skipComments (fuel + 1) after)
      return (.pipe first second, rest)
    | rest => return (first, rest)

/-- Reads a pipe that may be negated. -/
def readTerm : Nat → List Char → Except SyntaxFault (Command × List Char)
  | 0, _ => .error (.unexpectedEnd none)
  | fuel + 1, text => do
    if reservedWord? text = some "!" then
      let (body, rest) ← readPipe fuel (skipBlanks (text.drop 1))
      return (.negation body, rest)
    else readPipe fuel text

/-- Reads what depends on the outcome of the commands before. -/
def readChain (first : Command) : Nat → List Char → Except SyntaxFault (Command × List Char)
  | 0, text => .ok (first, text)
  | fuel + 1, text => do
    match skipBlanks text with
    | '&' :: '&' :: rest =>
      let (second, rest) ← readTerm fuel (skipComments (fuel + 1) rest)
      readChain (.both first second) fuel rest
    | '|' :: '|' :: rest =>
      let (second, rest) ← readTerm fuel (skipComments (fuel + 1) rest)
      readChain (.either first second) fuel rest
    | rest => return (first, rest)

/-- Reads commands one after the other up to the end of the list. -/
def readList : Nat → List Char → Except SyntaxFault (Command × List Char)
  | 0, _ => .error (.unexpectedEnd none)
  | fuel + 1, text => do
    let text := skipComments (fuel + 1) text
    if atListEnd text then return (.nothing, text)
    else
      let (term, rest) ← readTerm fuel text
      let (first, rest) ← readChain term fuel rest
      match rest with
      | ';' :: ';' :: _ => return (first, rest)
      | ';' :: rest | '&' :: rest | '\n' :: rest =>
        let (others, rest) ← readList fuel rest
        match others with
        | .nothing => return (first, rest)
        | others => return (.sequence first others, rest)
      | rest => return (first, rest)

end

def Command.read (text : String) : Except SyntaxFault Command := do
  let (command, rest) ← readList (4 * text.length + 8) text.toList
  match rest with
  | [] => .ok command
  | rest => .error (.unexpected (tokenOf rest))

end DesignLink.Shell
