/-!
Command lines: words of literal text, variables and the output of further commands, and the commands
built from words.
-/

namespace DesignLink.Shell

/-- What a redirection does with its file or descriptor. -/
inductive Direction where
  | input
  | output
  | append
  | duplicate
  deriving DecidableEq

mutual

/-- A piece of a word. In quotes nothing of it is a separator or part of a pattern. -/
inductive Piece where
  | text (value : String) (quoted : Bool)
  | parameter (name : String) (quoted : Bool)
  | output (command : Command) (quoted : Bool)

/-- A redirection of a descriptor. -/
inductive Redirection where
  | mk (descriptor : Nat) (direction : Direction) (target : List Piece)

inductive Command where
  | nothing
  | simple (assignments : List (String × List Piece)) (words : List (List Piece))
      (redirections : List Redirection)
  | redirected (body : Command) (redirections : List Redirection)
  | subshell (body : Command)
  | choice (subject : List Piece) (branches : List (List (List Piece) × Command))
  | conditional (test yes no : Command)
  | pipe (first second : Command)
  | both (first second : Command)
  | either (first second : Command)
  | sequence (first second : Command)
  | negation (body : Command)

end

abbrev Word := List Piece

/-- What is wrong with the form of a command line. -/
inductive SyntaxFault where
  | unterminatedQuote
  | unterminatedBackquote
  | unexpected (token : String)
  | unexpectedEnd (expected : Option String)
  | badSubstitution

namespace SyntaxFault

def message : SyntaxFault → String
  | unterminatedQuote => "Syntax error: Unterminated quoted string"
  | unterminatedBackquote => "Syntax error: EOF in backquote substitution"
  | unexpected token => "Syntax error: \"" ++ token ++ "\" unexpected"
  | unexpectedEnd none => "Syntax error: end of file unexpected"
  | unexpectedEnd (some token) =>
    "Syntax error: end of file unexpected (expecting \"" ++ token ++ "\")"
  | badSubstitution => "Bad substitution"

end SyntaxFault

end DesignLink.Shell
