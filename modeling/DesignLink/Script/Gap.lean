import DesignLink.Text.Identifier
import DesignLink.Text.Source

/-!
What may stand between two tokens: blanks, line ends and comments.
-/

namespace DesignLink.Script

/-- A place in a text: its byte offset and the text from there on. -/
structure Place where
  offset : Nat
  rest : List Char

namespace Place

/-- The place behind a first part of the text. -/
def after (p : Place) (part rest : List Char) : Place := ⟨p.offset + Text.byteSize part, rest⟩

end Place

/-- Where a gap stands: among blanks, in a line comment or in a block comment. -/
inductive Gap where
  | blank
  | line
  | block

namespace Gap

/-- The place behind a gap, and whether a line ends in it; nothing if a comment is left open. -/
def skip : Gap → Bool → Nat → List Char → Option (Bool × Place)
  | .block, _, _, [] => none
  | _, newline, offset, [] => some (newline, ⟨offset, []⟩)
  | .blank, newline, offset, '/' :: '/' :: rest => skip .line newline (offset + 2) rest
  | .blank, newline, offset, '/' :: '*' :: rest => skip .block newline (offset + 2) rest
  | .block, newline, offset, '*' :: '/' :: rest => skip .blank newline (offset + 2) rest
  | .blank, newline, offset, c :: rest =>
    if Text.isLineTerminator c then skip .blank true (offset + c.utf8Size) rest
    else if Text.isBlank c then skip .blank newline (offset + c.utf8Size) rest
    else some (newline, ⟨offset, c :: rest⟩)
  | .line, newline, offset, c :: rest =>
    if Text.isLineTerminator c then skip .blank true (offset + c.utf8Size) rest
    else skip .line newline (offset + c.utf8Size) rest
  | .block, newline, offset, c :: rest =>
    skip .block (newline || Text.isLineTerminator c) (offset + c.utf8Size) rest

end Gap

end DesignLink.Script
