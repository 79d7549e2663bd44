import DesignLink.Text.IdentifierTable

/-!
Classes of characters: those that form identifiers, blanks and line terminators.
-/

namespace DesignLink.Text

def inRanges (ranges : List (Nat × Nat)) (c : Char) : Bool :=
  ranges.any fun range => range.1 ≤ c.toNat && c.toNat ≤ range.2

def isIdentifierStart (c : Char) : Bool :=
  c.isAlpha || c = '_' || c = '$' || (0x80 ≤ c.toNat && inRanges identifierStarts c)

/-- Whether an identifier may go on with the character. -/
def isIdentifierPart (c : Char) : Bool :=
  c.isAlphanum || c = '_' || c = '$' ||
    (0x80 ≤ c.toNat && (inRanges identifierStarts c || inRanges identifierExtensions c))

/-- Whether the character ends a line of code. -/
def isLineTerminator (c : Char) : Bool :=
  c = '\n' || c = '\r' || c.toNat = 0x2028 || c.toNat = 0x2029

/-- Whether the character separates tokens within a line. -/
def isBlank (c : Char) : Bool :=
  c = ' ' || c = '\t' || c.toNat = 0x0B || c.toNat = 0x0C || c.toNat = 0x85 || c.toNat = 0xA0 ||
    c.toNat = 0xFEFF || c.toNat = 0x1680 || (0x2000 ≤ c.toNat && c.toNat ≤ 0x200B) ||
    c.toNat = 0x202F || c.toNat = 0x205F || c.toNat = 0x3000

/-- Whether the text is an identifier of ASCII characters. -/
def isIdentifier (name : String) : Bool :=
  match name.toList with
  | [] => false
  | c :: rest =>
    (c.isAlpha || c = '_' || c = '$') && rest.all fun c => c.isAlphanum || c = '_' || c = '$'

end DesignLink.Text
