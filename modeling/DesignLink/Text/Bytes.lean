/-!
Texts of bytes. Bytes that are no encoded text still have a reading: each run that cannot go on to a
character is read as one replacement character.
-/

namespace DesignLink.Text

/-- A character of which some bytes are read: its value so far, how many bytes are missing, and the
range in which the next one has to be. -/
structure Unfinished where
  value : Nat
  missing : Nat
  least : Nat
  greatest : Nat

/-- What a byte says where a character may start. -/
inductive FirstByte where
  | character (c : Char)
  | unfinished (state : Unfinished)
  | wrong

def firstByte (byte : Nat) : FirstByte :=
  if byte < 0x80 then .character (Char.ofNat byte)
  else if 0xC2 ≤ byte ∧ byte ≤ 0xDF then .unfinished ⟨byte - 0xC0, 1, 0x80, 0xBF⟩
  else if byte = 0xE0 then .unfinished ⟨0, 2, 0xA0, 0xBF⟩
  else if byte = 0xED then .unfinished ⟨0xD, 2, 0x80, 0x9F⟩
  else if 0xE1 ≤ byte ∧ byte ≤ 0xEF then .unfinished ⟨byte - 0xE0, 2, 0x80, 0xBF⟩
  else if byte = 0xF0 then .unfinished ⟨0, 3, 0x90, 0xBF⟩
  else if 0xF1 ≤ byte ∧ byte ≤ 0xF3 then .unfinished ⟨byte - 0xF0, 3, 0x80, 0xBF⟩
  else if byte = 0xF4 then .unfinished ⟨4, 3, 0x80, 0x8F⟩
  else .wrong

/-- The characters of some bytes, with a gap for each run that is none. -/
def decodeFrom : Option Unfinished → List UInt8 → List (Option Char)
  | none, [] => []
  | some _, [] => [none]
  | state, byte :: rest =>
    let start : List (Option Char) :=
      match firstByte byte.toNat with
      | .character c => some c :: decodeFrom none rest
      | .unfinished state => decodeFrom (some state) rest
      | .wrong => none :: decodeFrom none rest
    match state with
    | none => start
    | some state =>
      if state.least ≤ byte.toNat ∧ byte.toNat ≤ state.greatest then
        let value := state.value * 64 + (byte.toNat - 0x80)
        if state.missing ≤ 1 then some (Char.ofNat value) :: decodeFrom none rest
        else decodeFrom (some ⟨value, state.missing - 1, 0x80, 0xBF⟩) rest
      else none :: start

/-- The character that stands for bytes that are no text. -/
def replacement : Char := Char.ofNat 0xFFFD

/-- The text of some bytes, with a character for each run of them that is no text. -/
def filled (gap : Char) (bytes : ByteArray) : String :=
  match String.fromUTF8? bytes with
  | some text => text
  | none => String.ofList ((decodeFrom none bytes.toList).map fun c => c.getD gap)

/-- The text of some bytes, with replacement characters where they are no text. -/
def ofBytes (bytes : ByteArray) : String := filled replacement bytes

def isWhiteSpace (c : Char) : Bool :=
  let code := c.toNat
  (9 ≤ code && code ≤ 13) || code = 0x20 || code = 0x85 || code = 0xA0 || code = 0x1680 ||
    (0x2000 ≤ code && code ≤ 0x200A) || code = 0x2028 || code = 0x2029 || code = 0x202F ||
    code = 0x205F || code = 0x3000

/-- The text without white space at its ends. -/
def trim (text : String) : String :=
  String.ofList
    ((text.toList.dropWhile isWhiteSpace).reverse.dropWhile isWhiteSpace).reverse

end DesignLink.Text
