import DesignLink.Text.HiddenTable

/-!
Texts shown in messages: characters that could not be seen are written as escapes.
-/

namespace DesignLink.Text

/-- Whether the character has no visible form of its own. -/
def isHidden (c : Char) : Bool :=
  c.toNat < 32 ||
    (0x7F ≤ c.toNat && hiddenRanges.any fun range => range.1 ≤ c.toNat && c.toNat ≤ range.2)

def visibleChar (c : Char) : List Char :=
  if c = '"' then ['\\', '"']
  else if c = '\\' then ['\\', '\\']
  else if c = '\n' then ['\\', 'n']
  else if c = '\r' then ['\\', 'r']
  else if c = '\t' then ['\\', 't']
  else if c.toNat = 0 then ['\\', '0']
  else if isHidden c then ['\\', 'u', '\x7b'] ++ Nat.toDigits 16 c.toNat ++ ['\x7d']
  else [c]

/-- The text between double quotes, with escapes for what could not be seen. -/
def visible (text : String) : String :=
  "\"" ++ String.ofList (text.toList.flatMap visibleChar) ++ "\""

end DesignLink.Text
