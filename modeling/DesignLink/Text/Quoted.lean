/-!
Quoted text: a backslash, a line break or the quote itself is written with a backslash, every
other character stands for itself.
-/

namespace DesignLink.Text

def escapeChar (quote c : Char) : List Char :=
  if c = '\\' then ['\\', '\\']
  else if c = '\n' then ['\\', 'n']
  else if c = '\r' then ['\\', 'r']
  else if c = quote then ['\\', c]
  else [c]

def escapeChars (quote : Char) : List Char → List Char
  | [] => []
  | c :: rest => escapeChar quote c ++ escapeChars quote rest

/-- How a text is written between two of `quote`. -/
def escape (quote : Char) (text : String) : String :=
  String.ofList (escapeChars quote text.toList)

/-- The text between double quotes. -/
def quoted (text : String) : String := "\"" ++ escape '"' text ++ "\""

def quotedSingle (text : String) : String := "'" ++ escape '\'' text ++ "'"

end DesignLink.Text
