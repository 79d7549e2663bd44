/-!
Names made of words: any run of characters other than ASCII letters and digits separates two words.
-/

namespace DesignLink.Text

/-- Joins the words of a text, each with a capital first letter; `atStart` says whether a word
starts here. -/
def joinWords : Bool → List Char → List Char
  | _, [] => []
  | atStart, c :: rest =>
    if c.isAlphanum then (if atStart then c.toUpper else c) :: joinWords false rest
    else joinWords true rest

/-- Makes any text the name of a component: its words joined, `Component` when there are none, with
an underscore before a leading digit. -/
def pascal (name : String) : String :=
  match joinWords true name.toList with
  | [] => "Component"
  | c :: rest => String.ofList (if c.isDigit then '_' :: c :: rest else c :: rest)

/-- Makes any text the name of a property: the name of a component with a small first letter and no
leading underscore. -/
def camel (name : String) : String :=
  match (pascal name).toList.dropWhile (· = '_') with
  | [] => ""
  | c :: rest => String.ofList (c.toLower :: rest)

end DesignLink.Text
