/-!
Patterns: literal characters, characters of a class, any character and any text.
-/

namespace DesignLink.Shell

inductive PatternItem where
  | literal (c : Char)
  | oneOf (negated : Bool) (ranges : List (Char × Char))
  | anyCharacter
  | anyText
  deriving DecidableEq

namespace PatternItem

def accepts (item : PatternItem) (c : Char) : Bool :=
  match item with
  | literal d => c = d
  | oneOf negated ranges => (ranges.any fun (low, high) => low ≤ c && c ≤ high) != negated
  | anyCharacter => true
  | anyText => true

end PatternItem

abbrev Pattern := List PatternItem

namespace Pattern

/-- Whether a condition holds for a text or for some text at its end. -/
def someSuffix (holds : List Char → Bool) : List Char → Bool
  | [] => holds []
  | c :: rest => holds (c :: rest) || someSuffix holds rest

/-- Whether a pattern stands for a whole text. -/
def accepts : Pattern → List Char → Bool
  | [], text => text.isEmpty
  | .anyText :: rest, text => someSuffix (accepts rest) text
  | _ :: _, [] => false
  | item :: rest, c :: text => item.accepts c && accepts rest text

/-- The ranges of a class up to its closing bracket, and what follows it; `first` says whether a
closing bracket here is a member. -/
def classRanges : Bool → List Char → Option (List (Char × Char) × List Char)
  | _, [] => none
  | false, ']' :: rest => some ([], rest)
  | _, low :: '-' :: high :: rest =>
    if high = ']' then some ([(low, low), ('-', '-')], rest)
    else (classRanges false rest).map fun (ranges, rest) => ((low, high) :: ranges, rest)
  | _, c :: rest => (classRanges false rest).map fun (ranges, rest) => ((c, c) :: ranges, rest)

def ofText : Nat → List Char → Pattern
  | 0, _ => []
  | _ + 1, [] => []
  | fuel + 1, '*' :: rest => .anyText :: ofText fuel rest
  | fuel + 1, '?' :: rest => .anyCharacter :: ofText fuel rest
  | fuel + 1, '[' :: rest =>
    let (negated, inner) := match rest with
      | '!' :: inner => (true, inner)
      | inner => (false, inner)
    match classRanges true inner with
    | some (ranges, rest) => .oneOf negated ranges :: ofText fuel rest
    | none => .literal '[' :: ofText fuel rest
  | fuel + 1, c :: rest => .literal c :: ofText fuel rest

end Pattern

end DesignLink.Shell
