/-!
Source texts: spans are byte offsets of the encoded text, places are shown as lines and columns.
-/

namespace DesignLink

/-- The bytes of a source from `start` up to `stop`. -/
structure Span where
  start : Nat
  stop : Nat
  deriving DecidableEq, Repr

/-- A place in a file; lines and columns count from one. -/
structure Location where
  line : Nat
  column : Nat
  deriving DecidableEq, Repr

/-- A text with the name of its file. The first `base` characters of its first line were added by
the reader of the file and do not count in columns. -/
structure Source where
  file : String
  text : List Char
  base : Nat

namespace Text

/-- How many bytes the encoded text has. -/
def byteSize : List Char → Nat
  | [] => 0
  | c :: rest => c.utf8Size + byteSize rest

/-- Splits a text after `offset` bytes, if that is the end of a character. -/
def splitBytes? : Nat → List Char → Option (List Char × List Char)
  | 0, text => some ([], text)
  | _ + 1, [] => none
  | offset + 1, c :: rest =>
    if c.utf8Size ≤ offset + 1 then
      (splitBytes? (offset + 1 - c.utf8Size) rest).map fun (before, after) => (c :: before, after)
    else none

def lastLine (text : List Char) : List Char :=
  text.foldl (fun line c => if c = '\n' then [] else c :: line) [] |>.reverse

end Text

namespace Source

def ofString (file text : String) : Source := ⟨file, text.toList, 0⟩

/-- The text of a span; nothing if the span is reversed, out of range or cuts a character. -/
def textOf (source : Source) (span : Span) : String :=
  if span.stop < span.start then ""
  else
    match Text.splitBytes? span.start source.text with
    | none => ""
    | some (_, rest) =>
      match Text.splitBytes? (span.stop - span.start) rest with
      | none => ""
      | some (text, _) => String.ofList text

/-- The text before an offset; an offset behind the end or inside a character stands for the end. -/
def before (source : Source) (offset : Nat) : List Char :=
  match Text.splitBytes? offset source.text with
  | some (text, _) => text
  | none => source.text

/-- The place of an offset. -/
def location (source : Source) (offset : Nat) : Location :=
  let text := source.before offset
  let line := text.count '\n' + 1
  let column := (Text.lastLine text).length + 1
  ⟨line, if line = 1 then max (column - source.base) 1 else column⟩

end Source

end DesignLink
