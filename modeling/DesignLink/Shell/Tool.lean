import DesignLink.Disk.Access
import DesignLink.Shell.Format

/-!
The tools that commands are made of. A tool takes words and input, and leaves a status, what it
printed, what it complained about and the input that it did not read.
-/

namespace DesignLink.Shell

structure ToolResult where
  status : Nat
  output : List UInt8
  errors : List UInt8
  input : List UInt8

/-- What a tool is given besides its words. -/
structure ToolContext where
  disk : Disk
  input : List UInt8

namespace ToolResult

def bytesOf (text : String) : List UInt8 := text.toUTF8.toList

/-- A success that reads no input. -/
def printed (context : ToolContext) (output : List UInt8) : ToolResult :=
  ⟨0, output, [], context.input⟩

def complaint (context : ToolContext) (status : Nat) (text : String) : ToolResult :=
  ⟨status, [], bytesOf (text ++ "\n"), context.input⟩

end ToolResult

def toolError : DiskError → String
  | .notFound => "No such file or directory"
  | .notDirectory => "Not a directory"
  | .isDirectory => "Is a directory"
  | .tooManyLinks => "Too many levels of symbolic links"
  | .nameTooLong => "File name too long"
  | .alreadyExists => "File exists"
  | cause => cause.message

/-- The bytes of an operand, `limit` at most; a dash stands for the input. -/
def operandBytes (context : ToolContext) (limit : Option Nat) (path : String) :
    Except DiskError (List UInt8) :=
  if path = "-" ∨ path = "/dev/stdin" then .ok context.input
  else if path = "/dev/null" then .ok []
  else if path = "/dev/zero" then .ok (List.replicate (limit.getD 0) 0)
  else (context.disk.read path).map ByteArray.toList

/-- Joins what a tool makes of each of its operands; with none it works on the input. -/
def overOperands (tool : String) (context : ToolContext) (limit : Option Nat)
    (operands : List String) (each : String → List UInt8 → List UInt8) : ToolResult :=
  let operands := if operands.isEmpty then ["-"] else operands
  let readsInput := operands.any fun path => path = "-" ∨ path = "/dev/stdin"
  let start : ToolResult := ⟨0, [], [], if readsInput then [] else context.input⟩
  operands.foldl (fun result path =>
    match operandBytes context limit path with
    | .ok bytes => { result with output := result.output ++ each path bytes }
    | .error cause =>
      { result with
        status := 1
        errors := result.errors ++
          ToolResult.bytesOf (tool ++ ": " ++ path ++ ": " ++ toolError cause ++ "\n") }) start

def cat (context : ToolContext) (words : List String) : ToolResult :=
  overOperands "cat" context none (words.filter fun word => word ≠ "-u" ∧ word ≠ "--")
    fun _ bytes => bytes

def firstLines : Nat → List UInt8 → List UInt8
  | 0, _ => []
  | _, [] => []
  | count + 1, byte :: rest =>
    if byte = 10 then byte :: firstLines count rest else byte :: firstLines (count + 1) rest

/-- How much of the input is asked for: bytes or lines. -/
inductive Portion where
  | bytes (count : Nat)
  | lines (count : Nat)

namespace Portion

def take : Portion → List UInt8 → List UInt8
  | bytes count, input => input.take count
  | lines count, input => firstLines count input

def byteLimit : Portion → Option Nat
  | bytes count => some count
  | lines _ => none

/-- The portion that the options ask for, and the operands. -/
def read (portion : Portion) : List String → Portion × List String
  | [] => (portion, [])
  | [word] => one portion word []
  | "-c" :: count :: rest => read (bytes (Layout.number count.toList)) rest
  | "-n" :: count :: rest => read (lines (Layout.number count.toList)) rest
  | word :: rest =>
    let (portion, operands) := one portion word []
    let (portion, others) := read portion rest
    (portion, operands ++ others)
where
  /-- Takes one word: an option with its count, or an operand. -/
  one (portion : Portion) (word : String) (operands : List String) : Portion × List String :=
    match word.toList with
    | '-' :: 'c' :: count => (bytes (Layout.number count), operands)
    | '-' :: 'n' :: count => (lines (Layout.number count), operands)
    | '-' :: c :: count =>
      if c.isDigit then (lines (Layout.number (c :: count)), operands)
      else (portion, operands)
    | _ => (portion, word :: operands)

end Portion

def head (context : ToolContext) (words : List String) : ToolResult :=
  let (portion, operands) := Portion.read (.lines 10) words
  overOperands "head" context portion.byteLimit operands fun _ bytes => portion.take bytes

/-- The bytes that a set of characters stands for: escapes and ranges are carried out; `fuel`
bounds the length of the text. -/
def characterSet : Nat → List Char → List UInt8
  | 0, _ => []
  | _ + 1, [] => []
  | fuel + 1, text =>
    let (first, rest) := member text
    match first, rest with
    | [low], '-' :: after =>
      match member after with
      | ([high], rest) =>
        (List.range (high.toNat + 1 - low.toNat)).map (fun i => (low.toNat + i).toUInt8) ++
          characterSet fuel rest
      | _ => first ++ characterSet fuel rest
    | first, rest => first ++ characterSet fuel rest
where
  /-- The bytes of the first member of a set, and what follows. -/
  member (text : List Char) : List UInt8 × List Char :=
    match text with
    | [] => ([], [])
    | '\\' :: rest => escapeBytes rest
    | c :: rest => (encoded c, rest)

/-- What a byte of the first set is changed to: the byte at its place in the second set, whose last
byte stands for all further places. -/
def translated (source target : List UInt8) (byte : UInt8) : UInt8 :=
  match source.idxOf? byte with
  | none => byte
  | some position =>
    match target[position]? with
    | some other => other
    | none => target.getLast?.getD byte

def setOf (word : String) : List UInt8 := characterSet (word.length + 1) word.toList

def tr (context : ToolContext) (words : List String) : ToolResult :=
  match words with
  | ["-d", set] =>
    let set := setOf set
    ⟨0, context.input.filter fun byte => !set.contains byte, [], []⟩
  | [source, target] =>
    let source := setOf source
    let target := setOf target
    ⟨0, context.input.map (translated source target), [], []⟩
  | _ => .complaint context 1 "tr: missing operand"

/-- How many words some bytes have. -/
def wordCount (bytes : List UInt8) : Nat :=
  (bytes.foldl (fun (count, inside) byte =>
    let blank := byte = 32 || (9 ≤ byte && byte ≤ 13)
    if blank then (count, false) else if inside then (count, true) else (count + 1, true))
    ((0, false) : Nat × Bool)).1

/-- The counts that options ask for: lines, words and bytes. -/
def countsOf (options : List Char) (bytes : List UInt8) : List Nat :=
  let all := options.isEmpty
  (if all ∨ options.contains 'l' then [bytes.count 10] else []) ++
    (if all ∨ options.contains 'w' then [wordCount bytes] else []) ++
    (if options.contains 'm' then [(bytes.filter fun b => b < 0x80 || 0xC0 ≤ b).length] else []) ++
    (if all ∨ options.contains 'c' then [bytes.length] else [])

def padLeft (width : Nat) (text : String) : String :=
  String.ofList (List.replicate (width - text.length) ' ') ++ text

def wc (context : ToolContext) (words : List String) : ToolResult :=
  let isOption (word : String) : Bool := word.length > 1 && word.toList.head? = some '-'
  let options := (words.filter isOption).flatMap fun word => word.toList.tail
  let operands := words.filter fun word => !isOption word
  let line (bytes : List UInt8) (name : String) : List UInt8 :=
    let counts := countsOf options bytes
    let width := if counts.length ≤ 1 ∨ name ≠ "" then 1 else 7
    ToolResult.bytesOf (String.intercalate " " (counts.map fun n => padLeft width (toString n)) ++
      (if name = "" then "" else " " ++ name) ++ "\n")
  match operands with
  | [] => ⟨0, line context.input "", [], []⟩
  | operands => overOperands "wc" context none operands fun path bytes => line bytes path

def echo (context : ToolContext) (words : List String) : ToolResult :=
  match words with
  | "-n" :: rest => .printed context (echoed false rest)
  | words => .printed context (echoed true words)

def printf (context : ToolContext) (words : List String) : ToolResult :=
  let words := match words with
    | "--" :: rest => rest
    | words => words
  match words with
  | [] => .complaint context 2 "sh: 1: printf: usage: printf format [arg ...]"
  | format :: words =>
    let printed := printAll format.toList (words.length + 1) words
    let errors := printed.wrong.map fun word =>
      "sh: 1: printf: " ++ word ++ ": expected numeric value\n"
    ⟨if errors.isEmpty then 0 else 1, printed.bytes, ToolResult.bytesOf (String.join errors),
      context.input⟩

def pwd (context : ToolContext) : ToolResult :=
  .printed context (ToolResult.bytesOf ("/" ++ String.intercalate "/" context.disk.here ++ "\n"))

def tool? (name : String) : Option (ToolContext → List String → ToolResult) :=
  match name with
  | "cat" => some cat
  | "head" => some head
  | "tr" => some tr
  | "wc" => some wc
  | "echo" => some echo
  | "printf" => some printf
  | "pwd" => some fun context _ => pwd context
  | "true" => some fun context _ => .printed context []
  | ":" => some fun context _ => .printed context []
  | "sleep" => some fun context _ => .printed context []
  | "false" => some fun context _ => ⟨1, [], [], context.input⟩
  | _ => none

end DesignLink.Shell
