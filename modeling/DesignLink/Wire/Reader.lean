import DesignLink.Dictionary
import DesignLink.Wire.Refusal

/-!
Readers of scanned documents. A document is read from its start, so the first thing that is wrong
decides the refusal. A part that is read ahead is settled: it was found to hold no faults, and what
is read from it later has no path of its own.
-/

namespace DesignLink.Wire

/-- How a part is read: straight from the text, with the nesting that is still allowed, or settled. -/
inductive Mode where
  | stream (depth : Nat)
  | settled

abbrev Reader (α : Type) := Mode → Doc → Except Refusal α

namespace Mode

/-- The deepest nesting of a document plus one. -/
def depthLimit : Nat := 128

/-- The mode inside a list or an object. -/
def enter : Mode → Except Refusal Mode
  | stream depth => if depth ≤ 1 then .error ⟨[], .broken .tooDeep⟩ else .ok (stream (depth - 1))
  | settled => .ok settled

end Mode

namespace Refusal

def fault (fault : Fault) : Refusal := ⟨[], .broken fault⟩

/-- The refusal as seen from the part around. -/
def under (segment : Segment) (r : Refusal) : Refusal := { r with path := segment :: r.path }

/-- The refusal of a part that was read ahead. -/
def withoutPath (r : Refusal) : Refusal := { r with path := [] }

end Refusal

namespace Reader

def under {α : Type} (segment : Segment) (result : Except Refusal α) : Except Refusal α :=
  result.mapError (Refusal.under segment)

/-- The value found, or the fault met while looking at it. -/
def found : Doc → Except Fault Found
  | .null => .ok .null
  | .boolean value => .ok (.boolean value)
  | .numeral (.ok (.integer value)) => .ok (.integer value)
  | .numeral (.ok (.real value)) => .ok (.real value)
  | .numeral (.error fault) => .error fault
  | .string (.ok value) => .ok (.string value)
  | .string (.error fault) => .error fault
  | .list _ _ => .ok .list
  | .object _ _ => .ok .object
  | .broken fault => .error fault

/-- The refusal of a value that is not of the expected type. -/
def mismatch {α : Type} (expected : String) (doc : Doc) : Except Refusal α :=
  match found doc with
  | .ok value => .error ⟨[], .invalidType value expected⟩
  | .error fault => .error (.fault fault)

def text : Reader String
  | _, .string (.ok value) => .ok value
  | _, doc => mismatch "a string" doc

def flag : Reader Bool
  | _, .boolean value => .ok value
  | _, doc => mismatch "a boolean" doc

def number : Reader Number
  | _, .numeral (.ok (.real value)) => .ok value
  | _, .numeral (.ok (.integer value)) => .ok (Number.ofInt value)
  | _, doc => mismatch "f64" doc

/-- A natural number below `2 ^ 32`. -/
def word32 : Reader Nat
  | _, .numeral (.ok (.integer value)) =>
    if 0 ≤ value ∧ value.toNat < Nat.pow 2 32 then .ok value.toNat
    else .error ⟨[], .invalidValue (.integer value) "u32"⟩
  | _, doc => mismatch "u32" doc

/-- A value or `null`. -/
def optional {α : Type} (read : Reader α) : Reader (Option α)
  | _, .null => .ok none
  | mode, doc => (read mode doc).map some

/-- The items of a list from a position on. What is wrong between two items belongs to the list. -/
def listFrom {α : Type} (read : Reader α) (mode : Mode) (ending : Option Fault) :
    Nat → List Doc → Except Refusal (List α)
  | _, [] =>
    match ending with
    | none => .ok []
    | some fault => .error (.fault fault)
  | position, doc :: rest => do
    let item ← under (.index position) (read mode doc)
    let items ← listFrom read mode ending (position + 1) rest
    return item :: items

def list {α : Type} (read : Reader α) : Reader (List α)
  | mode, .list items ending => do
    let inner ← mode.enter
    listFrom read inner ending 0 items
  | _, doc => mismatch "a sequence" doc

/-- The entries of an object, put one after the other. -/
def entriesFrom {α : Type} (read : Reader α) (mode : Mode) (ending : Option Fault) :
    List (String × α) → List (Except Fault String × Doc) → Except Refusal (List (String × α))
  | entries, [] =>
    match ending with
    | none => .ok entries
    | some fault => under .unnamed (.error (.fault fault))
  | _, (.error fault, _) :: _ => under .unnamed (.error (.fault fault))
  | entries, (.ok key, doc) :: rest => do
    let value ← under (.key key) (read mode doc)
    entriesFrom read mode ending (Dictionary.put entries key value) rest

def dictionary {α : Type} (read : Reader α) : Reader (List (String × α))
  | mode, .object members ending => do
    let inner ← mode.enter
    entriesFrom read inner ending [] members
  | _, doc => mismatch "a map" doc

mutual

/-- Any value whatever. -/
def anything (mode : Mode) : Doc → Except Refusal Json
  | .null => .ok .null
  | .boolean value => .ok (.boolean value)
  | .numeral (.ok (.integer value)) => .ok (.integer value)
  | .numeral (.ok (.real value)) => .ok (.real value)
  | .numeral (.error fault) => .error (.fault fault)
  | .string (.ok value) => .ok (.string value)
  | .string (.error fault) => .error (.fault fault)
  | .list items ending => do
    let inner ← mode.enter
    let items ← anythingItems inner ending 0 items
    return .list items
  | .object members ending => do
    let inner ← mode.enter
    let members ← anythingMembers inner ending [] members
    return .object members
  | .broken fault => .error (.fault fault)

def anythingItems (mode : Mode) (ending : Option Fault) :
    Nat → List Doc → Except Refusal (List Json)
  | _, [] =>
    match ending with
    | none => .ok []
    | some fault => .error (.fault fault)
  | position, doc :: rest => do
    let item ← under (.index position) (anything mode doc)
    let items ← anythingItems mode ending (position + 1) rest
    return item :: items

def anythingMembers (mode : Mode) (ending : Option Fault) :
    List (String × Json) → List (Except Fault String × Doc) →
      Except Refusal (List (String × Json))
  | entries, [] =>
    match ending with
    | none => .ok entries
    | some fault => under .unnamed (.error (.fault fault))
  | _, (.error fault, _) :: _ => under .unnamed (.error (.fault fault))
  | entries, (.ok key, doc) :: rest => do
    let value ← under (.key key) (anything mode doc)
    anythingMembers mode ending (Dictionary.put entries key value) rest

end

/-- Reads a part ahead: after this it is known to hold no faults. -/
def settle (mode : Mode) (doc : Doc) : Except Refusal Unit :=
  match mode with
  | .settled => .ok ()
  | .stream _ => (anything mode doc).map fun _ => ()

def firstOf {α : Type} (name : String) (readers : List (Reader α)) : Reader α
  | mode, doc => do
    settle mode doc
    match readers.findSome? fun read => (read .settled doc).toOption with
    | some value => .ok value
    | none => .error ⟨[], .noVariant name⟩

/-- Reads the first value of a text. -/
def ofText {α : Type} (read : Reader α) (text : String) : Except Refusal α :=
  read (.stream Mode.depthLimit) (Doc.ofText text.toList .endInString).1

/-- Reads a text that holds one value and nothing else. -/
def ofWholeText {α : Type} (read : Reader α) (text : String) : Except Refusal α := do
  let (doc, rest) := Doc.ofText text.toList .endInString
  let value ← read (.stream Mode.depthLimit) doc
  match rest with
  | .error fault => .error (.fault fault)
  | .ok rest =>
    if (Doc.skipSpace rest).isEmpty then .ok value else .error (.fault .trailingCharacters)

/-- Reads the first value of some bytes. -/
def ofBytes {α : Type} (read : Reader α) (bytes : ByteArray) : Except Refusal α :=
  read (.stream Mode.depthLimit) (Doc.ofBytes bytes)

end Reader

end DesignLink.Wire
