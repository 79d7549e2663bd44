import DesignLink.Wire.Record

/-!
Values that name their own kind: plain tags, and records of a tag and a content whose shape the tag
decides.
-/

namespace DesignLink.Wire.Tagged

def lookUp {α : Type} (options : List (String × α)) (name : String) : Except Refusal α :=
  match Dictionary.get? options name with
  | some value => .ok value
  | none => .error ⟨[], .unknownVariant name (Dictionary.keys options)⟩

/-- A tag written as the only key of an object, with nothing under it. -/
def tagFromMember {α : Type} (options : List (String × α)) (key : String) (doc : Doc) :
    Except Refusal α := do
  let value ← lookUp options key
  match doc with
  | .null => return value
  | doc => Reader.under (.key key) (Reader.mismatch "unit" doc)

/-- One of several names. -/
def tag {α : Type} (options : List (String × α)) : Reader α
  | _, .string (.ok name) => lookUp options name
  | _, .string (.error fault) => .error (.fault fault)
  | .stream depth, .object members ending => do
    let _ ← (Mode.stream depth).enter
    match members with
    | [] => .error (.fault (ending.getD .valueExpected))
    | (.error fault, _) :: _ => .error (.fault fault)
    | (.ok key, doc) :: rest =>
      let value ← tagFromMember options key doc
      match rest, ending with
      | [], none => return value
      | [], some .endInObject => .error (.fault .endInObject)
      | _, _ => .error (.fault .valueExpected)
  | .settled, .object [(.ok key, doc)] _ => tagFromMember options key doc
  | .settled, .object _ _ => .error ⟨[], .invalidValue .object "map with a single key"⟩
  | .stream _, .broken .endInValue => .error (.fault .endInValue)
  | .stream _, _ => .error (.fault .valueExpected)
  | .settled, doc => Reader.mismatch "string or map" doc

/-- The keys of a tagged value. -/
structure Keys where
  tag : String
  content : String

/-- The next member of a tagged value under one of its keys. -/
inductive Next where
  | finished
  | tag (doc : Doc) (rest : List (Except Fault String × Doc))
  | content (doc : Doc) (rest : List (Except Fault String × Doc))

def next (keys : Keys) (ending : Option Fault) :
    List (Except Fault String × Doc) → Except Refusal Next
  | [] =>
    match ending with
    | none => .ok .finished
    | some fault => Reader.under .unnamed (.error (.fault fault))
  | (.error fault, _) :: _ => Reader.under .unnamed (.error (.fault fault))
  | (.ok key, doc) :: rest =>
    if key = keys.tag then .ok (.tag doc rest)
    else if key = keys.content then .ok (.content doc rest)
    else do
      Record.skip key ending doc rest
      next keys ending rest

/-- Refuses a second tag or content. -/
def noMore (keys : Keys) (ending : Option Fault) (members : List (Except Fault String × Doc)) :
    Except Refusal Unit := do
  match ← next keys ending members with
  | .finished => return ()
  | .tag _ _ => .error ⟨[], .duplicateField keys.tag⟩
  | .content _ _ => .error ⟨[], .duplicateField keys.content⟩

def fromMembers {α : Type} (keys : Keys) (variants : List (String × Reader α)) (mode : Mode)
    (ending : Option Fault) (members : List (Except Fault String × Doc)) : Except Refusal α := do
  match ← next keys ending members with
  | .finished => .error ⟨[], .missingField keys.tag⟩
  | .tag doc rest =>
    let read ← Reader.under (.key keys.tag) (tag variants mode doc)
    match ← next keys ending rest with
    | .finished => .error ⟨[], .missingField keys.content⟩
    | .tag _ _ => .error ⟨[], .duplicateField keys.tag⟩
    | .content doc rest =>
      let value ← Reader.under (.key keys.content) (read mode doc)
      noMore keys ending rest
      return value
  | .content doc rest =>
    Reader.under (.key keys.content) (Reader.settle mode doc)
    match ← next keys ending rest with
    | .finished => .error ⟨[], .missingField keys.tag⟩
    | .content _ _ => .error ⟨[], .duplicateField keys.content⟩
    | .tag tagDoc rest =>
      let read ← Reader.under (.key keys.tag) (tag variants mode tagDoc)
      let value ← (read .settled doc).mapError Refusal.withoutPath
      noMore keys ending rest
      return value

/-- A tag and a content whose shape the tag decides; `name` stands for it in refusals. -/
def adjacent {α : Type} (name : String) (keys : Keys) (variants : List (String × Reader α)) :
    Reader α
  | mode, .object members ending => do
    let inner ← mode.enter
    fromMembers keys variants inner ending members
  | mode, .list items ending => do
    let inner ← mode.enter
    let expected := "adjacently tagged enum " ++ name
    let missing (position : Nat) : Except Refusal α :=
      match ending with
      | some fault => .error (.fault fault)
      | none => .error ⟨[], .invalidLength position expected⟩
    match items with
    | [] => missing 0
    | tagDoc :: rest =>
      let read ← Reader.under (.index 0) (tag variants inner tagDoc)
      match rest with
      | [] => missing 1
      | doc :: extra =>
        let value ← Reader.under (.index 1) (read inner doc)
        Record.checkEnd mode 2 ending extra
        return value
  | _, doc => Reader.mismatch ("adjacently tagged enum " ++ name) doc

end DesignLink.Wire.Tagged
