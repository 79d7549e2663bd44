import DesignLink.Wire.Reader

/-!
Records: objects with known fields. A record may also be written as the list of its fields in
order. Fields that are not known are skipped, a field given twice is refused.
-/

namespace DesignLink.Wire

/-- A field of a record that is being collected in a draft. -/
structure Field (σ : Type) where
  name : String
  aliases : List String
  required : Bool
  isSet : σ → Bool
  set : Mode → Doc → σ → Except Refusal σ

namespace Field

def onFirst {σ τ : Type} (f : Field σ) : Field (σ × τ) where
  name := f.name
  aliases := f.aliases
  required := f.required
  isSet draft := f.isSet draft.1
  set mode doc draft := (f.set mode doc draft.1).map fun first => (first, draft.2)

def onSecond {σ τ : Type} (f : Field τ) : Field (σ × τ) where
  name := f.name
  aliases := f.aliases
  required := f.required
  isSet draft := f.isSet draft.2
  set mode doc draft := (f.set mode doc draft.2).map fun second => (draft.1, second)

def answersTo {σ : Type} (f : Field σ) (key : String) : Bool :=
  f.name == key || f.aliases.contains key

end Field

/-- A record: drafts collect the fields in any order, `finish` makes the value of a draft. -/
structure Record (α : Type) where
  Draft : Type
  empty : Draft
  fields : List (Field Draft)
  finish : Draft → Except Cause α

namespace Record

def field {α : Type} (name : String) (aliases : List String) (required : Bool)
    (absent : Except Cause α) (read : Reader α) : Record α where
  Draft := Option α
  empty := none
  fields := [{
    name := name
    aliases := aliases
    required := required
    isSet := Option.isSome
    set := fun mode doc _ => (read mode doc).map some }]
  finish
    | some value => .ok value
    | none => absent

/-- A field that must be given under its name or an alias. -/
def requiredAs {α : Type} (name : String) (aliases : List String) (read : Reader α) : Record α :=
  field name aliases true (.error (.missingField name)) read

/-- A field that must be given. -/
def required {α : Type} (name : String) (read : Reader α) : Record α := requiredAs name [] read

/-- A field that may be absent or `null`, under its name or an alias. -/
def optionalAs {α : Type} (name : String) (aliases : List String) (read : Reader α) :
    Record (Option α) :=
  field name aliases false (.ok none) (Reader.optional read)

/-- A field that may be absent or `null`. -/
def optional {α : Type} (name : String) (read : Reader α) : Record (Option α) :=
  optionalAs name [] read

/-- A field with a default for its absence. -/
def defaulted {α : Type} (name : String) (default : α) (read : Reader α) : Record α :=
  field name [] false (.ok default) read

/-- The fields of one record followed by those of another. -/
def both {α β : Type} (a : Record α) (b : Record β) : Record (α × β) where
  Draft := a.Draft × b.Draft
  empty := (a.empty, b.empty)
  fields := a.fields.map Field.onFirst ++ b.fields.map Field.onSecond
  finish draft := do
    let first ← a.finish draft.1
    let second ← b.finish draft.2
    return (first, second)

def map {α β : Type} (f : α → β) (r : Record α) : Record β where
  Draft := r.Draft
  empty := r.empty
  fields := r.fields
  finish draft := (r.finish draft).map f

/-- Skips the member under a key. A fault that ends the scan inside it belongs to that member. -/
def skip (key : String) (ending : Option Fault) (doc : Doc)
    (rest : List (Except Fault String × Doc)) : Except Refusal Unit :=
  match rest, ending with
  | [], some fault =>
    if doc.fault? = some fault then Reader.under (.key key) (.error (.fault fault)) else .ok ()
  | _, _ => .ok ()

/-- Collects the members of an object. -/
def fromMembers {σ : Type} (fields : List (Field σ)) (mode : Mode) (ending : Option Fault) :
    σ → List (Except Fault String × Doc) → Except Refusal σ
  | draft, [] =>
    match ending with
    | none => .ok draft
    | some fault => Reader.under .unnamed (.error (.fault fault))
  | _, (.error fault, _) :: _ => Reader.under .unnamed (.error (.fault fault))
  | draft, (.ok key, doc) :: rest =>
    match fields.find? (·.answersTo key) with
    | none => do
      skip key ending doc rest
      fromMembers fields mode ending draft rest
    | some f =>
      if f.isSet draft then .error ⟨[], .duplicateField f.name⟩
      else do
        let draft ← Reader.under (.key key) (f.set mode doc draft)
        fromMembers fields mode ending draft rest

/-- How many items a record has as a list, in words. -/
def countText (count : Nat) : String :=
  toString count ++ (if count = 1 then " element" else " elements")

/-- Refuses items behind the last field. -/
def checkEnd (mode : Mode) (count : Nat) (ending : Option Fault) (extra : List Doc) :
    Except Refusal Unit :=
  match mode, extra, ending with
  | _, [], none => .ok ()
  | .stream _, [], some .endInList => .error (.fault .endInList)
  | .stream _, [], some .trailingComma => .error (.fault .trailingComma)
  | .stream _, _, _ => .error (.fault .trailingCharacters)
  | .settled, extra, _ =>
    .error ⟨[], .invalidLength (count + extra.length) (countText count ++ " in sequence")⟩

/-- Collects the items of a list; gives the draft and the items behind the last field. -/
def fromItems {σ : Type} (expected : String) (mode : Mode) (ending : Option Fault) :
    Nat → σ → List (Field σ) → List Doc → Except Refusal (σ × List Doc)
  | _, draft, [], extra => .ok (draft, extra)
  | position, draft, f :: fields, doc :: rest => do
    let draft ← Reader.under (.index position) (f.set mode doc draft)
    fromItems expected mode ending (position + 1) draft fields rest
  | position, draft, f :: fields, [] =>
    match ending with
    | some fault => .error (.fault fault)
    | none =>
      if f.required then .error ⟨[], .invalidLength position expected⟩
      else fromItems expected mode ending (position + 1) draft fields []

def finishDraft {α : Type} (r : Record α) (draft : r.Draft) : Except Refusal α :=
  (r.finish draft).mapError fun cause => ⟨[], cause⟩

/-- Reads a record from an object or a list; `name` stands for it in refusals. -/
def read {α : Type} (name : String) (r : Record α) : Reader α
  | mode, .object members ending => do
    let inner ← mode.enter
    let draft ← fromMembers r.fields inner ending r.empty members
    r.finishDraft draft
  | mode, .list items ending => do
    let inner ← mode.enter
    let count := r.fields.length
    let expected := "struct " ++ name ++ " with " ++ countText count
    let (draft, extra) ← fromItems expected inner ending 0 r.empty r.fields items
    checkEnd mode count ending extra
    r.finishDraft draft
  | _, doc => Reader.mismatch ("struct " ++ name) doc

end Record

end DesignLink.Wire
