import DesignLink.Proofs.Wire.Tags
import DesignLink.Protocol.Exchange

/-!
What responses to CREATE look like. A document shows a response in one of few ways: a record is an
object with each of its fields once, under any of its names, or the list of its fields; a level has
several spellings. Nothing else is read as a response.
-/

namespace DesignLink

open Wire

namespace Level

def names : Level → List String
  | info => ["info", "INFO", "debug", "DEBUG"]
  | warning => ["warning", "WARNING", "warn", "WARN"]
  | error => ["error", "ERROR"]

theorem get?_options_iff (name : String) (level : Level) :
    Dictionary.get? options name = some level ↔ name ∈ level.names := by
  constructor
  · intro found
    obtain ⟨entry, first, rfl⟩ := Option.map_eq_some_iff.mp found
    have same : entry.1 = name := by simpa using List.find?_some first
    have all : ∀ entry ∈ options, entry.1 ∈ entry.2.names := by decide
    rw [← same]
    exact all entry (List.mem_of_find?_eq_some first)
  · have all : ∀ level ∈ [info, warning, error], ∀ name ∈ level.names,
        Dictionary.get? options name = some level := by decide
    exact all level (by cases level <;> decide) name

/-- A level is shown by one of its names, alone or with `null` under it. -/
inductive ShownBy (level : Level) : Doc → Prop
  | name {name : String} (accepted : name ∈ level.names) : ShownBy level (.string (.ok name))
  | member {name : String} (accepted : name ∈ level.names) :
    ShownBy level (.object (keyed [(name, .null)]) none)

theorem read_eq_ok_iff (depth : Nat) (doc : Doc) (level : Level) :
    Level.read (.stream (depth + 2)) doc = .ok level ↔ level.ShownBy doc := by
  rw [Level.read, Tagged.tag_stream_eq_ok_iff]
  simp only [get?_options_iff]
  constructor
  · rintro ⟨name, accepted, rfl | rfl⟩
    · exact .name accepted
    · exact .member accepted
  · rintro (accepted | accepted)
    · exact ⟨_, accepted, .inl rfl⟩
    · exact ⟨_, accepted, .inr rfl⟩

end Level

theorem text_eq_ok_iff (mode : Mode) (doc : Doc) (text : String) :
    Reader.text mode doc = .ok text ↔ doc = .string (.ok text) := by
  constructor
  · intro ok
    cases doc with
    | string value =>
      cases value with
      | error fault => cases ok
      | ok value => rw [Except.ok.inj ok]
    | numeral value => exact absurd ok (mismatch_ne_ok _ _ _)
    | null | boolean | list | object | broken => cases ok
  · rintro rfl
    rfl

theorem enter_stream (depth : Nat) :
    (Mode.stream (depth + 2)).enter = .ok (.stream (depth + 1)) := rfl

namespace Message

/-- A message is shown with its level and its text, which has two names. -/
inductive ShownBy (m : Message) : Doc → Prop
  | object {members : List (String × Doc)} {level : Doc}
    (hasLevel : partsUnder ["level"] members = [level]) (isLevel : m.level.ShownBy level)
    (hasText : partsUnder ["text", "message"] members = [.string (.ok m.text)]) :
    ShownBy m (.object (keyed members) none)
  | list {level : Doc} (isLevel : m.level.ShownBy level) :
    ShownBy m (.list [level, .string (.ok m.text)] none)

theorem read_eq_ok_iff (depth : Nat) (doc : Doc) (m : Message) :
    Message.read (.stream (depth + 3)) doc = .ok m ↔ m.ShownBy doc := by
  have apart : ∀ key ∈ ["level"], key ∉ ["text", "message"] := by decide
  rw [Message.read, Record.read_map_iff]
  constructor
  · rintro ⟨⟨level, text⟩, ok, rfl⟩
    obtain ⟨inner, entered, levelDoc, textDoc, isLevel, isText, shape⟩ :=
      (Record.read_two_iff apart).mp ok
    cases entered
    have shown := (Level.read_eq_ok_iff depth _ _).mp isLevel
    obtain rfl := (text_eq_ok_iff _ _ _).mp isText
    obtain ⟨members, rfl, hasLevel, hasText⟩ | rfl := shape
    · exact .object hasLevel shown hasText
    · exact .list shown
  · intro shown
    refine ⟨(m.level, m.text), (Record.read_two_iff apart).mpr ⟨_, enter_stream _, ?_⟩, rfl⟩
    cases shown with
    | object hasLevel isLevel hasText =>
      exact ⟨_, _, (Level.read_eq_ok_iff depth _ _).mpr isLevel, rfl,
        .inl ⟨_, rfl, hasLevel, hasText⟩⟩
    | list isLevel =>
      exact ⟨_, _, (Level.read_eq_ok_iff depth _ _).mpr isLevel, rfl, .inr rfl⟩

end Message

namespace CreateResponse

/-- A created file is shown with its path. -/
inductive FileShownBy (path : String) : Doc → Prop
  | object {members : List (String × Doc)}
    (hasPath : partsUnder ["filePath"] members = [.string (.ok path)]) :
    FileShownBy path (.object (keyed members) none)
  | list : FileShownBy path (.list [.string (.ok path)] none)

/-- A response is shown with its files and its messages. -/
inductive ShownBy (r : CreateResponse) : Doc → Prop
  | object {members : List (String × Doc)} {files messages : List Doc}
    (hasFiles : partsUnder ["createdFiles"] members = [.list files none])
    (areFiles : List.Forall₂ (fun doc path => FileShownBy path doc) files r.files)
    (hasMessages : partsUnder ["messages"] members = [.list messages none])
    (areMessages : List.Forall₂ (fun doc m => Message.ShownBy m doc) messages r.messages) :
    ShownBy r (.object (keyed members) none)
  | list {files messages : List Doc}
    (areFiles : List.Forall₂ (fun doc path => FileShownBy path doc) files r.files)
    (areMessages : List.Forall₂ (fun doc m => Message.ShownBy m doc) messages r.messages) :
    ShownBy r (.list [.list files none, .list messages none] none)

theorem readFile_eq_ok_iff (depth : Nat) (doc : Doc) (path : String) :
    ((Record.required "filePath" Reader.text).read "CreatedFile") (.stream (depth + 2)) doc =
      .ok path ↔ FileShownBy path doc := by
  rw [Record.required, Record.read_one_iff]
  constructor
  · rintro ⟨inner, entered, part, isText, shape⟩
    obtain rfl := (text_eq_ok_iff _ _ _).mp isText
    obtain ⟨members, rfl, hasPath⟩ | rfl := shape
    · exact .object hasPath
    · exact .list
  · intro shown
    refine ⟨_, enter_stream _, _, (text_eq_ok_iff _ _ _).mpr rfl, ?_⟩
    cases shown with
    | object hasPath => exact .inl ⟨_, rfl, hasPath⟩
    | list => exact .inr rfl

theorem read_eq_ok_iff (doc : Doc) (r : CreateResponse) :
    CreateResponse.read (.stream Mode.depthLimit) doc = .ok r ↔ r.ShownBy doc := by
  have apart : ∀ key ∈ ["createdFiles"], key ∉ ["messages"] := by decide
  have files (doc : Doc) (paths : List String) : Reader.list
      ((Record.required "filePath" Reader.text).read "CreatedFile") (.stream 127) doc = .ok paths ↔
        ∃ items, doc = .list items none ∧
          List.Forall₂ (fun doc path => FileShownBy path doc) items paths := by
    rw [list_eq_ok_iff]
    simp only [enter_stream 125, Except.ok.injEq, exists_eq_left', readFile_eq_ok_iff 124]
  have messages (doc : Doc) (values : List Message) :
      Reader.list Message.read (.stream 127) doc = .ok values ↔
        ∃ items, doc = .list items none ∧
          List.Forall₂ (fun doc m => Message.ShownBy m doc) items values := by
    rw [list_eq_ok_iff]
    simp only [enter_stream 125, Except.ok.injEq, exists_eq_left', Message.read_eq_ok_iff 123]
  rw [CreateResponse.read, Record.read_map_iff]
  constructor
  · rintro ⟨⟨paths, values⟩, ok, rfl⟩
    obtain ⟨inner, entered, filesDoc, messagesDoc, areFiles, areMessages, shape⟩ :=
      (Record.read_two_iff apart).mp ok
    cases entered
    obtain ⟨fileDocs, rfl, filesShown⟩ := (files _ _).mp areFiles
    obtain ⟨messageDocs, rfl, messagesShown⟩ := (messages _ _).mp areMessages
    obtain ⟨members, rfl, hasFiles, hasMessages⟩ | rfl := shape
    · exact .object hasFiles filesShown hasMessages messagesShown
    · exact .list filesShown messagesShown
  · intro shown
    refine ⟨(r.files, r.messages), (Record.read_two_iff apart).mpr ⟨_, enter_stream 126, ?_⟩, rfl⟩
    cases shown with
    | object hasFiles areFiles hasMessages areMessages =>
      exact ⟨_, _, (files _ _).mpr ⟨_, rfl, areFiles⟩, (messages _ _).mpr ⟨_, rfl, areMessages⟩,
        .inl ⟨_, rfl, hasFiles, hasMessages⟩⟩
    | list areFiles areMessages =>
      exact ⟨_, _, (files _ _).mpr ⟨_, rfl, areFiles⟩, (messages _ _).mpr ⟨_, rfl, areMessages⟩,
        .inr rfl⟩

end CreateResponse

end DesignLink
