import DesignLink.Proofs.Dictionary
import DesignLink.Proofs.Wire.Fields
import DesignLink.Proofs.Wire.Records
import DesignLink.Proofs.Wire.Sizes
import DesignLink.Proofs.Wire.Tags

/-!
Readers that read their own results again: what is read of any document, however it was written
there, is read of its written form too. The written form needs no more nesting than the document had,
up to the slack that defaults need.
-/

namespace DesignLink

mutual

/-- The numbers in a document that are not whole numbers by their form. -/
def Json.reals : Json → List Number
  | .real value => [value]
  | .list items => realsOfItems items
  | .object members => realsOfMembers members
  | .null | .boolean _ | .integer _ | .string _ => []

def realsOfItems : List Json → List Number
  | [] => []
  | item :: rest => item.reals ++ realsOfItems rest

def realsOfMembers : List (String × Json) → List Number
  | [] => []
  | (_, value) :: rest => value.reals ++ realsOfMembers rest

end

/-- Each finite number of a document is read back from its own text. -/
def Json.Survives (json : Json) : Prop :=
  ∀ value ∈ json.reals, value.isFinite = true → value.ReadsBack

namespace Wire

theorem survives_of_mem {item : Json} : ∀ {items : List Json},
    (∀ value ∈ realsOfItems items, value.isFinite = true → value.ReadsBack) → item ∈ items →
      item.Survives
  | _ :: _, all, .head _ => fun value member => all value (List.mem_append_left _ member)
  | _ :: _, all, .tail _ later =>
    survives_of_mem (fun value member => all value (List.mem_append_right _ member)) later

theorem survives_of_mem_members {key : String} {json : Json} : ∀ {members : List (String × Json)},
    (∀ value ∈ realsOfMembers members, value.isFinite = true → value.ReadsBack) →
      (key, json) ∈ members → json.Survives
  | (_, _) :: _, all, .head _ => fun value member => all value (List.mem_append_left _ member)
  | (_, _) :: _, all, .tail _ later =>
    survives_of_mem_members (fun value member => all value (List.mem_append_right _ member)) later

theorem depthOfItems_le {bound : Nat} {items : List Json} :
    depthOfItems items ≤ bound ↔ ∀ item ∈ items, item.depth ≤ bound := by
  induction items with
  | nil => exact ⟨nofun, fun _ => Nat.zero_le _⟩
  | cons item rest ih => rw [depthOfItems, Nat.max_le, List.forall_mem_cons, ih]

theorem depthOfMembers_le {bound : Nat} {members : List (String × Json)} :
    depthOfMembers members ≤ bound ↔ ∀ member ∈ members, member.2.depth ≤ bound := by
  induction members with
  | nil => exact ⟨nofun, fun _ => Nat.zero_le _⟩
  | cons member rest ih => rw [depthOfMembers, Nat.max_le, List.forall_mem_cons, ih]

theorem soundItems_iff {items : List Json} :
    soundItems items = true ↔ ∀ item ∈ items, isSound item = true := by
  induction items with
  | nil => exact ⟨nofun, fun _ => rfl⟩
  | cons item rest ih => rw [soundItems, Bool.and_eq_true, List.forall_mem_cons, ih]

theorem soundMembers_iff {members : List (String × Json)} :
    soundMembers members = true ↔ ∀ member ∈ members, isSound member.2 = true := by
  induction members with
  | nil => exact ⟨nofun, fun _ => rfl⟩
  | cons member rest ih => rw [soundMembers, Bool.and_eq_true, List.forall_mem_cons, ih]

namespace Mode

theorem allows_of_le {mode : Mode} {depth less : Nat} (allows : mode.Allows depth)
    (le : less ≤ depth) : mode.Allows less := by
  cases mode with
  | stream limit => exact Nat.lt_of_le_of_lt le allows
  | settled => trivial

theorem exists_enter {mode : Mode} {depth : Nat} (allows : mode.Allows (depth + 1)) :
    ∃ inner, mode.enter = .ok inner ∧ inner.Allows depth := by
  cases mode with
  | settled => exact ⟨.settled, rfl, trivial⟩
  | stream limit =>
    have deep : depth + 1 < limit := allows
    refine ⟨.stream (limit - 1), ?_, ?_⟩
    · rw [enter, if_neg (by omega)]
    · change depth < limit - 1
      omega

end Mode

/-- A value that is read of a written document, which is no deeper than a bound. -/
structure Kept {α : Type} (read : Reader α) (json : Json) (a : α) (bound : Nat) : Prop where
  shallow : json.depth ≤ bound
  sound : json.Survives → isSound json = true
  returns : json.Survives → ∀ mode : Mode, mode.Allows json.depth →
    read mode (scanned json) = .ok a

/-- What is read of a document is kept, however it is read. -/
def StableAt {α : Type} (read : Reader α) (toJson : α → Json) (slack : Nat) (doc : Doc) : Prop :=
  ∀ (mode : Mode) (a : α) (bound : Nat), read mode doc = .ok a → mode.room doc ≤ bound →
    slack ≤ bound → Kept read (toJson a) a bound

/-- The reader reads again what it read of any document. -/
def Stable {α : Type} (read : Reader α) (toJson : α → Json) (slack : Nat) : Prop :=
  ∀ doc : Doc, doc.InRange → StableAt read toJson slack doc

section Readers

variable {α β : Type} {read : Reader α} {toJson : α → Json} {slack slack' bound : Nat} {json : Json}
  {a : α}

namespace Kept

theorem mono (kept : Kept read json a bound) {more : Nat} (le : bound ≤ more) :
    Kept read json a more :=
  ⟨Nat.le_trans kept.shallow le, kept.sound, kept.returns⟩

theorem map (kept : Kept read json a bound) (f : α → β) :
    Kept (fun mode doc => (read mode doc).map f) json (f a) bound where
  shallow := kept.shallow
  sound := kept.sound
  returns survives mode allows := by
    rw [kept.returns survives mode allows]
    rfl

theorem congr (kept : Kept read json a bound) {read' : Reader α}
    (same : ∀ mode, read' mode (scanned json) = read mode (scanned json)) :
    Kept read' json a bound where
  shallow := kept.shallow
  sound := kept.sound
  returns survives mode allows := (same mode).trans (kept.returns survives mode allows)

theorem flat (noParts : json.depth = 0) (sound : json.Survives → isSound json = true)
    (returns : json.Survives → ∀ mode, read mode (scanned json) = .ok a) (bound : Nat) :
    Kept read json a bound :=
  ⟨by rw [noParts]; exact Nat.zero_le _, sound, fun survives mode _ => returns survives mode⟩

theorem text (text : String) (bound : Nat) : Kept Reader.text (.string text) text bound :=
  ⟨Nat.zero_le _, fun _ => rfl, fun _ _ _ => rfl⟩

theorem flag (value : Bool) (bound : Nat) : Kept Reader.flag (.boolean value) value bound :=
  ⟨Nat.zero_le _, fun _ => rfl, fun _ _ _ => rfl⟩

theorem word32 {value : Nat} (small : value < 2 ^ 32) (bound : Nat) :
    Kept Reader.word32 (.integer value) value bound := by
  have digits := @Numeral.ofText_digits value (by omega) (by omega)
  refine flat rfl (fun _ => ?_) (fun _ mode => ?_) bound
  · rw [isSound, digits]
    rfl
  · have fits : 0 ≤ (value : Int) ∧ (value : Int).toNat < Nat.pow 2 32 := ⟨by omega, small⟩
    rw [scanned, digits, Reader.word32, if_pos fits]
    rfl

theorem list {items : List α} (each : ∀ item ∈ items, Kept read (toJson item) item bound) :
    Kept (Reader.list read) (.list (items.map toJson)) items (bound + 1) where
  shallow := by
    rw [Json.depth]
    apply Nat.succ_le_succ
    rw [depthOfItems_le]
    rintro _ member
    obtain ⟨item, among, rfl⟩ := List.mem_map.mp member
    exact (each item among).shallow
  sound survives := by
    rw [isSound, soundItems_iff]
    rintro _ member
    obtain ⟨item, among, rfl⟩ := List.mem_map.mp member
    exact (each item among).sound (survives_of_mem survives member)
  returns survives mode allows := by
    obtain ⟨inner, entered, enough⟩ := Mode.exists_enter allows
    refine list_eq_ok_iff.mpr ⟨inner, entered, scannedItems (items.map toJson), rfl, ?_⟩
    have reads : ∀ item ∈ items, read inner (scanned (toJson item)) = .ok item := by
      intro item among
      have member := List.mem_map_of_mem among (f := toJson)
      exact (each item among).returns (survives_of_mem survives member) inner
        (Mode.allows_of_le enough (depthOfItems_le.mp (Nat.le_refl _) _ member))
    clear each survives allows enough
    induction items with
    | nil => exact .nil
    | cons item items ih =>
      exact .cons (reads item List.mem_cons_self)
        (ih fun other among => reads other (List.mem_cons_of_mem item among))

theorem dictionary {entries : List (String × α)} (distinct : (Dictionary.keys entries).Nodup)
    (each : ∀ entry ∈ entries, Kept read (toJson entry.2) entry.2 bound) :
    Kept (Reader.dictionary read) (.object (entries.map fun entry => (entry.1, toJson entry.2)))
      entries (bound + 1) where
  shallow := by
    rw [Json.depth]
    apply Nat.succ_le_succ
    rw [depthOfMembers_le]
    rintro _ member
    obtain ⟨entry, among, rfl⟩ := List.mem_map.mp member
    exact (each entry among).shallow
  sound survives := by
    rw [isSound, soundMembers_iff]
    rintro _ member
    obtain ⟨entry, among, rfl⟩ := List.mem_map.mp member
    exact (each entry among).sound (survives_of_mem_members survives member)
  returns survives mode allows := by
    obtain ⟨inner, entered, enough⟩ := Mode.exists_enter allows
    have reads : ∀ entry ∈ entries, read inner (scanned (toJson entry.2)) = .ok entry.2 := by
      intro entry among
      have member : (entry.1, toJson entry.2) ∈
          entries.map fun entry => (entry.1, toJson entry.2) :=
        List.mem_map_of_mem among (f := fun entry => (entry.1, toJson entry.2))
      exact (each entry among).returns (survives_of_mem_members survives member) inner
        (Mode.allows_of_le enough (depthOfMembers_le.mp (Nat.le_refl _) _ member))
    have all : collected (fun member : String × Doc =>
        (read inner member.2).toOption.map (Prod.mk member.1))
          (entries.map fun entry => (entry.1, scanned (toJson entry.2))) = some entries := by
      clear distinct each survives allows enough
      induction entries with
      | nil => rfl
      | cons entry entries ih =>
        have later := ih fun other among => reads other (List.mem_cons_of_mem entry among)
        rw [List.map_cons, collected, later, reads entry List.mem_cons_self]
        rfl
    have keys : Dictionary.keys (entries.map fun entry => (entry.1, scanned (toJson entry.2))) =
        Dictionary.keys entries := by
      rw [Dictionary.keys, List.map_map]
      rfl
    have put := @toOption_entriesFrom _ read inner
      (entries.map fun entry => (entry.1, scanned (toJson entry.2))) [] (by rw [keys]; exact distinct)
    rw [all, Option.map_some, List.nil_append] at put
    rw [scanned, Reader.dictionary, entered, ok_bind, scannedMembers_map]
    exact toOption_eq_some.mp put

end Kept

/-! What was read. -/

theorem exists_of_forall₂ {γ δ : Type} {related : γ → δ → Prop} {left : List γ} {right : List δ}
    (each : List.Forall₂ related left right) {b : δ} (member : b ∈ right) :
    ∃ a ∈ left, related a b := by
  induction each with
  | nil => cases member
  | cons first others ih =>
    cases member with
    | head => exact ⟨_, List.mem_cons_self, first⟩
    | tail _ later =>
      obtain ⟨a, among, holds⟩ := ih later
      exact ⟨a, List.mem_cons_of_mem _ among, holds⟩

theorem word32_eq_ok {mode : Mode} {doc : Doc} {value : Nat}
    (ok : Reader.word32 mode doc = .ok value) : value < 2 ^ 32 := by
  unfold Reader.word32 at ok
  split at ok
  case h_1 =>
    split at ok
    case isTrue fits =>
      cases ok
      exact fits.2
    case isFalse => cases ok
  case h_2 => exact absurd ok (mismatch_ne_ok _ _ _)

/-- The entries that are read stand under different keys, each read of some member. -/
theorem entriesFrom_eq_ok {mode : Mode} {ending : Option Fault} :
    ∀ {members : List (Except Fault String × Doc)} {before entries : List (String × α)},
      Reader.entriesFrom read mode ending before members = .ok entries →
        ((Dictionary.keys before).Nodup → (Dictionary.keys entries).Nodup) ∧
        ∀ entry ∈ entries, entry ∈ before ∨
          ∃ key doc, (key, doc) ∈ members ∧ read mode doc = .ok entry.2
  | [], before, entries, ok => by
    cases ending with
    | none =>
      cases ok
      exact ⟨id, fun _ member => .inl member⟩
    | some fault => cases ok
  | (.error _, _) :: _, _, _, ok => nomatch ok
  | (.ok key, doc) :: members, before, entries, ok => by
    rw [Reader.entriesFrom] at ok
    obtain ⟨value, first, ok⟩ := exists_of_bind ok
    obtain ⟨distinct, origin⟩ := entriesFrom_eq_ok ok
    refine ⟨fun nodup => distinct (nodup_keys_put key value nodup), fun entry member => ?_⟩
    rcases origin entry member with put | ⟨other, part, among, found⟩
    · rcases mem_put put with old | rfl
      · exact .inl old
      · exact .inr ⟨.ok key, doc, List.mem_cons_self, ok_of_mapError first⟩
    · exact .inr ⟨other, part, List.mem_cons_of_mem _ among, found⟩

theorem dictionary_eq_ok {mode : Mode} {doc : Doc} {entries : List (String × α)}
    (ok : Reader.dictionary read mode doc = .ok entries) :
    ∃ inner members ending, mode.enter = .ok inner ∧ doc = .object members ending ∧
      (Dictionary.keys entries).Nodup ∧ ∀ entry ∈ entries,
        ∃ key part, (key, part) ∈ members ∧ read inner part = .ok entry.2 := by
  cases doc with
  | object members ending =>
    obtain ⟨inner, entered, ok⟩ := exists_of_bind ok
    obtain ⟨distinct, origin⟩ := entriesFrom_eq_ok ok
    exact ⟨inner, members, ending, entered, rfl, distinct .nil,
      fun entry member => (origin entry member).resolve_left nofun⟩
  | numeral value => exact absurd ok (mismatch_ne_ok _ _ _)
  | string value => exact absurd ok (mismatch_ne_ok _ _ _)
  | null | boolean | list | broken => cases ok

/-! Stable readers. -/

theorem stable_text : Stable Reader.text .string 0 :=
  fun _ _ _ text bound _ _ _ => .text text bound

theorem stable_flag : Stable Reader.flag .boolean 0 :=
  fun _ _ _ value bound _ _ _ => .flag value bound

theorem stable_word32 : Stable Reader.word32 (fun value => .integer value) 0 :=
  fun _ _ _ _ bound ok _ _ => .word32 (word32_eq_ok ok) bound

theorem StableAt.map {doc : Doc} {toJson' : β → Json} (stable : StableAt read toJson slack doc)
    {f : α → β} (same : ∀ a, toJson' (f a) = toJson a) :
    StableAt (fun mode doc => (read mode doc).map f) toJson' slack doc := by
  intro mode b bound ok room fits
  obtain ⟨a, found, rfl⟩ := exists_of_map ok
  rw [same]
  exact (stable mode a bound found room fits).map f

/-- A list is read again if its items are. The slack is used up a level further in. -/
theorem stableAt_list {items : List Doc} {ending : Option Fault}
    (each : ∀ item ∈ items, StableAt read toJson slack item)
    (less : slack ≤ slack' - 1) :
    StableAt (Reader.list read) (fun values => .list (values.map toJson)) slack'
      (.list items ending) := by
  intro mode values bound ok room fits
  obtain ⟨inner, entered, items', same, reads⟩ := list_eq_ok_iff.mp ok
  cases same
  obtain ⟨bound, rfl⟩ := Mode.exists_bound entered (Nat.le_add_left 1 _) room
  refine .list fun value member => ?_
  obtain ⟨item, among, found⟩ := exists_of_forall₂ reads member
  have inside : inner.room item + 1 ≤ mode.room (.list items none) :=
    Mode.room_of_enter entered (Nat.succ_le_succ (Doc.depth_le_of_mem among))
  exact each item among inner value bound found (by omega) (by omega)

theorem stable_list (stable : Stable read toJson slack) (less : slack ≤ slack' - 1) :
    Stable (Reader.list read) (fun values => .list (values.map toJson)) slack' := by
  intro doc inRange mode values bound ok
  obtain ⟨-, -, items, rfl, -⟩ := list_eq_ok_iff.mp ok
  exact stableAt_list (fun item member => stable item (Doc.inRange_of_mem inRange member)) less
    mode values bound ok

theorem stableAt_dictionary {members : List (Except Fault String × Doc)} {ending : Option Fault}
    (each : ∀ member ∈ members, StableAt read toJson slack member.2)
    (less : slack ≤ slack' - 1) :
    StableAt (Reader.dictionary read)
      (fun entries => .object (entries.map fun entry => (entry.1, toJson entry.2))) slack'
      (.object members ending) := by
  intro mode entries bound ok room fits
  obtain ⟨inner, members', ending', entered, same, distinct, origin⟩ := dictionary_eq_ok ok
  cases same
  obtain ⟨bound, rfl⟩ := Mode.exists_bound entered (Nat.le_add_left 1 _) room
  refine .dictionary distinct fun entry member => ?_
  obtain ⟨key, part, among, found⟩ := origin entry member
  have inside : inner.room part + 1 ≤ mode.room (.object members ending) :=
    Mode.room_of_enter entered (Nat.succ_le_succ (Doc.depth_le_of_mem_parts among))
  have shallow : inner.room part ≤ bound := by omega
  exact each (key, part) among inner entry.2 bound found shallow (by omega)

theorem stable_dictionary (stable : Stable read toJson slack)
    (less : slack ≤ slack' - 1) :
    Stable (Reader.dictionary read)
      (fun entries => .object (entries.map fun entry => (entry.1, toJson entry.2))) slack' := by
  intro doc inRange mode entries bound ok
  obtain ⟨-, members, ending, -, rfl, -⟩ := dictionary_eq_ok ok
  exact stableAt_dictionary
    (fun member among => stable member.2 (Doc.inRange_of_mem_parts inRange among)) less
    mode entries bound ok

end Readers

/-! Any value whatever. -/

theorem anythingItems_eq (mode : Mode) (ending : Option Fault) : ∀ (position : Nat)
    (items : List Doc), Reader.anythingItems mode ending position items =
      Reader.listFrom Reader.anything mode ending position items
  | _, [] => by cases ending <;> rfl
  | position, _ :: rest => by
    rw [Reader.anythingItems, Reader.listFrom]
    simp only [anythingItems_eq mode ending (position + 1) rest]

theorem anythingMembers_eq (mode : Mode) (ending : Option Fault) :
    ∀ (members : List (Except Fault String × Doc)) (entries : List (String × Json)),
      Reader.anythingMembers mode ending entries members =
        Reader.entriesFrom Reader.anything mode ending entries members
  | [], _ => by cases ending <;> rfl
  | (.error _, _) :: _, _ => rfl
  | (.ok _, _) :: rest, _ => by
    rw [Reader.anythingMembers, Reader.entriesFrom]
    simp only [anythingMembers_eq mode ending rest]

theorem anything_list (mode : Mode) (items : List Doc) (ending : Option Fault) :
    Reader.anything mode (.list items ending) =
      (Reader.list Reader.anything mode (.list items ending)).map .list := by
  rw [Reader.anything, Reader.list]
  simp only [anythingItems_eq]
  cases mode.enter with
  | error refusal => rfl
  | ok inner =>
    rw [ok_bind, ok_bind]
    cases Reader.listFrom Reader.anything inner ending 0 items <;> rfl

theorem anything_object (mode : Mode) (members : List (Except Fault String × Doc))
    (ending : Option Fault) : Reader.anything mode (.object members ending) =
      (Reader.dictionary Reader.anything mode (.object members ending)).map .object := by
  rw [Reader.anything, Reader.dictionary]
  simp only [anythingMembers_eq]
  cases mode.enter with
  | error refusal => rfl
  | ok inner =>
    rw [ok_bind, ok_bind]
    cases Reader.entriesFrom Reader.anything inner ending [] members <;> rfl

theorem ofText_of_readsBack {negative : Bool} {m : Magnitude}
    (back : (Number.finite negative m).ReadsBack) :
    Numeral.ofText negative (magnitudeText m).toList = .ok (.real (.finite negative m)) := by
  rw [Number.readsBack_iff, Number.received?, scanned] at back
  have notWhole := Numeral.ofText_magnitudeText_ne negative m
  cases read : Numeral.ofText negative (magnitudeText m).toList with
  | error fault =>
    rw [read] at back
    cases back
  | ok numeral =>
    cases numeral with
    | integer value => exact absurd read (notWhole value)
    | real value =>
      rw [read] at back
      have same : some value = some (Number.finite negative m) := back
      rw [Option.some.inj same]

theorem kept_integer {value : Int} (inRange : (Numeral.integer value).IsInRange) (bound : Nat) :
    Kept Reader.anything (.integer value) (.integer value) bound := by
  have digits := Numeral.ofText_digits inRange.1 inRange.2
  refine .flat rfl (fun _ => ?_) (fun _ mode => ?_) bound
  · rw [isSound, digits]
    rfl
  · rw [scanned, digits]
    rfl

theorem kept_real {value : Number} (isFinite : value.isFinite = true) (bound : Nat) :
    Kept Reader.anything (.real value) (.real value) bound := by
  cases value with
  | infinite | undefined => cases isFinite
  | finite negative m =>
    have read (survives : (Json.real (.finite negative m)).Survives) :=
      ofText_of_readsBack (survives _ (List.mem_singleton.mpr rfl) rfl)
    refine .flat rfl (fun survives => ?_) (fun survives mode => ?_) bound
    · rw [isSound, read survives]
      rfl
    · rw [scanned, read survives]
      rfl

mutual

theorem stableAt_anything : ∀ doc : Doc, doc.InRange → StableAt Reader.anything id 0 doc
  | .null, _ => by
    intro mode json bound ok _ _
    cases ok
    exact ⟨Nat.zero_le _, fun _ => rfl, fun _ _ _ => rfl⟩
  | .boolean value, _ => by
    intro mode json bound ok _ _
    cases ok
    exact ⟨Nat.zero_le _, fun _ => rfl, fun _ _ _ => rfl⟩
  | .string (.ok value), _ => by
    intro mode json bound ok _ _
    cases ok
    exact ⟨Nat.zero_le _, fun _ => rfl, fun _ _ _ => rfl⟩
  | .numeral (.ok (.integer value)), inRange => by
    intro mode json bound ok _ _
    cases ok
    exact kept_integer (inRange _ rfl) bound
  | .numeral (.ok (.real value)), inRange => by
    intro mode json bound ok _ _
    cases ok
    exact kept_real (inRange _ rfl) bound
  | .list items ending, inRange => by
    intro mode json bound ok room fits
    rw [anything_list] at ok
    obtain ⟨values, read, rfl⟩ := exists_of_map ok
    have kept : Kept (Reader.list Reader.anything) (.list (values.map id)) values bound :=
      stableAt_list (stableAt_items items inRange) (Nat.zero_le _) mode values bound read
        room fits
    rw [List.map_id] at kept
    exact (kept.map Json.list).congr fun mode => anything_list mode (scannedItems values) none
  | .object members ending, inRange => by
    intro mode json bound ok room fits
    rw [anything_object] at ok
    obtain ⟨entries, read, rfl⟩ := exists_of_map ok
    have kept : Kept (Reader.dictionary Reader.anything)
        (.object (entries.map fun entry => (entry.1, id entry.2))) entries bound :=
      stableAt_dictionary (stableAt_parts members inRange) (Nat.zero_le _) mode entries
        bound read room fits
    have same : entries.map (fun entry => (entry.1, id entry.2)) = entries := List.map_id entries
    rw [same] at kept
    exact (kept.map Json.object).congr fun mode => anything_object mode (scannedMembers entries) none
  | .numeral (.error _), _ | .string (.error _), _ | .broken _, _ => by
    intro mode json bound ok
    cases ok

theorem stableAt_items : ∀ items : List Doc, Doc.DocsInRange items →
    ∀ item ∈ items, StableAt Reader.anything id 0 item
  | first :: _, ⟨inRange, _⟩, _, .head _ => stableAt_anything first inRange
  | _ :: rest, ⟨_, inRange⟩, item, .tail _ later => stableAt_items rest inRange item later

theorem stableAt_parts : ∀ members : List (Except Fault String × Doc), Doc.PartsInRange members →
    ∀ member ∈ members, StableAt Reader.anything id 0 member.2
  | (_, first) :: _, ⟨inRange, _⟩, _, .head _ => stableAt_anything first inRange
  | (_, _) :: rest, ⟨_, inRange⟩, member, .tail _ later => stableAt_parts rest inRange member later

end

theorem stable_anything : Stable Reader.anything id 0 := stableAt_anything

theorem stable_entries : Stable (Reader.dictionary Reader.anything) .object 0 := by
  have entries : Stable (Reader.dictionary Reader.anything)
      (fun entries => .object (entries.map fun entry => (entry.1, id entry.2))) 0 :=
    stable_dictionary stable_anything (Nat.zero_le _)
  simpa using entries

end Wire

end DesignLink
