import DesignLink.Proofs.Results
import DesignLink.Proofs.Wire.Scanning

/-!
Reading what was written. A reader delivers a value from a document of some depth: it finds the
value if the mode allows that depth, and nothing otherwise.
-/

namespace DesignLink

mutual

/-- How many lists and objects are around the innermost part of a document. -/
def Json.depth : Json → Nat
  | .list items => depthOfItems items + 1
  | .object members => depthOfMembers members + 1
  | .null | .boolean _ | .integer _ | .real _ | .string _ => 0

def depthOfItems : List Json → Nat
  | [] => 0
  | item :: rest => max item.depth (depthOfItems rest)

def depthOfMembers : List (String × Json) → Nat
  | [] => 0
  | (_, value) :: rest => max value.depth (depthOfMembers rest)

end

namespace Wire

namespace Mode

def Allows (depth : Nat) : Mode → Prop
  | .stream limit => depth < limit
  | .settled => True

instance (depth : Nat) (mode : Mode) : Decidable (mode.Allows depth) :=
  match mode with
  | .stream limit => inferInstanceAs (Decidable (depth < limit))
  | .settled => inferInstanceAs (Decidable True)

/-- A bound on the depth of what is read: in a stream by its limit, otherwise by the document. -/
def Within (bound depth : Nat) : Mode → Prop
  | .stream limit => limit ≤ bound
  | .settled => depth ≤ bound

end Mode

/-- What is read of a document is the result if its depth is allowed, and nothing otherwise. The
bound is on the modes and documents that this is known for. -/
def Delivers {α : Type} (bound depth : Nat) (read : Mode → Option α) (result : Option α) : Prop :=
  ∀ mode : Mode, mode.Allows 0 → mode.Within bound depth →
    read mode = if mode.Allows depth then result else none

namespace Delivers

variable {α β γ : Type} {bound depth depth' : Nat} {read : Mode → Option α}
  {read' : Mode → Option β} {result : Option α} {result' : Option β}

theorem value (bound : Nat) (result : Option α) : Delivers bound 0 (fun _ => result) result := by
  intro mode allows _
  rw [if_pos allows]

theorem mono {less : Nat} (delivers : Delivers bound depth read result) (fewer : less ≤ bound) :
    Delivers less depth read result := by
  intro mode allows within_
  apply delivers mode allows
  cases mode with
  | stream limit => exact Nat.le_trans within_ fewer
  | settled => exact Nat.le_trans within_ fewer

theorem congr (delivers : Delivers bound depth read result) {read₂ : Mode → Option α}
    (same : ∀ mode, read₂ mode = read mode) : Delivers bound depth read₂ result := by
  intro mode allows within_
  rw [same]
  exact delivers mode allows within_

theorem map (delivers : Delivers bound depth read result) (f : α → β) :
    Delivers bound depth (fun mode => (read mode).map f) (result.map f) := by
  intro mode allows within_
  dsimp only
  rw [delivers mode allows within_]
  split <;> rfl

theorem enter (delivers : Delivers bound depth read result) :
    Delivers (bound + 1) (depth + 1) (fun mode => mode.enter.toOption.bind read) result := by
  intro mode allows within_
  cases mode with
  | settled => exact delivers .settled trivial (Nat.le_of_succ_le_succ within_)
  | stream limit =>
    by_cases last : limit ≤ 1
    · have refused : (Mode.stream limit).enter.toOption = none := by
        simp [Mode.enter, last, Except.toOption]
      have deep : ¬(Mode.stream limit).Allows (depth + 1) := by
        intro allowed
        have below : depth + 1 < limit := allowed
        omega
      dsimp only
      rw [refused, if_neg deep]
      rfl
    · have entered : (Mode.stream limit).enter.toOption = some (.stream (limit - 1)) := by
        simp [Mode.enter, last, Except.toOption]
      have bounded : limit - 1 ≤ bound := by
        have : limit ≤ bound + 1 := within_
        omega
      have inner := delivers (.stream (limit - 1)) (by change 0 < limit - 1; omega) bounded
      have same : (Mode.stream (limit - 1)).Allows depth ↔
          (Mode.stream limit).Allows (depth + 1) := by
        change depth < limit - 1 ↔ depth + 1 < limit
        omega
      dsimp only
      rw [entered, Option.bind_some, inner]
      simp only [same]

theorem both (first : Delivers bound depth read result)
    (second : Delivers bound depth' read' result') (f : α → β → γ) :
    Delivers bound (max depth depth')
      (fun mode => (read mode).bind fun a => (read' mode).map (f a))
      (result.bind fun a => result'.map (f a)) := by
  intro mode allows within_
  have each : mode.Within bound depth ∧ mode.Within bound depth' := by
    cases mode with
    | stream limit => exact ⟨within_, within_⟩
    | settled => exact ⟨Nat.le_trans (Nat.le_max_left _ _) within_,
        Nat.le_trans (Nat.le_max_right _ _) within_⟩
  have allowed : mode.Allows (max depth depth') ↔ mode.Allows depth ∧ mode.Allows depth' := by
    cases mode with
    | stream limit => exact Nat.max_lt
    | settled => exact ⟨fun _ => ⟨trivial, trivial⟩, fun _ => trivial⟩
  dsimp only
  rw [first mode allows each.1, second mode allows each.2]
  simp only [allowed]
  by_cases one : mode.Allows depth
  · by_cases other : mode.Allows depth'
    · simp [one, other]
    · simp [one, other]
  · simp [one]

end Delivers

def ReadsAs {α : Type} (bound : Nat) (read : Reader α) (json : Json) (result : Option α) : Prop :=
  Delivers bound json.depth (fun mode => (read mode (scanned json)).toOption) result

theorem readsAs_text (bound : Nat) (text : String) :
    ReadsAs bound Reader.text (.string text) (some text) :=
  (Delivers.value bound (some text)).congr fun _ => rfl

theorem toOption_under {α : Type} (segment : Segment) (result : Except Refusal α) :
    (Reader.under segment result).toOption = result.toOption := by
  cases result <;> rfl

section Parts

variable {α ι : Type} {bound : Nat} {read : Reader α} {toJson : ι → Json}
  {received : ι → Option α}

/-- The results of all parts, if each has one. -/
def collected (received : ι → Option α) : List ι → Option (List α)
  | [] => some []
  | i :: items => (received i).bind fun a => (collected received items).map (List.cons a)

theorem delivers_listFrom : ∀ (items : List ι),
    (∀ i ∈ items, ReadsAs bound read (toJson i) (received i)) → ∀ position,
      Delivers bound (depthOfItems (items.map toJson)) (fun mode =>
        (Reader.listFrom read mode none position (scannedItems (items.map toJson))).toOption)
        (collected received items)
  | [], _, _ => (Delivers.value bound (some [])).congr fun _ => rfl
  | i :: items, each, position => by
    have first := each i List.mem_cons_self
    have others := delivers_listFrom items (fun j member => each j (List.mem_cons_of_mem i member))
      (position + 1)
    apply (first.both others List.cons).congr
    intro mode
    rw [List.map_cons, scannedItems, Reader.listFrom, toOption_bind, toOption_under]
    congr 1
    funext a
    rw [toOption_bind]
    cases (Reader.listFrom read mode none (position + 1)
      (scannedItems (items.map toJson))).toOption <;> rfl

theorem readsAs_list (items : List ι)
    (each : ∀ i ∈ items, ReadsAs bound read (toJson i) (received i)) :
    ReadsAs (bound + 1) (Reader.list read) (.list (items.map toJson))
      (collected received items) := by
  apply (delivers_listFrom items each 0).enter.congr
  intro mode
  rw [scanned, Reader.list, toOption_bind]

theorem put_of_absent {key : String} (value : α) : ∀ {entries : List (String × α)},
    key ∉ Dictionary.keys entries → Dictionary.put entries key value = entries ++ [(key, value)]
  | [], _ => rfl
  | (other, kept) :: entries, absent => by
    have different : other ≠ key := fun same => absent (by rw [same]; exact List.mem_cons_self)
    have later : key ∉ Dictionary.keys entries := fun member =>
      absent (List.mem_cons_of_mem _ member)
    rw [Dictionary.put, if_neg different, put_of_absent value later]
    rfl

theorem toOption_entriesFrom (mode : Mode) : ∀ (members : List (String × Doc))
    (before : List (String × α)), (Dictionary.keys before ++ Dictionary.keys members).Nodup →
      (Reader.entriesFrom read mode none before
        (members.map fun member => (.ok member.1, member.2))).toOption =
        (collected (fun member : String × Doc =>
          (read mode member.2).toOption.map (Prod.mk member.1)) members).map (before ++ ·)
  | [], before, _ => by
    rw [collected, Option.map_some, List.append_nil]
    rfl
  | (key, doc) :: members, before, distinct => by
    have absent : key ∉ Dictionary.keys before := fun member =>
      (List.nodup_append.mp distinct).2.2 key member key List.mem_cons_self rfl
    rw [List.map_cons, Reader.entriesFrom, toOption_bind, toOption_under, collected]
    cases (read mode doc).toOption with
    | none => rfl
    | some value =>
      have later := toOption_entriesFrom mode members (before ++ [(key, value)]) (by
        rw [Dictionary.keys, List.map_append, List.append_assoc]
        exact distinct)
      rw [Option.bind_some, put_of_absent value absent, later, Option.map_some, Option.bind_some,
        Option.map_map]
      simp [Function.comp_def]

theorem scannedMembers_map : ∀ entries : List (String × ι),
    scannedMembers (entries.map fun entry => (entry.1, toJson entry.2)) =
      (entries.map fun entry => (entry.1, scanned (toJson entry.2))).map
        fun member => (.ok member.1, member.2)
  | [] => rfl
  | entry :: entries => by
    rw [List.map_cons, scannedMembers, scannedMembers_map entries]
    rfl

theorem delivers_entries : ∀ (entries : List (String × ι)),
    (∀ entry ∈ entries, ReadsAs bound read (toJson entry.2) (received entry.2)) →
      Delivers bound (depthOfMembers (entries.map fun entry => (entry.1, toJson entry.2)))
        (fun mode => collected (fun member : String × Doc =>
          (read mode member.2).toOption.map (Prod.mk member.1))
            (entries.map fun entry => (entry.1, scanned (toJson entry.2))))
        (collected (fun entry : String × ι => (received entry.2).map (Prod.mk entry.1)) entries)
  | [], _ => Delivers.value bound (some [])
  | entry :: entries, each => by
    have first := (each entry List.mem_cons_self).map (Prod.mk entry.1)
    have others := delivers_entries entries
      fun other member => each other (List.mem_cons_of_mem entry member)
    exact first.both others List.cons

theorem readsAs_dictionary {entries : List (String × ι)}
    (distinct : (Dictionary.keys entries).Nodup)
    (each : ∀ entry ∈ entries, ReadsAs bound read (toJson entry.2) (received entry.2)) :
    ReadsAs (bound + 1) (Reader.dictionary read)
      (.object (entries.map fun entry => (entry.1, toJson entry.2)))
      (collected (fun entry : String × ι => (received entry.2).map (Prod.mk entry.1)) entries) := by
  apply (delivers_entries entries each).enter.congr
  intro mode
  rw [scanned, Reader.dictionary, toOption_bind, scannedMembers_map]
  congr 1
  funext inner
  have same : Dictionary.keys (entries.map fun entry => (entry.1, scanned (toJson entry.2))) =
      Dictionary.keys entries := by
    rw [Dictionary.keys, List.map_map]
    rfl
  rw [toOption_entriesFrom inner _ [] (by rw [same]; exact distinct)]
  cases collected (fun member : String × Doc => (read inner member.2).toOption.map
    (Prod.mk member.1)) (entries.map fun entry => (entry.1, scanned (toJson entry.2))) <;> rfl

end Parts

/-! Reading ahead. -/

mutual

/-- All numbers of a document can be read. -/
def isSound : Json → Bool
  | .integer value => (Numeral.ofText (value < 0) (Nat.toDigits 10 value.natAbs)).isOk
  | .real (.finite negative m) => (Numeral.ofText negative (magnitudeText m).toList).isOk
  | .list items => soundItems items
  | .object members => soundMembers members
  | .null | .boolean _ | .real _ | .string _ => true

def soundItems : List Json → Bool
  | [] => true
  | item :: rest => isSound item && soundItems rest

def soundMembers : List (String × Json) → Bool
  | [] => true
  | (_, value) :: rest => isSound value && soundMembers rest

end

def whether (found : Bool) : Option Unit := if found then some () else none

theorem whether_and (a b : Bool) :
    whether (a && b) = (whether a).bind fun _ => (whether b).map fun _ => () := by
  cases a <;> cases b <;> rfl

theorem anything_numeral (mode : Mode) (value : Except Fault Numeral) :
    ((Reader.anything mode (.numeral value)).map fun _ => ()).toOption = whether value.isOk := by
  cases value with
  | error fault => rfl
  | ok numeral => cases numeral <;> rfl

mutual

theorem delivers_anything (bound : Nat) : ∀ json : Json, Delivers bound json.depth
    (fun mode => ((Reader.anything mode (scanned json)).map fun _ => ()).toOption)
    (whether (isSound json))
  | .null => (Delivers.value bound (some ())).congr fun _ => rfl
  | .boolean _ => (Delivers.value bound (some ())).congr fun _ => rfl
  | .integer value => (Delivers.value bound _).congr fun mode => anything_numeral mode _
  | .real (.finite negative m) => (Delivers.value bound _).congr fun mode => anything_numeral mode _
  | .real (.infinite _) => (Delivers.value bound (some ())).congr fun _ => rfl
  | .real .undefined => (Delivers.value bound (some ())).congr fun _ => rfl
  | .string _ => (Delivers.value bound (some ())).congr fun _ => rfl
  | .list items => by
    apply ((delivers_anythingItems bound items 0).enter.mono (Nat.le_succ bound)).congr
    intro mode
    rw [scanned, Reader.anything, toOption_map, toOption_bind]
    cases mode.enter with
    | error refusal => rfl
    | ok inner =>
      dsimp only [Except.toOption, Option.bind_some]
      cases Reader.anythingItems inner none 0 (scannedItems items) <;> rfl
  | .object members => by
    have inside := (delivers_anythingMembers bound members fun _ => []).enter
    apply (inside.mono (Nat.le_succ bound)).congr
    intro mode
    rw [scanned, Reader.anything, toOption_map, toOption_bind]
    cases mode.enter with
    | error refusal => rfl
    | ok inner =>
      dsimp only [Except.toOption, Option.bind_some]
      cases Reader.anythingMembers inner none [] (scannedMembers members) <;> rfl

theorem delivers_anythingItems (bound : Nat) : ∀ (items : List Json) (position : Nat),
    Delivers bound (depthOfItems items) (fun mode =>
      ((Reader.anythingItems mode none position (scannedItems items)).map fun _ => ()).toOption)
      (whether (soundItems items))
  | [], _ => (Delivers.value bound (some ())).congr fun _ => rfl
  | item :: items, position => by
    have first := delivers_anything bound item
    have others := delivers_anythingItems bound items (position + 1)
    rw [soundItems, whether_and]
    apply (first.both others fun _ _ => ()).congr
    intro mode
    rw [scannedItems, Reader.anythingItems]
    cases Reader.anything mode (scanned item) with
    | error refusal => rfl
    | ok value =>
      generalize Reader.anythingItems mode none (position + 1) (scannedItems items) = read
      cases read <;> rfl

theorem delivers_anythingMembers (bound : Nat) : ∀ (members : List (String × Json))
    (before : Mode → List (String × Json)), Delivers bound (depthOfMembers members) (fun mode =>
      ((Reader.anythingMembers mode none (before mode) (scannedMembers members)).map
        fun _ => ()).toOption) (whether (soundMembers members))
  | [], _ => (Delivers.value bound (some ())).congr fun _ => rfl
  | (key, value) :: members, before => by
    have first := delivers_anything bound value
    have others := delivers_anythingMembers bound members fun mode =>
      Dictionary.put (before mode) key ((Reader.anything mode (scanned value)).toOption.getD .null)
    rw [soundMembers, whether_and]
    apply (first.both others fun _ _ => ()).congr
    intro mode
    rw [scannedMembers, Reader.anythingMembers]
    cases Reader.anything mode (scanned value) with
    | error refusal => rfl
    | ok json =>
      have same : (Except.ok json : Except Refusal Json).toOption.getD .null = json := rfl
      rw [same]
      change (Except.map (fun _ => ())
        (Reader.anythingMembers mode none (Dictionary.put (before mode) key json)
          (scannedMembers members))).toOption = _
      generalize Reader.anythingMembers mode none (Dictionary.put (before mode) key json)
        (scannedMembers members) = read
      cases read <;> rfl

end

/-- The first of several readers that takes a value, provided its numbers can be read. -/
theorem readsAs_firstOf {α : Type} {bound : Nat} {json : Json} {result : Option α} (name : String)
    {readers : List (Reader α)}
    (taken : json.depth ≤ bound →
      (readers.findSome? fun read => (read .settled (scanned json)).toOption) = result)
    (sound : result.isSome = true → isSound json = true) :
    ReadsAs bound (Reader.firstOf name readers) json result := by
  have first (mode : Mode) : (Reader.firstOf name readers mode (scanned json)).toOption =
      (Reader.settle mode (scanned json)).toOption.bind fun _ =>
        readers.findSome? fun read => (read .settled (scanned json)).toOption := by
    unfold Reader.firstOf
    rw [toOption_bind]
    congr 1
    funext _
    split
    case h_1 value found => rw [found]; rfl
    case h_2 none_ => rw [none_]; rfl
  intro mode allows within_
  dsimp only
  rw [first]
  cases mode with
  | settled => exact taken within_
  | stream limit =>
    have ahead := delivers_anything bound json (.stream limit) allows within_
    dsimp only at ahead
    rw [Reader.settle, ahead]
    by_cases allowed : (Mode.stream limit).Allows json.depth
    · have bounded : json.depth ≤ bound :=
        Nat.le_of_lt (Nat.lt_of_lt_of_le (show json.depth < limit from allowed) within_)
      rw [if_pos allowed, if_pos allowed, taken bounded]
      cases result with
      | none => cases isSound json <;> rfl
      | some value => rw [sound rfl]; rfl
    · rw [if_neg allowed, if_neg allowed]
      rfl

end Wire

end DesignLink
