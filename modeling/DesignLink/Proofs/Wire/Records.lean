import DesignLink.Proofs.Wire.Reading
import DesignLink.Wire.Tagged

/-!
Reading records and tagged values as they are written: every field once and in order, the tag before
the content.
-/

namespace DesignLink.Wire

theorem adjacent_toOption {α : Type} (name : String) {keys : Tagged.Keys}
    (different : keys.content ≠ keys.tag) {variants : List (String × Reader α)} {tag : String}
    {read : Reader α} (found : Dictionary.get? variants tag = some read) (mode : Mode) (doc : Doc) :
    (Tagged.adjacent name keys variants mode
      (.object [(.ok keys.tag, .string (.ok tag)), (.ok keys.content, doc)] none)).toOption =
      mode.enter.toOption.bind fun inner => (read inner doc).toOption := by
  have first : Tagged.next keys none
      [(.ok keys.tag, .string (.ok tag)), (.ok keys.content, doc)] =
        .ok (.tag (.string (.ok tag)) [(.ok keys.content, doc)]) := by
    simp [Tagged.next]
  have second : Tagged.next keys none [(.ok keys.content, doc)] = .ok (.content doc []) := by
    simp [Tagged.next, different]
  have looked (inner : Mode) : Tagged.tag variants inner (.string (.ok tag)) = .ok read := by
    simp [Tagged.tag, Tagged.lookUp, found]
  unfold Tagged.adjacent
  rw [toOption_bind]
  congr 1
  funext inner
  unfold Tagged.fromMembers
  rw [first, ok_bind]
  dsimp only
  rw [looked]
  change (Tagged.next keys none [(.ok keys.content, doc)] >>= _).toOption = _
  rw [second, ok_bind]
  dsimp only
  cases read inner doc <;> rfl

theorem adjacent_none {α : Type} (name : String) {keys : Tagged.Keys}
    {variants : List (String × Reader α)} (mode : Mode) {members : List (String × Doc)}
    (noTag : ∀ member ∈ members, member.1 ≠ keys.tag ∧ member.1 ≠ keys.content) :
    (Tagged.adjacent name keys variants mode
      (.object (members.map fun member => (.ok member.1, member.2)) none)).toOption = none := by
  have finished : Tagged.next keys none (members.map fun member => (.ok member.1, member.2)) =
      .ok .finished := by
    induction members with
    | nil => rfl
    | cons member members ih =>
      obtain ⟨tag, content⟩ := noTag member List.mem_cons_self
      have later := ih fun other among => noTag other (List.mem_cons_of_mem member among)
      rw [List.map_cons, Tagged.next, if_neg tag, if_neg content]
      have skipped : Record.skip member.1 none member.2
          (members.map fun member => (.ok member.1, member.2)) = .ok () := by
        cases members <;> rfl
      rw [skipped, ok_bind, later]
  unfold Tagged.adjacent
  rw [toOption_bind]
  unfold Tagged.fromMembers
  rw [finished]
  cases mode.enter <;> rfl

section Records

variable {α β γ : Type} (name : String) (mode : Mode)

theorem record_single (key : String) (read : Reader α) (f : α → β) (doc : Doc) :
    (Record.read name ((Record.required key read).map f) mode
      (.object [(.ok key, doc)] none)).toOption =
      mode.enter.toOption.bind fun inner => (read inner doc).toOption.map f := by
  unfold Record.read
  rw [toOption_bind]
  congr 1
  funext inner
  simp only [Record.fromMembers, Record.map, Record.required, Record.requiredAs, Record.field,
    Field.answersTo, List.find?_cons, beq_self_eq_true, Bool.true_or]
  cases read inner doc <;> rfl

theorem record_both {key key' : String} (different : key ≠ key') (read : Reader α)
    (read' : Reader β) (isRequired : Bool) (absent : Except Cause β) (f : α × β → γ)
    (doc doc' : Doc) :
    (Record.read name (((Record.required key read).both
        (.field key' [] isRequired absent read')).map f) mode
      (.object [(.ok key, doc), (.ok key', doc')] none)).toOption =
      mode.enter.toOption.bind fun inner => (read inner doc).toOption.bind fun a =>
        (read' inner doc').toOption.map fun b => f (a, b) := by
  unfold Record.read
  rw [toOption_bind]
  congr 1
  funext inner
  simp only [Record.fromMembers, Record.map, Record.both, Record.required, Record.requiredAs,
    Record.field, Field.answersTo, Field.onFirst, Field.onSecond, List.map_cons, List.map_nil,
    List.cons_append, List.nil_append, List.find?_cons, beq_self_eq_true, Bool.true_or,
    beq_eq_false_iff_ne.mpr different, List.contains_nil, Bool.or_self]
  cases read inner doc with
  | error e => rfl
  | ok a => cases read' inner doc' <;> rfl

theorem record_absent (key key' : String) (read : Reader α) (read' : Reader β) (default : β)
    (f : α × β → γ) (doc : Doc) :
    (Record.read name (((Record.required key read).both
        (.field key' [] false (.ok default) read')).map f) mode
      (.object [(.ok key, doc)] none)).toOption =
      mode.enter.toOption.bind fun inner =>
        (read inner doc).toOption.map fun a => f (a, default) := by
  unfold Record.read
  rw [toOption_bind]
  congr 1
  funext inner
  simp only [Record.fromMembers, Record.map, Record.both, Record.required, Record.requiredAs,
    Record.field, Field.answersTo, Field.onFirst, Field.onSecond, List.map_cons, List.map_nil,
    List.cons_append, List.nil_append, List.find?_cons, beq_self_eq_true, Bool.true_or]
  cases read inner doc <;> rfl

end Records

section Parts

variable {α β γ : Type} {bound : Nat} {read : Reader α} {read' : Reader β} {json json' : Json}
  {result : Option α} {result' : Option β}

theorem readsAs_zero (read : Reader α) (members : List (String × Json)) (result : Option α) :
    ReadsAs 0 read (.object members) result := by
  intro mode allows within_
  cases mode with
  | stream limit => exact absurd (Nat.lt_of_lt_of_le allows within_) (Nat.lt_irrefl 0)
  | settled => exact absurd within_ (Nat.not_succ_le_zero _)

theorem depth_single (key : String) (json : Json) :
    (Json.object [(key, json)]).depth = json.depth + 1 := by
  rw [Json.depth, depthOfMembers, depthOfMembers, Nat.max_zero]

theorem depth_both (key key' : String) (json json' : Json) :
    (Json.object [(key, json), (key', json')]).depth = max json.depth json'.depth + 1 := by
  rw [Json.depth, depthOfMembers, depthOfMembers, depthOfMembers, Nat.max_zero]

theorem readsAs_adjacent (name : String) {keys : Tagged.Keys} (different : keys.content ≠ keys.tag)
    {variants : List (String × Reader α)} {tag : String}
    (found : Dictionary.get? variants tag = some read) (reads : ReadsAs bound read json result) :
    ReadsAs (bound + 1) (Tagged.adjacent name keys variants)
      (.object [(keys.tag, .string tag), (keys.content, json)]) result := by
  unfold ReadsAs
  have depth : (Json.string tag).depth = 0 := rfl
  rw [depth_both, depth, Nat.zero_max]
  exact reads.enter.congr fun mode => adjacent_toOption name different found mode (scanned json)

theorem readsAs_single (name key : String) (reads : ReadsAs bound read json result) (f : α → β) :
    ReadsAs (bound + 1) (Record.read name ((Record.required key read).map f))
      (.object [(key, json)]) (result.map f) := by
  unfold ReadsAs
  rw [depth_single]
  exact (reads.map f).enter.congr fun mode => record_single name mode key read f (scanned json)

theorem readsAs_absent (name key key' : String) (reads : ReadsAs bound read json result)
    (read' : Reader β) (default : β) (f : α × β → γ) :
    ReadsAs (bound + 1) (Record.read name
        (((Record.required key read).both (.field key' [] false (.ok default) read')).map f))
      (.object [(key, json)]) (result.map fun a => f (a, default)) := by
  unfold ReadsAs
  rw [depth_single]
  exact (reads.map fun a => f (a, default)).enter.congr fun mode =>
    record_absent name mode key key' read read' default f (scanned json)

theorem readsAs_both (name : String) {key key' : String} (different : key ≠ key')
    (reads : ReadsAs bound read json result) (reads' : ReadsAs bound read' json' result')
    (isRequired : Bool) (absent : Except Cause β) (f : α × β → γ) :
    ReadsAs (bound + 1) (Record.read name
        (((Record.required key read).both (.field key' [] isRequired absent read')).map f))
      (.object [(key, json), (key', json')])
      (result.bind fun a => result'.map fun b => f (a, b)) := by
  unfold ReadsAs
  rw [depth_both]
  exact (Delivers.both reads reads' fun a b => f (a, b)).enter.congr fun mode =>
    record_both name mode different read read' isRequired absent f (scanned json) (scanned json')

theorem readsAs_optional (present : scanned json ≠ .null) (reads : ReadsAs bound read json result) :
    ReadsAs bound (Reader.optional read) json (result.map some) := by
  apply (reads.map some).congr
  intro mode
  have given : Reader.optional read mode (scanned json) = (read mode (scanned json)).map some := by
    unfold Reader.optional
    split
    case h_1 same => exact absurd same present
    case h_2 => rfl
  rw [given, toOption_map]

end Parts

end DesignLink.Wire
