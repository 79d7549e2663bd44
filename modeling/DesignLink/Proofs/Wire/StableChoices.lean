import DesignLink.Proofs.Wire.StableRecords

/-!
Choices that are made again: a tag names its own reader, and of several readers the first that takes
the written value is the one that took the document.
-/

namespace DesignLink.Wire

namespace Tagged

variable {α : Type} {options : List (String × α)} {keys : Keys} {variants : List (String × Reader α)}
  {read : Reader α} {name : String} {a : α} {mode : Mode} {doc : Doc}

theorem exists_of_tag (ok : tag options mode doc = .ok a) :
    ∃ name, Dictionary.get? options name = some a := by
  unfold tag at ok
  split at ok
  case h_1 name => exact ⟨name, (lookUp_eq_ok_iff _ _ _).mp ok⟩
  case h_3 =>
    obtain ⟨_, -, ok⟩ := exists_of_bind ok
    split at ok
    case h_1 => cases ok
    case h_2 => cases ok
    case h_3 key _ _ _ =>
      obtain ⟨b, found, atEnd⟩ := exists_of_bind ok
      obtain ⟨known, -⟩ := (tagFromMember_eq_ok_iff _ _ _ _).mp found
      split at atEnd
      case h_1 =>
        cases atEnd
        exact ⟨key, known⟩
      all_goals cases atEnd
  case h_4 key _ _ => exact ⟨key, ((tagFromMember_eq_ok_iff _ _ _ _).mp ok).1⟩
  case h_8 => exact absurd ok (mismatch_ne_ok _ _ _)
  all_goals cases ok

def Next.Among (members : List (Except Fault String × Doc)) : Next → Prop
  | .finished => True
  | .tag doc rest | .content doc rest => (∃ key, (key, doc) ∈ members) ∧ rest ⊆ members

theorem among_of_next {ending : Option Fault} : ∀ {members : List (Except Fault String × Doc)}
    {found : Next}, next keys ending members = .ok found → found.Among members
  | [], found, ok => by
    cases ending with
    | none =>
      cases ok
      trivial
    | some fault => cases ok
  | (.error _, _) :: _, _, ok => nomatch ok
  | (.ok key, doc) :: rest, found, ok => by
    rw [next] at ok
    have here : (∃ other, (other, doc) ∈ (.ok key, doc) :: rest) ∧ rest ⊆ (.ok key, doc) :: rest :=
      ⟨⟨.ok key, List.mem_cons_self⟩, List.subset_cons_self _ _⟩
    split at ok
    case isTrue =>
      cases ok
      exact here
    case isFalse =>
      split at ok
      case isTrue =>
        cases ok
        exact here
      case isFalse =>
        obtain ⟨_, -, ok⟩ := exists_of_bind ok
        have later := among_of_next ok
        cases found with
        | finished => trivial
        | tag part behind =>
          obtain ⟨⟨other, member⟩, subset⟩ := later
          exact ⟨⟨other, List.mem_cons_of_mem _ member⟩, List.subset_cons_of_subset _ subset⟩
        | content part behind =>
          obtain ⟨⟨other, member⟩, subset⟩ := later
          exact ⟨⟨other, List.mem_cons_of_mem _ member⟩, List.subset_cons_of_subset _ subset⟩

/-- What a tagged value is read as is read of one of its members by the reader of some tag. The
member is either read as the members of the object are, or was read ahead. -/
theorem exists_of_fromMembers {ending : Option Fault} {members : List (Except Fault String × Doc)}
    (ok : fromMembers keys variants mode ending members = .ok a) :
    ∃ tag read key part, Dictionary.get? variants tag = some read ∧ (key, part) ∈ members ∧
      (read mode part = .ok a ∨
        Reader.settle mode part = .ok () ∧ read .settled part = .ok a) := by
  unfold fromMembers at ok
  obtain ⟨first, found, ok⟩ := exists_of_bind ok
  have among := among_of_next found
  cases first with
  | finished => cases ok
  | tag tagDoc rest =>
    obtain ⟨read, tagged, ok⟩ := exists_of_bind ok
    obtain ⟨tag, known⟩ := exists_of_tag (ok_of_mapError tagged)
    obtain ⟨second, found', ok⟩ := exists_of_bind ok
    have among' := among_of_next found'
    cases second with
    | finished => cases ok
    | tag _ _ => cases ok
    | content part _ =>
      obtain ⟨value, reads, ok⟩ := exists_of_bind ok
      obtain ⟨_, -, ok⟩ := exists_of_bind ok
      cases ok
      obtain ⟨key, member⟩ := among'.1
      exact ⟨tag, read, key, part, known, among.2 member, .inl (ok_of_mapError reads)⟩
  | content part rest =>
    obtain ⟨_, settled, ok⟩ := exists_of_bind ok
    obtain ⟨second, found', ok⟩ := exists_of_bind ok
    cases second with
    | finished => cases ok
    | content _ _ => cases ok
    | tag tagDoc _ =>
      obtain ⟨read, tagged, ok⟩ := exists_of_bind ok
      obtain ⟨tag, known⟩ := exists_of_tag (ok_of_mapError tagged)
      obtain ⟨value, reads, ok⟩ := exists_of_bind ok
      obtain ⟨_, -, ok⟩ := exists_of_bind ok
      cases ok
      obtain ⟨key, member⟩ := among.1
      exact ⟨tag, read, key, part, known, member,
        .inr ⟨ok_of_mapError settled, ok_of_mapError reads⟩⟩

theorem exists_of_adjacent (ok : adjacent name keys variants mode doc = .ok a) :
    ∃ tag read inner part, Dictionary.get? variants tag = some read ∧ read inner part = .ok a ∧
      (doc.InRange → part.InRange) ∧ inner.room part + 1 ≤ mode.room doc := by
  cases doc with
  | object members ending =>
    obtain ⟨inner, entered, ok⟩ := exists_of_bind ok
    obtain ⟨tag, read, key, part, known, member, reads⟩ := exists_of_fromMembers ok
    have inside : part.depth + 1 ≤ (Doc.object members ending).depth :=
      Nat.succ_le_succ (Doc.depth_le_of_mem_parts member)
    have inRange : (Doc.object members ending).InRange → part.InRange :=
      fun inRange => Doc.inRange_of_mem_parts inRange member
    rcases reads with reads | ⟨settled, reads⟩
    · exact ⟨tag, read, inner, part, known, reads, inRange, Mode.room_of_enter entered inside⟩
    · have ahead : Mode.settled.room part ≤ inner.room part := Reader.depth_le_of_settle settled
      exact ⟨tag, read, .settled, part, known, reads, inRange,
        Nat.le_trans (Nat.succ_le_succ ahead) (Mode.room_of_enter entered inside)⟩
  | list items ending =>
    obtain ⟨inner, entered, ok⟩ := exists_of_bind ok
    match items with
    | [] =>
      dsimp only at ok
      split at ok <;> cases ok
    | tagDoc :: rest =>
      obtain ⟨read, tagged, ok⟩ := exists_of_bind ok
      obtain ⟨tag, known⟩ := exists_of_tag (ok_of_mapError tagged)
      match rest with
      | [] =>
        dsimp only at ok
        split at ok <;> cases ok
      | part :: extra =>
        obtain ⟨value, reads, ok⟩ := exists_of_bind ok
        obtain ⟨_, -, ok⟩ := exists_of_bind ok
        cases ok
        have member : part ∈ tagDoc :: part :: extra := List.mem_cons_of_mem _ List.mem_cons_self
        exact ⟨tag, read, inner, part, known, ok_of_mapError reads,
          fun inRange => Doc.inRange_of_mem inRange member,
          Mode.room_of_enter entered (Nat.succ_le_succ (Doc.depth_le_of_mem member))⟩
  | numeral value => exact absurd ok (mismatch_ne_ok _ _ _)
  | string value => exact absurd ok (mismatch_ne_ok _ _ _)
  | null | boolean | broken => cases ok

end Tagged

section Choices

variable {α : Type} {read read' : Reader α} {toJson : α → Json} {slack bound : Nat} {json : Json}
  {a : α}

theorem kept_tag {options : List (String × α)} {name : String}
    (known : Dictionary.get? options name = some a) (bound : Nat) :
    Kept (Tagged.tag options) (.string name) a bound := by
  refine .flat rfl (fun _ => rfl) (fun _ mode => ?_) bound
  exact (Tagged.lookUp_eq_ok_iff _ _ _).mpr known

theorem stable_tag {options : List (String × α)} {tagOf : α → String}
    (known : ∀ a, Dictionary.get? options (tagOf a) = some a) :
    Stable (Tagged.tag options) (fun a => .string (tagOf a)) 0 :=
  fun _ _ _ a bound _ _ _ => kept_tag (known a) bound

theorem Kept.adjacent (kept : Kept read json a bound) (name : String) {keys : Tagged.Keys}
    (different : keys.content ≠ keys.tag) {variants : List (String × Reader α)} {tag : String}
    (known : Dictionary.get? variants tag = some read) :
    Kept (Tagged.adjacent name keys variants)
      (.object [(keys.tag, .string tag), (keys.content, json)]) a (bound + 1) where
  shallow := by
    rw [depth_both]
    exact Nat.succ_le_succ (Nat.max_le.mpr ⟨Nat.zero_le _, kept.shallow⟩)
  sound survives := by
    have inside : json.Survives :=
      survives_of_mem_members survives (List.mem_cons_of_mem _ List.mem_cons_self)
    simp [isSound, soundMembers, kept.sound inside]
  returns survives mode allows := by
    have inside : json.Survives :=
      survives_of_mem_members survives (List.mem_cons_of_mem _ List.mem_cons_self)
    rw [depth_both] at allows
    obtain ⟨inner, entered, enough⟩ := Mode.exists_enter allows
    have back := kept.returns inside inner (Mode.allows_of_le enough (Nat.le_max_right _ _))
    have read_ := adjacent_toOption name different known mode (scanned json)
    rw [entered, Except.toOption, Option.bind_some, back] at read_
    exact toOption_eq_some.mp read_

/-! The first of several readers. -/

theorem settle_scanned {mode : Mode} (sound : isSound json = true)
    (allows : mode.Allows json.depth) : Reader.settle mode (scanned json) = .ok () := by
  cases mode with
  | settled => rfl
  | stream limit =>
    have read := delivers_anything limit json (.stream limit)
      (Nat.lt_of_le_of_lt (Nat.zero_le _) allows) (Nat.le_refl limit)
    dsimp only at read
    rw [if_pos allows, sound] at read
    exact toOption_eq_some.mp read

theorem firstOf_eq_ok_iff {name : String} {readers : List (Reader α)} {mode : Mode} {doc : Doc} :
    Reader.firstOf name readers mode doc = .ok a ↔ Reader.settle mode doc = .ok () ∧
      (readers.findSome? fun read => (read .settled doc).toOption) = some a := by
  unfold Reader.firstOf
  constructor
  · intro ok
    obtain ⟨_, settled, ok⟩ := exists_of_bind ok
    split at ok
    case h_1 value found =>
      cases ok
      exact ⟨settled, found⟩
    case h_2 => cases ok
  · rintro ⟨settled, found⟩
    dsimp only
    rw [settled, ok_bind, found]

theorem Kept.firstOf {readers : List (Reader α)} (shallow : json.depth ≤ bound)
    (sound : json.Survives → isSound json = true)
    (found : json.Survives →
      (readers.findSome? fun read => (read .settled (scanned json)).toOption) = some a)
    (name : String) : Kept (Reader.firstOf name readers) json a bound where
  shallow := shallow
  sound := sound
  returns survives _ allows :=
    firstOf_eq_ok_iff.mpr ⟨settle_scanned (sound survives) allows, found survives⟩

/-- Two readers are tried again with the same result if the first refuses what was read by the
second. -/
theorem stableAt_firstOf {doc : Doc} (first : StableAt read toJson slack doc)
    (second : StableAt read' toJson slack doc)
    (apart : ∀ a, read' .settled doc = .ok a →
      (read .settled (scanned (toJson a))).toOption = none) (name : String) :
    StableAt (Reader.firstOf name [read, read']) toJson slack doc := by
  intro mode a bound ok room fits
  obtain ⟨settled, found⟩ := firstOf_eq_ok_iff.mp ok
  have inside : Mode.settled.room doc ≤ bound :=
    Nat.le_trans (Reader.depth_le_of_settle settled) room
  rw [List.findSome?_cons] at found
  cases taken : (read .settled doc).toOption with
  | some b =>
    rw [taken] at found
    cases found
    have kept := first .settled a bound (toOption_eq_some.mp taken) inside fits
    refine .firstOf kept.shallow kept.sound (fun survives => ?_) name
    rw [List.findSome?_cons, kept.returns survives .settled trivial]
    rfl
  | none =>
    rw [taken, List.findSome?_singleton] at found
    have taken' := toOption_eq_some.mp found
    have kept := second .settled a bound taken' inside fits
    refine .firstOf kept.shallow kept.sound (fun survives => ?_) name
    rw [List.findSome?_cons, apart a taken', List.findSome?_singleton,
      kept.returns survives .settled trivial]
    rfl

end Choices

end DesignLink.Wire
