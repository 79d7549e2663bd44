import DesignLink.Proofs.Wire.Stable

/-!
Records that are read again. The written record holds each field once and under its own name, so a
field finds there what it found before.
-/

namespace DesignLink.Wire

def writtenMembers (members : List (String × Json)) : List (String × Doc) :=
  members.map fun member => (member.1, scanned member.2)

theorem scannedMembers_eq (members : List (String × Json)) :
    scannedMembers members = keyed (writtenMembers members) := by
  induction members with
  | nil => rfl
  | cons member rest ih =>
    rw [scannedMembers, ih]
    rfl

namespace Record

section Finds

variable {α β σ : Type} {mode : Mode} {P : Doc → Prop}

/-- A record finds a value in an object or at the front of a list whose parts have some property. -/
def Finds (r : Record α) (mode : Mode) (P : Doc → Prop) (a : α) : Prop :=
  (∃ members, (∀ member ∈ members, P member.2) ∧ r.ofMembers mode members = some a) ∨
    ∃ items rest, (∀ item ∈ items, P item) ∧ r.ofItems mode items = some (a, rest)

theorem suffix_of_takes : ∀ {fields : List (Field σ)} {draft draft' : σ} {items rest : List Doc},
    takes fields mode draft items = some (draft', rest) → rest <:+ items
  | [], _, _, items, _, taken => by
    rw [takes_nil] at taken
    cases taken
    exact List.suffix_refl items
  | f :: fields, draft, draft', [], rest, taken => by
    rw [takes_cons_nil] at taken
    split at taken
    · cases taken
    · exact suffix_of_takes taken
  | f :: fields, draft, draft', doc :: items, rest, taken => by
    rw [takes_cons_cons] at taken
    obtain ⟨next, -, taken⟩ := Option.bind_eq_some_iff.mp taken
    exact (suffix_of_takes taken).trans (List.suffix_cons doc items)

theorem suffix_of_ofItems {r : Record α} {items rest : List Doc} {a : α}
    (found : r.ofItems mode items = some (a, rest)) : rest <:+ items := by
  obtain ⟨⟨draft, rest'⟩, taken, finished⟩ := Option.bind_eq_some_iff.mp found
  obtain ⟨a', -, same⟩ := Option.map_eq_some_iff.mp finished
  cases same
  exact suffix_of_takes taken

theorem finds_map {r : Record α} {f : α → β} {b : β} (found : (r.map f).Finds mode P b) :
    ∃ a, r.Finds mode P a ∧ f a = b := by
  rcases found with ⟨members, each, read⟩ | ⟨items, rest, each, read⟩
  · rw [ofMembers_map] at read
    obtain ⟨a, read, same⟩ := Option.map_eq_some_iff.mp read
    exact ⟨a, .inl ⟨members, each, read⟩, same⟩
  · rw [ofItems_map] at read
    obtain ⟨⟨a, rest'⟩, taken, same⟩ := Option.map_eq_some_iff.mp read
    cases same
    exact ⟨a, .inr ⟨items, rest', each, taken⟩, rfl⟩

theorem finds_both {r : Record α} {s : Record β}
    (disjoint : ∀ key ∈ allNames r.fields, key ∉ allNames s.fields) {a : α} {b : β}
    (found : (r.both s).Finds mode P (a, b)) : r.Finds mode P a ∧ s.Finds mode P b := by
  rcases found with ⟨members, each, read⟩ | ⟨items, rest, each, read⟩
  · rw [ofMembers_both disjoint] at read
    obtain ⟨a', first, read⟩ := Option.bind_eq_some_iff.mp read
    obtain ⟨b', second, same⟩ := Option.map_eq_some_iff.mp read
    cases same
    exact ⟨.inl ⟨members, each, first⟩, .inl ⟨members, each, second⟩⟩
  · rw [ofItems_both] at read
    obtain ⟨⟨a', behind⟩, first, read⟩ := Option.bind_eq_some_iff.mp read
    obtain ⟨⟨b', rest'⟩, second, same⟩ := Option.map_eq_some_iff.mp read
    cases same
    have among := (suffix_of_ofItems first).subset
    exact ⟨.inr ⟨items, behind, each, first⟩,
      .inr ⟨behind, rest', fun item member => each item (among member), second⟩⟩

theorem finds_field {name : String} {aliases : List String} {isRequired : Bool}
    {absent : Except Cause α} {read : Reader α} {a : α}
    (found : (field name aliases isRequired absent read).Finds mode P a) :
    (∃ part, P part ∧ read mode part = .ok a) ∨ absent = .ok a := by
  rcases found with ⟨members, each, found⟩ | ⟨items, rest, each, found⟩
  · rw [ofMembers_field] at found
    cases parts : partsUnder (name :: aliases) members with
    | nil =>
      rw [parts] at found
      exact .inr (toOption_eq_some.mp found)
    | cons part others =>
      have member : part ∈ partsUnder (name :: aliases) members := by
        rw [parts]
        exact List.mem_cons_self
      obtain ⟨⟨key, _⟩, among, rfl⟩ := List.mem_map.mp member
      rw [parts] at found
      cases others with
      | nil => exact .inl ⟨_, each _ (List.mem_filter.mp among).1, toOption_eq_some.mp found⟩
      | cons other others => cases found
  · rw [ofItems_field] at found
    cases items with
    | nil =>
      dsimp only at found
      split at found
      · cases found
      · obtain ⟨_, stands, same⟩ := Option.map_eq_some_iff.mp found
        cases same
        exact .inr (toOption_eq_some.mp stands)
    | cons part items =>
      obtain ⟨_, read, same⟩ := Option.map_eq_some_iff.mp found
      cases same
      exact .inl ⟨part, each part List.mem_cons_self, toOption_eq_some.mp read⟩

end Finds

section Kept

variable {α β : Type} {bound : Nat} {members others : List (String × Json)} {a : α} {b : β}
  {r : Record α} {s : Record β}

/-- A value that a record finds in its written members, whatever stands around that is not known. -/
structure KeptIn (r : Record α) (members : List (String × Json)) (a : α) (bound : Nat) : Prop where
  known : ∀ member ∈ members, member.1 ∈ allNames r.fields
  shallow : ∀ member ∈ members, member.2.depth ≤ bound
  sound : ∀ member ∈ members, member.2.Survives → isSound member.2 = true
  returns : (∀ member ∈ members, member.2.Survives) → ∀ mode : Mode,
    (∀ member ∈ members, mode.Allows member.2.depth) → ∀ all : List (String × Doc),
      (all.filter fun member => member.1 ∈ allNames r.fields) = writtenMembers members →
        r.ofMembers mode all = some a

theorem KeptIn.map (kept : r.KeptIn members a bound) (f : α → β) :
    (r.map f).KeptIn members (f a) bound where
  known := kept.known
  shallow := kept.shallow
  sound := kept.sound
  returns survives mode allows all written := by
    rw [ofMembers_map, kept.returns survives mode allows all written]
    rfl

theorem allNames_both (r : Record α) (s : Record β) :
    allNames (r.both s).fields = allNames r.fields ++ allNames s.fields := by
  simp only [allNames, both, List.flatMap_append, List.flatMap_map]
  rfl

theorem filter_of_subset {names wider : List String} (subset : names ⊆ wider)
    (all : List (String × Doc)) :
    ((all.filter fun member => member.1 ∈ wider).filter fun member => member.1 ∈ names) =
      all.filter fun member => member.1 ∈ names := by
  rw [List.filter_filter]
  refine List.filter_congr fun member _ => ?_
  by_cases known : member.1 ∈ names
  · simp [known, subset known]
  · simp [known]

theorem KeptIn.filter_written (kept : r.KeptIn members a bound) :
    ((writtenMembers members).filter fun member => member.1 ∈ allNames r.fields) =
      writtenMembers members := by
  rw [List.filter_eq_self]
  intro member among
  obtain ⟨written, inside, rfl⟩ := List.mem_map.mp among
  exact decide_eq_true (kept.known written inside)

theorem KeptIn.filter_foreign (kept : s.KeptIn others b bound)
    (disjoint : ∀ key ∈ allNames r.fields, key ∉ allNames s.fields) :
    ((writtenMembers others).filter fun member => member.1 ∈ allNames r.fields) = [] := by
  rw [List.filter_eq_nil_iff]
  intro member among isKnown
  obtain ⟨written, inside, rfl⟩ := List.mem_map.mp among
  exact disjoint _ (of_decide_eq_true isKnown) (kept.known written inside)

theorem KeptIn.both (kept : r.KeptIn members a bound) (kept' : s.KeptIn others b bound)
    (disjoint : ∀ key ∈ allNames r.fields, key ∉ allNames s.fields) :
    (r.both s).KeptIn (members ++ others) (a, b) bound where
  known := by
    rw [allNames_both]
    exact List.forall_mem_append.mpr
      ⟨fun member among => List.mem_append_left _ (kept.known member among),
        fun member among => List.mem_append_right _ (kept'.known member among)⟩
  shallow := List.forall_mem_append.mpr ⟨kept.shallow, kept'.shallow⟩
  sound := List.forall_mem_append.mpr ⟨kept.sound, kept'.sound⟩
  returns survives mode allows all written := by
    obtain ⟨survives, survives'⟩ := List.forall_mem_append.mp survives
    obtain ⟨allows, allows'⟩ := List.forall_mem_append.mp allows
    have apart : ∀ key ∈ allNames s.fields, key ∉ allNames r.fields :=
      fun key known foreign => disjoint key foreign known
    have parts : writtenMembers (members ++ others) =
        writtenMembers members ++ writtenMembers others := List.map_append
    rw [allNames_both] at written
    have first : (all.filter fun member => member.1 ∈ allNames r.fields) =
        writtenMembers members := by
      rw [← filter_of_subset (List.subset_append_left _ (allNames s.fields)), written, parts,
        List.filter_append, kept.filter_written, kept'.filter_foreign disjoint, List.append_nil]
    have second : (all.filter fun member => member.1 ∈ allNames s.fields) =
        writtenMembers others := by
      rw [← filter_of_subset (List.subset_append_right (allNames r.fields) _), written, parts,
        List.filter_append, kept'.filter_written, kept.filter_foreign apart, List.nil_append]
    rw [ofMembers_both disjoint, kept.returns survives mode allows all first,
      kept'.returns survives' mode allows' all second]
    rfl

section Field

variable {name : String} {aliases : List String} {isRequired : Bool} {absent : Except Cause α}
  {read : Reader α} {json : Json}

theorem allNames_field : allNames (field name aliases isRequired absent read).fields =
    name :: aliases := by
  simp [allNames, field, Field.names]

theorem KeptIn.given (kept : Kept read json a bound) :
    (field name aliases isRequired absent read).KeptIn [(name, json)] a bound where
  known := by
    rw [allNames_field]
    exact List.forall_mem_singleton.mpr List.mem_cons_self
  shallow := List.forall_mem_singleton.mpr kept.shallow
  sound := List.forall_mem_singleton.mpr kept.sound
  returns survives mode allows all written := by
    rw [allNames_field] at written
    have parts : partsUnder (name :: aliases) all = [scanned json] := by
      rw [partsUnder, written]
      rfl
    have back := kept.returns (survives _ List.mem_cons_self) mode (allows _ List.mem_cons_self)
    rw [ofMembers_field, parts, single, back]
    rfl

theorem KeptIn.unwritten (stands : absent = .ok a) (bound : Nat) :
    (field name aliases isRequired absent read).KeptIn [] a bound where
  known := nofun
  shallow := nofun
  sound := nofun
  returns _ mode _ all written := by
    rw [allNames_field] at written
    have parts : partsUnder (name :: aliases) all = [] := by
      rw [partsUnder, written]
      rfl
    rw [ofMembers_field, parts, single, stands]
    rfl

end Field

theorem KeptIn.read (kept : r.KeptIn members a bound) (name : String) :
    Kept (r.read name) (.object members) a (bound + 1) where
  shallow := by
    rw [Json.depth]
    exact Nat.succ_le_succ (depthOfMembers_le.mpr kept.shallow)
  sound survives := by
    rw [isSound, soundMembers_iff]
    exact fun member among => kept.sound member among (survives_of_mem_members survives among)
  returns survives mode allows := by
    obtain ⟨inner, entered, enough⟩ := Mode.exists_enter allows
    have inside : ∀ member ∈ members, inner.Allows member.2.depth := fun member among =>
      Mode.allows_of_le enough (depthOfMembers_le.mp (Nat.le_refl _) member among)
    refine (read_eq_ok_iff _ _ _ _ _).mpr ⟨inner, entered, .inl ⟨writtenMembers members, ?_, ?_⟩⟩
    · rw [scanned, scannedMembers_eq]
    · exact kept.returns (fun member among => survives_of_mem_members survives among) inner inside
        (writtenMembers members) kept.filter_written

end Kept

section Stable

variable {α β : Type} {toMembers : α → List (String × Json)} {toMembers' : β → List (String × Json)}
  {slack slack' least : Nat} {r : Record α} {s : Record β}

def Stable (r : Record α) (toMembers : α → List (String × Json)) (slack : Nat) : Prop :=
  ∀ (mode : Mode) (a : α) (bound : Nat),
    r.Finds mode (fun part => part.InRange ∧ mode.room part ≤ bound) a → slack ≤ bound →
      r.KeptIn (toMembers a) a bound

theorem Stable.both (stable : r.Stable toMembers slack) (stable' : s.Stable toMembers' slack')
    (disjoint : ∀ key ∈ allNames r.fields, key ∉ allNames s.fields) :
    (r.both s).Stable (fun pair => toMembers pair.1 ++ toMembers' pair.2) (max slack slack') := by
  rintro mode ⟨a, b⟩ bound found fits
  obtain ⟨first, second⟩ := finds_both disjoint found
  exact (stable mode a bound first (Nat.le_trans (Nat.le_max_left _ _) fits)).both
    (stable' mode b bound second (Nat.le_trans (Nat.le_max_right _ _) fits)) disjoint

theorem Stable.map (stable : r.Stable toMembers slack) {f : α → β}
    (same : ∀ a, toMembers' (f a) = toMembers a) : (r.map f).Stable toMembers' slack := by
  intro mode b bound found fits
  obtain ⟨a, found', rfl⟩ := finds_map found
  rw [same]
  exact (stable mode a bound found' fits).map f

theorem Stable.read (stable : r.Stable toMembers slack) (name : String)
    (less : slack ≤ slack' - 1) :
    Wire.Stable (r.read name) (fun a => .object (toMembers a)) slack' := by
  intro doc inRange mode a bound ok room fits
  obtain ⟨inner, entered, shape⟩ := (read_eq_ok_iff _ _ _ _ _).mp ok
  have container : 1 ≤ doc.depth := by
    rcases shape with ⟨members, rfl, -⟩ | ⟨items, rfl, -⟩
    · exact Nat.le_add_left 1 _
    · exact Nat.le_add_left 1 _
  obtain ⟨bound, rfl⟩ := Mode.exists_bound entered container room
  have found : r.Finds inner (fun part => part.InRange ∧ inner.room part ≤ bound) a := by
    rcases shape with ⟨members, rfl, read⟩ | ⟨items, rfl, read⟩
    · refine .inl ⟨members, fun member among => ?_, read⟩
      have among_ : (.ok member.1, member.2) ∈ keyed members := List.mem_map_of_mem among
      have inside : inner.room member.2 + 1 ≤ mode.room (.object (keyed members) none) :=
        Mode.room_of_enter entered (Nat.succ_le_succ (Doc.depth_le_of_mem_parts among_))
      exact ⟨Doc.inRange_of_mem_parts inRange among_, by omega⟩
    · refine .inr ⟨items, [], fun item among => ?_, read⟩
      have inside : inner.room item + 1 ≤ mode.room (.list items none) :=
        Mode.room_of_enter entered (Nat.succ_le_succ (Doc.depth_le_of_mem among))
      exact ⟨Doc.inRange_of_mem inRange among, by omega⟩
  exact (stable inner a bound found (by omega)).read name

section Field

variable {read : Reader α} {toJson : α → Json}

theorem stable_requiredAs (stable : Wire.Stable read toJson slack) (name : String)
    (aliases : List String) :
    (requiredAs name aliases read).Stable (fun a => [(name, toJson a)]) slack := by
  intro mode a bound found fits
  rcases finds_field found with ⟨part, ⟨inRange, room⟩, read⟩ | absent
  · exact .given (stable part inRange mode a bound read room fits)
  · cases absent

theorem stable_required (stable : Wire.Stable read toJson slack) (name : String) :
    (required name read).Stable (fun a => [(name, toJson a)]) slack :=
  stable_requiredAs stable name []

theorem stable_defaulted (stable : Wire.Stable read toJson slack) (name : String) {default : α}
    (kept : Kept read (toJson default) default least) :
    (defaulted name default read).Stable (fun a => [(name, toJson a)]) (max slack least) := by
  intro mode a bound found fits
  obtain ⟨fits, enough⟩ := Nat.max_le.mp fits
  rcases finds_field found with ⟨part, ⟨inRange, room⟩, read⟩ | absent
  · exact .given (stable part inRange mode a bound read room fits)
  · cases absent
    exact .given (kept.mono enough)

theorem stable_omitted (stable : Wire.Stable read toJson slack) (name : String) {default : α}
    (left : ∀ a, a ≠ default ∧ toMembers a = [(name, toJson a)] ∨
      a = default ∧ toMembers a = []) :
    (defaulted name default read).Stable toMembers slack := by
  intro mode a bound found fits
  rcases left a with ⟨other, written⟩ | ⟨rfl, written⟩
  · rw [written]
    rcases finds_field found with ⟨part, ⟨inRange, room⟩, read⟩ | absent
    · exact .given (stable part inRange mode a bound read room fits)
    · cases absent
      exact absurd rfl other
  · rw [written]
    exact .unwritten rfl bound

theorem optional_eq_ok {mode : Mode} {doc : Doc} {found : Option α}
    (ok : Reader.optional read mode doc = .ok found) :
    found = none ∨ ∃ a, found = some a ∧ read mode doc = .ok a := by
  unfold Reader.optional at ok
  split at ok
  case h_1 =>
    cases ok
    exact .inl rfl
  case h_2 =>
    obtain ⟨a, read, rfl⟩ := exists_of_map ok
    exact .inr ⟨a, rfl, read⟩

theorem kept_optional {json : Json} {a : α} {bound : Nat} (kept : Kept read json a bound)
    (present : scanned json ≠ .null) : Kept (Reader.optional read) json (some a) bound := by
  refine (kept.map some).congr fun mode => ?_
  unfold Reader.optional
  split
  case h_1 same => exact absurd same present
  case h_2 => rfl

theorem stable_optionalAs (stable : Wire.Stable read toJson slack) (name : String)
    (aliases : List String) (present : ∀ a, scanned (toJson a) ≠ .null) :
    (optionalAs name aliases read).Stable (Json.given name toJson) slack := by
  intro mode a bound found fits
  have nothing : (optionalAs name aliases read).KeptIn [] none bound := .unwritten rfl bound
  rcases finds_field found with ⟨part, ⟨inRange, room⟩, read⟩ | absent
  · rcases optional_eq_ok read with rfl | ⟨a, rfl, read'⟩
    · exact nothing
    · exact .given (kept_optional (stable part inRange mode a bound read' room fits) (present a))
  · cases absent
    exact nothing

theorem stable_optional (stable : Wire.Stable read toJson slack) (name : String)
    (present : ∀ a, scanned (toJson a) ≠ .null) :
    (optional name read).Stable (Json.given name toJson) slack :=
  stable_optionalAs stable name [] present

end Field

end Stable

end Record

end DesignLink.Wire
