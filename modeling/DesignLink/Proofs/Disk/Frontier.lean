import DesignLink.Proofs.Disk.Making

/-!
Directories one in the other, on any disk. The first of them that does not wait for the one around
it decides: it is made and what waits for it after it, it is there, or nothing changes.
-/

namespace DesignLink

namespace Path

theorem way_cases (path : String) : way path = start path ∨
    (∃ front, way path = front ++ [.up]) ∨ ∃ front text, way path = front ++ [.name text] := by
  rw [way_eq]
  rcases List.eq_nil_or_concat' (stepPieces (pieces path.toList)) with nothing | ⟨front, last, shape⟩
  · rw [nothing, List.append_nil]
    exact .inl rfl
  · rw [shape, ← List.append_assoc]
    have among : last ∈ stepPieces (pieces path.toList) := by
      rw [shape]
      exact List.mem_append_right front (List.mem_singleton_self last)
    obtain ⟨piece, -, isStep⟩ := List.mem_filterMap.mp among
    unfold Component.ofPiece? at isStep
    split_ifs at isStep
    case pos =>
      obtain rfl := Option.some.inj isStep
      exact .inr (.inl ⟨_, rfl⟩)
    case neg =>
      obtain rfl := Option.some.inj isStep
      exact .inr (.inr ⟨_, _, rfl⟩)

theorem refusal?_ne_notFound {path : String} (nonempty : path ≠ "") :
    refusal? path ≠ some .notFound := by
  unfold refusal?
  split_ifs with nul empty
  · decide
  · exact absurd (String.isEmpty_iff.mp empty) nonempty
  · decide
  · decide

end Path

namespace Disk

variable {disk disk' after : Disk} {path : String} {paths outer : List String} {base : Place}
  {left : Nat} {cause : DiskError}

/-- The first of some directories, each of which is in the next one, that does not wait for the
next one to be made. -/
def frontier? (disk : Disk) : List String → Option String
  | [] => none
  | path :: outer =>
    if path.isEmpty then none
    else
      match disk.makeDirectory path with
      | .error .notFound => disk.frontier? outer
      | _ => some path

/-- The first directory that waits for no other one is missing and can be made. -/
def Opens (disk : Disk) (paths : List String) : Prop :=
  ∃ path after, disk.frontier? paths = some path ∧ disk.makeDirectory path = .ok after

/-- Something else is where the first directory is to be that waits for no other one. -/
def IsBarred (disk : Disk) (paths : List String) : Prop :=
  ∃ path, disk.frontier? paths = some path ∧
    disk.makeDirectory path = .error .alreadyExists ∧ disk.isDirectory path = false

/-- The induction of `ensureNested`: the directories around matter to one that waits for them. -/
theorem nested_induction (disk : Disk) {motive : List String → Prop} (nil : motive [])
    (start : ∀ outer, motive ("" :: outer))
    (missing : ∀ path outer, path ≠ "" → disk.makeDirectory path = .error .notFound →
      motive outer → motive (path :: outer))
    (found : ∀ path outer, path ≠ "" → disk.makeDirectory path ≠ .error .notFound →
      motive (path :: outer)) (paths : List String) : motive paths := by
  induction paths with
  | nil => exact nil
  | cons path outer ih =>
    by_cases empty : path = ""
    · rw [empty]
      exact start outer
    · by_cases waits : disk.makeDirectory path = .error .notFound
      · exact missing path outer empty waits ih
      · exact found path outer empty waits

theorem not_opens_of_none (nothing : disk.frontier? paths = none) : ¬ disk.Opens paths := by
  intro opens
  obtain ⟨path, after, frontier, -⟩ := opens
  rw [nothing] at frontier
  cases frontier

theorem not_isBarred_of_none (nothing : disk.frontier? paths = none) : ¬ disk.IsBarred paths := by
  intro barred
  obtain ⟨path, frontier, -⟩ := barred
  rw [nothing] at frontier
  cases frontier

theorem frontier?_of_missing (missing : disk.makeDirectory path = .error .notFound)
    (nonempty : path ≠ "") : disk.frontier? (path :: outer) = disk.frontier? outer := by
  rw [frontier?, if_neg (by simpa using nonempty), missing]

theorem frontier?_of_found (found : disk.makeDirectory path ≠ .error .notFound)
    (nonempty : path ≠ "") : disk.frontier? (path :: outer) = some path := by
  rw [frontier?, if_neg (by simpa using nonempty)]
  split
  case h_1 missing => exact absurd missing found
  case h_2 => rfl

theorem opens_iff_of_missing (missing : disk.makeDirectory path = .error .notFound)
    (nonempty : path ≠ "") : disk.Opens (path :: outer) ↔ disk.Opens outer := by
  unfold Opens
  rw [frontier?_of_missing missing nonempty]

theorem isBarred_iff_of_missing (missing : disk.makeDirectory path = .error .notFound)
    (nonempty : path ≠ "") : disk.IsBarred (path :: outer) ↔ disk.IsBarred outer := by
  unfold IsBarred
  rw [frontier?_of_missing missing nonempty]

theorem isBarred_iff_of_found (found : disk.makeDirectory path ≠ .error .notFound)
    (nonempty : path ≠ "") : disk.IsBarred (path :: outer) ↔
      disk.makeDirectory path = .error .alreadyExists ∧ disk.isDirectory path = false := by
  unfold IsBarred
  rw [frontier?_of_found found nonempty]
  simp

theorem opens_iff_of_found (found : disk.makeDirectory path ≠ .error .notFound)
    (nonempty : path ≠ "") :
    disk.Opens (path :: outer) ↔ ∃ after, disk.makeDirectory path = .ok after := by
  unfold Opens
  rw [frontier?_of_found found nonempty]
  simp

/-! The disk behind it. -/

theorem builds_settle (disk : Disk) (path : String) :
    disk.Builds (disk.settle (disk.ensureDirectory path)).2 := by
  cases made : disk.makeDirectory path with
  | ok after =>
    rw [ensureDirectory_of_made made]
    exact .single ⟨path, made⟩
  | error cause =>
    rw [ensureDirectory_of_not_made made]
    split <;> exact .refl

/-- A disk that grows by directories alone. -/
structure AddsFolders (old new : Disk) : Prop extends old.GrowsEmpty new where
  kinds : ∀ place, new.tree.kindAt place = old.tree.kindAt place ∨
    old.tree.kindAt place = none ∧ new.tree.kindAt place = some .directory

theorem Makes.addsFolders (makes : disk.Makes disk' base) : disk.AddsFolders disk' where
  toGrowsEmpty := makes.toGrowsEmpty
  kinds := by
    intro place
    rw [makes.kinds]
    split_ifs with same
    · exact .inr ⟨by rw [same, makes.absent], rfl⟩
    · exact .inl rfl

theorem AddsFolders.trans {a b c : Disk} (first : a.AddsFolders b) (second : b.AddsFolders c) :
    a.AddsFolders c where
  toGrowsEmpty := first.toGrowsEmpty.trans second.toGrowsEmpty
  kinds := by
    intro place
    rcases second.kinds place with same | ⟨absent, isDirectory⟩
    · rw [same]
      exact first.kinds place
    · rcases first.kinds place with same | ⟨-, present⟩
      · exact .inr ⟨by rw [← same, absent], isDirectory⟩
      · rw [absent] at present
        cases present

theorem Builds.addsFolders (isRooted : disk.IsRooted) (builds : disk.Builds after) :
    disk.AddsFolders after := by
  induction builds with
  | refl => exact ⟨.refl disk, fun place => .inl rfl⟩
  | tail _ step ih =>
    obtain ⟨path, made⟩ := step
    obtain ⟨base, left, makes, -⟩ := exists_makes (ih.toGrows.isRooted isRooted) made
    exact ih.trans makes.addsFolders

theorem settle_of_not_made (refused : disk.makeDirectory path = .error cause) :
    (disk.settle (disk.ensureDirectory path)).2 = disk := by
  rw [ensureDirectory_of_not_made refused]
  split <;> rfl

theorem ensureNested_of_not_opens (paths : List String) (closed : ¬ disk.Opens paths) :
    (disk.ensureNested paths).2 = disk := by
  induction paths using nested_induction disk with
  | nil => rfl
  | start outer => rfl
  | missing path outer nonempty waits ih =>
    rw [opens_iff_of_missing waits nonempty] at closed
    have around := ih closed
    rcases nested : disk.ensureNested outer with ⟨result, after⟩
    rw [nested] at around
    obtain rfl : after = disk := around
    cases result with
    | error cause => rw [ensureNested_of_stuck nonempty waits nested]
    | ok =>
      rw [ensureNested_of_missing nonempty waits nested]
      exact settle_of_not_made waits
  | found path outer nonempty found =>
    rw [opens_iff_of_found found nonempty] at closed
    rw [ensureNested_of_found nonempty found]
    cases made : disk.makeDirectory path with
    | ok after => exact absurd ⟨after, made⟩ closed
    | error cause => exact settle_of_not_made made

theorem exists_new_of_opens (isRooted : disk.IsRooted) (paths : List String)
    (opens : disk.Opens paths) : ∃ place, disk.tree.kindAt place = none ∧
      (disk.ensureNested paths).2.tree.kindAt place = some .directory := by
  induction paths using nested_induction disk with
  | nil => exact absurd opens (not_opens_of_none rfl)
  | start outer => exact absurd opens (not_opens_of_none rfl)
  | missing path outer nonempty waits ih =>
    rw [opens_iff_of_missing waits nonempty] at opens
    obtain ⟨place, absent, new⟩ := ih opens
    refine ⟨place, absent, ?_⟩
    have around := ((disk.builds_ensureNested outer).addsFolders isRooted).toGrows
    rcases nested : disk.ensureNested outer with ⟨result, after⟩
    rw [nested] at around new
    cases result with
    | error cause =>
      rw [ensureNested_of_stuck nonempty waits nested]
      exact new
    | ok =>
      rw [ensureNested_of_missing nonempty waits nested]
      have later := (after.builds_settle path).addsFolders (around.isRooted isRooted)
      rcases later.kinds place with same | ⟨absent', -⟩
      · exact same.trans new
      · rw [absent'] at new
        cases new
  | found path outer nonempty found =>
    obtain ⟨after, made⟩ := (opens_iff_of_found found nonempty).mp opens
    obtain ⟨base, left, makes, -⟩ := exists_makes isRooted made
    refine ⟨base, makes.absent, ?_⟩
    rw [ensureNested_of_found nonempty found, ensureDirectory_of_made made, settle, makes.kinds,
      if_pos rfl]

theorem ensureNested_unchanged_iff (isRooted : disk.IsRooted) (paths : List String) :
    (disk.ensureNested paths).2 = disk ↔ ¬ disk.Opens paths := by
  refine ⟨fun same opens => ?_, ensureNested_of_not_opens paths⟩
  obtain ⟨place, absent, new⟩ := exists_new_of_opens isRooted paths opens
  rw [same, absent] at new
  cases new

/-! What is reported. -/

theorem refusal?_of_missing (missing : disk.makeDirectory path = .error .notFound)
    (nonempty : path ≠ "") : Path.refusal? path = none := by
  cases refused : Path.refusal? path with
  | none => rfl
  | some cause =>
    rw [makeDirectory_refused refused nonempty] at missing
    rw [Except.error.inj missing] at refused
    exact absurd refused (Path.refusal?_ne_notFound nonempty)

theorem ensureNested_of_isDirectory (isRooted : disk.IsRooted)
    (there : path = "" ∨ disk.isDirectory path = true) (outer : List String) :
    disk.ensureNested (path :: outer) = (.ok (), disk) ∧ ¬ disk.IsBarred (path :: outer) := by
  by_cases empty : path = ""
  · rw [empty]
    exact ⟨rfl, not_isBarred_of_none rfl⟩
  · have isDirectory := there.resolve_left empty
    have made := makeDirectory_of_isDirectory isRooted isDirectory
    have found : disk.makeDirectory path ≠ .error .notFound := by
      rw [made]
      exact fun same => by cases same
    rw [ensureNested_of_found empty found, ensureDirectory_of_not_made made, if_pos isDirectory,
      isBarred_iff_of_found found empty, isDirectory]
    exact ⟨rfl, fun both => by cases both.2⟩

theorem isDirectory_of_start (isRooted : disk.IsRooted) (fine : Path.refusal? path = none)
    (shape : Path.way path = Path.start path) : disk.isDirectory path = true := by
  rw [isDirectory_iff_enters isRooted fine]
  have starts : ∃ base, disk.walk true (Path.way path ++ []) = .ok base ∧
      disk.tree.kindAt base = some .directory := by
    rw [shape, List.append_nil, Path.start]
    split
    case isTrue => exact ⟨[], rfl, rfl⟩
    case isFalse => exact ⟨disk.here, rfl, FileTree.kindAt_eq_directory.mpr isRooted⟩
  obtain ⟨base, led, isDirectory⟩ := starts
  exact ⟨base, Enters.of_walk isRooted (.inl rfl) led isDirectory⟩

/-- What waits for a directory that is not there ends in a name, unless it leads up. -/
theorem exists_name_of_missing (isRooted : disk.IsRooted) (nonempty : path ≠ "")
    (missing : disk.makeDirectory path = .error .notFound)
    (noWayUp : (Path.way path).getLast? ≠ some .up) :
    ∃ front text, Path.way path = front ++ [.name text] := by
  rcases Path.way_cases path with shape | ⟨front, shape⟩ | named
  · have isDirectory := isDirectory_of_start isRooted (refusal?_of_missing missing nonempty) shape
    rw [makeDirectory_of_isDirectory isRooted isDirectory] at missing
    cases missing
  · rw [shape, List.getLast?_concat] at noWayUp
    exact absurd rfl noWayUp
  · exact named

/-- What comes of making a directory that is not there, and those around it: something else is in
the way, or there is another error, or it is made and holds nothing. -/
inductive Fate (disk : Disk) (paths : List String) (path : String) :
    Except DiskError Unit × Disk → Prop where
  | barred (barred : disk.IsBarred paths) : Fate disk paths path (.error .alreadyExists, disk)
  | refused (cause : DiskError) (after : Disk) (other : cause ≠ .alreadyExists)
    (notBarred : ¬ disk.IsBarred paths) : Fate disk paths path (.error cause, after)
  | made (after : Disk) (base : Place) (left : Nat) (enters : after.Enters path base left)
    (bare : ∀ name, after.tree.kindAt (base ++ [name]) = none)
    (notBarred : ¬ disk.IsBarred paths) : Fate disk paths path (.ok (), after)

theorem settle_behind {inner around text : String} (isRooted : after.IsRooted)
    (enters : after.Enters around base left)
    (bare : ∀ name, after.tree.kindAt (base ++ [name]) = none)
    (below : Path.way inner = Path.way around ++ [.name text])
    (notBarred : ¬ disk.IsBarred paths) :
    Fate disk paths inner (after.settle (after.ensureDirectory inner)) := by
  have absent : ¬ after.Holds (Path.withoutEndSlash inner) :=
    enters.not_holds ((Path.way_withoutEndSlash inner).trans below) (bare text)
  cases made : after.makeDirectory inner with
  | ok disk' =>
    obtain ⟨base', left', makes, enters'⟩ := exists_makes isRooted made
    rw [ensureDirectory_of_made made]
    exact .made disk' base' left' enters' makes.isBare notBarred
  | error cause =>
    have other : cause ≠ .alreadyExists := by
      rintro rfl
      cases refused : Path.refusal? inner with
      | none =>
        rw [makeDirectory_eq_add refused, add_eq_alreadyExists] at made
        exact absent made
      | some cause =>
        have nonempty : inner ≠ "" := by
          rintro rfl
          cases made
        rw [makeDirectory_refused refused nonempty] at made
        rw [Except.error.inj made] at refused
        exact refusal?_ne_alreadyExists inner refused
    have noDirectory : ¬ after.isDirectory inner = true := by
      intro isDirectory
      rw [makeDirectory_of_isDirectory isRooted isDirectory] at made
      exact other (Except.error.inj made).symm
    rw [ensureDirectory_of_not_made made, if_neg noDirectory]
    exact .refused cause after other notBarred

theorem fate_of_found (isRooted : disk.IsRooted) (nonempty : path ≠ "")
    (noDirectory : disk.isDirectory path = false)
    (found : disk.makeDirectory path ≠ .error .notFound) (outer : List String) :
    Fate disk (path :: outer) path (disk.ensureNested (path :: outer)) := by
  have barred_iff := @isBarred_iff_of_found disk path outer found nonempty
  cases made : disk.makeDirectory path with
  | ok after =>
    obtain ⟨base, left, makes, enters⟩ := exists_makes isRooted made
    rw [made] at barred_iff
    rw [ensureNested_of_found nonempty found, ensureDirectory_of_made made]
    refine .made after base left enters makes.isBare fun barred => ?_
    cases (barred_iff.mp barred).1
  | error cause =>
    have other : cause ≠ .notFound := fun same => found (by rw [made, same])
    rw [made] at barred_iff
    rw [ensureNested_of_refused nonempty made other noDirectory]
    by_cases present : cause = .alreadyExists
    · subst present
      exact .barred (barred_iff.mpr ⟨rfl, noDirectory⟩)
    · exact .refused cause disk present fun barred =>
        present (Except.error.inj (barred_iff.mp barred).1)

/-- A directory that waits for the ones around it shares their fate as long as they are not
there. -/
theorem fate_of_missing {around text : String} (isRooted : disk.IsRooted) (nonempty : path ≠ "")
    (missing : disk.makeDirectory path = .error .notFound)
    (below : Path.way path = Path.way around ++ [.name text])
    (further : Fate disk outer around (disk.ensureNested outer)) :
    Fate disk (path :: outer) path (disk.ensureNested (path :: outer)) := by
  have sameBarred := @isBarred_iff_of_missing disk path outer missing nonempty
  have grows := ((disk.builds_ensureNested outer).addsFolders isRooted).toGrows
  generalize nested : disk.ensureNested outer = result at further grows
  cases further with
  | barred barred =>
    rw [ensureNested_of_stuck nonempty missing nested]
    exact .barred (sameBarred.mpr barred)
  | refused cause after other notBarred =>
    rw [ensureNested_of_stuck nonempty missing nested]
    exact .refused cause after other (sameBarred.not.mpr notBarred)
  | made after base left enters bare notBarred =>
    rw [ensureNested_of_missing nonempty missing nested]
    exact settle_behind (grows.isRooted isRooted) enters bare below (sameBarred.not.mpr notBarred)

/-- The paths that lead up among those around do so from where something is. -/
def Ascends (disk : Disk) (paths : List String) : Prop :=
  ∀ path ∈ paths, (Path.way path).getLast? = some .up →
    disk.makeDirectory path ≠ .error .notFound

theorem fate (isRooted : disk.IsRooted) : ∀ (fuel : Nat) (path : String),
    ¬ (path = "" ∨ disk.isDirectory path = true) → path.length ≤ fuel →
      disk.Ascends (Path.ancestors fuel path) →
      Fate disk (Path.ancestors fuel path) path
        (disk.ensureNested (Path.ancestors fuel path)) := by
  intro fuel
  induction fuel with
  | zero =>
    intro path absent short
    have empty : path = "" := String.length_eq_zero_iff.mp (Nat.le_zero.mp short)
    exact absurd (.inl empty) absent
  | succ fuel ih =>
    intro path absent short ascends
    rw [not_or, Bool.not_eq_true] at absent
    obtain ⟨nonempty, noDirectory⟩ := absent
    obtain ⟨rest, shape⟩ := exists_ancestors (fuel + 1) path
    by_cases missing : disk.makeDirectory path = .error .notFound
    case neg =>
      rw [shape]
      exact fate_of_found isRooted nonempty noDirectory missing rest
    have noWayUp : (Path.way path).getLast? ≠ some .up := fun up =>
      ascends path (by rw [shape]; exact List.mem_cons_self) up missing
    obtain ⟨front, text, named⟩ := exists_name_of_missing isRooted nonempty missing noWayUp
    obtain ⟨around, parent, holds⟩ := Path.exists_parent named
    rw [← holds.way] at named
    have shorter := holds.shorter
    have shape' : Path.ancestors (fuel + 1) path = path :: Path.ancestors fuel around := by
      rw [Path.ancestors, parent]
    rw [shape'] at ascends ⊢
    by_cases there : around = "" ∨ disk.isDirectory around = true
    · -- the directory around is there, so it is not what the path waits for
      obtain ⟨others, shape''⟩ := exists_ancestors fuel around
      obtain ⟨nested, notBarred⟩ := ensureNested_of_isDirectory isRooted there others
      rw [← shape''] at nested notBarred
      rw [← isBarred_iff_of_missing missing nonempty] at notBarred
      rw [ensureNested_of_missing nonempty missing nested, ensureDirectory_of_not_made missing,
        if_neg (by rw [noDirectory]; decide)]
      exact .refused .notFound disk (by decide) notBarred
    · exact fate_of_missing isRooted nonempty missing named
        (ih around there (by omega) fun path member => ascends path (List.mem_cons_of_mem _ member))

theorem ensureNested_of_isBarred (paths : List String) (barred : disk.IsBarred paths) :
    disk.ensureNested paths = (.error .alreadyExists, disk) := by
  induction paths using nested_induction disk with
  | nil => exact absurd barred (not_isBarred_of_none rfl)
  | start outer => exact absurd barred (not_isBarred_of_none rfl)
  | missing path outer nonempty waits ih =>
    rw [isBarred_iff_of_missing waits nonempty] at barred
    exact ensureNested_of_stuck nonempty waits (ih barred)
  | found path outer nonempty found =>
    obtain ⟨refused, noDirectory⟩ := (isBarred_iff_of_found found nonempty).mp barred
    exact ensureNested_of_refused nonempty refused (by decide) noDirectory

end Disk

end DesignLink
