import DesignLink.Proofs.Disk.Following

/-!
What becomes of making directories on any disk, links included. A path enters a directory or stops
before it; what is asked for below a directory is decided there, and a new directory holds nothing.
-/

namespace DesignLink.Disk

variable {disk disk' : Disk} {path outer name : String} {base place : Place} {left : Nat}
  {cause : DiskError} {back : List Path.Component}

/-- Where steps lead from the directory of a disk. -/
def walk (disk : Disk) (last : Bool) (steps : List Path.Component) : Except DiskError Place :=
  disk.tree.walkLinks last Path.linkLimit disk.here steps

/-- The path leads into a directory, from which its continuations go on with the links that are
left. -/
structure Enters (disk : Disk) (path : String) (base : Place) (left : Nat) : Prop where
  isDirectory : disk.tree.kindAt base = some .directory
  goesOn : ∀ last back, back ≠ [] ∨ last = true →
    disk.walk last (Path.way path ++ back) = disk.tree.walkLinks last left base back

/-- The path leads to no directory, and its continuations stop for one cause. -/
structure Stops (disk : Disk) (path : String) (cause : DiskError) : Prop where
  fails : ∀ last back, back ≠ [] → disk.walk last (Path.way path ++ back) = .error cause
  noDirectory : ∀ entry, disk.walk true (Path.way path) = .ok entry →
    disk.tree.kindAt entry ≠ some .directory

theorem enters_or_stops (isRooted : disk.IsRooted) (path : String) :
    (∃ base left, disk.Enters path base left) ∨ ∃ cause, disk.Stops path cause := by
  cases FileTree.stage rfl Path.linkLimit (Path.way path) disk.here
      (FileTree.kindAt_eq_directory.mpr isRooted) with
  | enters base left isDirectory goesOn => exact .inl ⟨base, left, isDirectory, goesOn⟩
  | stops cause fails noDirectory =>
    refine .inr ⟨cause, fails, fun entry led => noDirectory entry ?_⟩
    rwa [List.append_nil]

/-! Paths and their ways. -/

theorem walk_congr {a b : List Path.Component} (same : Path.settled a = Path.settled b)
    (last : Bool) : disk.walk last a = disk.walk last b :=
  FileTree.walkLinks_congr _ _ a b same

theorem walk_steps (disk : Disk) (last : Bool) (path : String) :
    ∃ dots, (dots = [] ∨ dots = [.here]) ∧
      disk.walk last (Path.steps path) = disk.walk last (Path.way path ++ dots) := by
  rcases Path.settled_steps path with same | same
  · refine ⟨[], .inl rfl, walk_congr ?_ last⟩
    rw [List.append_nil, ← same, Path.settled_settled]
  · refine ⟨[.here], .inr rfl, walk_congr ?_ last⟩
    rw [← same, Path.settled_settled]

theorem resolve_eq_walk (fine : Path.refusal? path = none) (last : Bool) :
    disk.tree.resolve last disk.here path = disk.walk last (Path.steps path) := by
  obtain ⟨noNul, nonempty, short⟩ := Path.refusal?_eq_none.mp fine
  rw [FileTree.resolve, if_neg (by simpa using noNul), if_neg (by simpa using nonempty),
    if_neg (Nat.not_lt_of_le short)]
  rfl

theorem Enters.walk_dots (enters : disk.Enters path base left) {dots : List Path.Component}
    (shape : dots = [] ∨ dots = [.here]) :
    disk.walk true (Path.way path ++ dots) = .ok base := by
  rw [enters.goesOn true dots (.inr rfl), FileTree.walkLinks_eq]
  rcases shape with rfl | rfl <;> rfl

theorem Enters.of_walk (isRooted : disk.IsRooted) {dots : List Path.Component}
    (shape : dots = [] ∨ dots = [.here])
    (led : disk.walk true (Path.way path ++ dots) = .ok base)
    (isDirectory : disk.tree.kindAt base = some .directory) :
    ∃ left, disk.Enters path base left := by
  rcases enters_or_stops isRooted path with ⟨base', left, enters⟩ | ⟨cause, stops⟩
  · obtain rfl := Except.ok.inj ((enters.walk_dots shape).symm.trans led)
    exact ⟨left, enters⟩
  · rcases shape with rfl | rfl
    · rw [List.append_nil] at led
      exact absurd isDirectory (stops.noDirectory base led)
    · rw [stops.fails true _ (List.cons_ne_nil _ [])] at led
      cases led

theorem isDirectory_of_target (led : disk.target path = .ok place) :
    disk.isDirectory path = true ↔ disk.tree.kindAt place = some .directory := by
  rw [Disk.isDirectory, find, led, ok_bind, FileTree.kindAt]
  cases disk.tree.at? place with
  | none => simp
  | some node => cases node <;> simp [FileTree.isDirectory, FileTree.kind]

theorem isDirectory_iff_target : disk.isDirectory path = true ↔
    ∃ place, disk.target path = .ok place ∧ disk.tree.kindAt place = some .directory := by
  constructor
  · intro isDirectory
    cases led : disk.target path with
    | ok place => exact ⟨place, rfl, (isDirectory_of_target led).mp isDirectory⟩
    | error cause =>
      rw [Disk.isDirectory, find, led] at isDirectory
      cases isDirectory
  · intro found
    obtain ⟨place, led, held⟩ := found
    exact (isDirectory_of_target led).mpr held

theorem isDirectory_iff_enters (isRooted : disk.IsRooted) (fine : Path.refusal? path = none) :
    disk.isDirectory path = true ↔ ∃ base left, disk.Enters path base left := by
  obtain ⟨dots, shape, same⟩ := disk.walk_steps true path
  rw [isDirectory_iff_target, target, resolve_eq_walk fine, same]
  constructor
  · intro found
    obtain ⟨base, led, isDirectory⟩ := found
    exact ⟨base, Enters.of_walk isRooted shape led isDirectory⟩
  · intro found
    obtain ⟨base, left, enters⟩ := found
    exact ⟨base, enters.walk_dots shape, enters.isDirectory⟩

/-! Entries in directories. -/

/-- The path names an entry. -/
def Holds (disk : Disk) (path : String) : Prop :=
  ∃ place, disk.entry path = .ok place ∧ disk.tree.kindAt place ≠ none

theorem refusal?_ne_alreadyExists (path : String) :
    Path.refusal? path ≠ some .alreadyExists := by
  unfold Path.refusal?
  split_ifs <;> decide

theorem entry_ne_alreadyExists (disk : Disk) (path : String) :
    disk.entry path ≠ .error .alreadyExists := by
  rw [entry]
  cases refused : Path.refusal? path with
  | none =>
    rw [resolve_eq_walk refused]
    exact FileTree.walkLinks_ne_alreadyExists _ _ _
  | some cause =>
    rw [resolve_refused refused]
    rintro same
    obtain rfl := Except.error.inj same
    exact refusal?_ne_alreadyExists path refused

theorem add_eq_alreadyExists (node : FileTree) :
    disk.add path node = .error .alreadyExists ↔ disk.Holds path := by
  rw [add]
  unfold Holds
  cases led : disk.entry path with
  | error cause =>
    refine ⟨fun same => ?_, fun holds => ?_⟩
    · obtain rfl : cause = .alreadyExists := Except.error.inj same
      exact absurd led (entry_ne_alreadyExists disk path)
    · obtain ⟨place, same, -⟩ := holds
      cases same
  | ok place =>
    rw [ok_bind]
    have sole : (∃ found, Except.ok (ε := DiskError) place = .ok found ∧
        disk.tree.kindAt found ≠ none) ↔ disk.tree.kindAt place ≠ none := by
      simp
    rw [sole, Ne, FileTree.kindAt_eq_none]
    cases disk.tree.at? place <;> simp

theorem not_holds_of_refused (refused : Path.refusal? path = some cause) : ¬ disk.Holds path := by
  intro holds
  obtain ⟨place, led, -⟩ := holds
  rw [entry, resolve_refused refused] at led
  cases led

theorem Stops.not_holds (stops : disk.Stops outer cause)
    (below : Path.way path = Path.way outer ++ back) (further : back ≠ []) : ¬ disk.Holds path := by
  cases refused : Path.refusal? path with
  | some cause => exact not_holds_of_refused refused
  | none =>
    intro holds
    obtain ⟨place, led, -⟩ := holds
    obtain ⟨dots, -, same⟩ := disk.walk_steps false path
    rw [entry, resolve_eq_walk refused, same, below, List.append_assoc,
      stops.fails _ _ (List.append_ne_nil_of_left_ne_nil further dots)] at led
    cases led

/-- Where a directory holds nothing of a name, no path below that name leads to anything. -/
theorem Enters.not_holds (enters : disk.Enters outer base left)
    (below : Path.way path = Path.way outer ++ .name name :: back)
    (absent : disk.tree.kindAt (base ++ [name]) = none) : ¬ disk.Holds path := by
  cases refused : Path.refusal? path with
  | some cause => exact not_holds_of_refused refused
  | none =>
    intro holds
    obtain ⟨place, led, present⟩ := holds
    obtain ⟨dots, -, same⟩ := disk.walk_steps false path
    rw [entry, resolve_eq_walk refused, same, below, List.append_assoc,
      enters.goesOn _ _ (.inl (by simp)), FileTree.walkLinks_eq, List.cons_append,
      FileTree.walk_name_iff] at led
    rw [FileTree.kindAt_eq_none] at absent
    generalize back ++ dots = rest at led
    cases led.2 with
    | missing => exact present (FileTree.kindAt_eq_none.mpr absent)
    | file held | directory held | link held | followed held =>
      rw [absent] at held
      cases held

theorem isDirectory_of_holds {file : String} (isRooted : disk.IsRooted)
    (relative : Path.isAbsolute file = false) (further : Path.way file ≠ []) (nonempty : path ≠ "")
    (holds : disk.Holds (Path.join path file)) : disk.isDirectory path = true := by
  have fine : Path.refusal? (Path.join path file) = none := by
    cases refused : Path.refusal? (Path.join path file) with
    | none => rfl
    | some cause => exact absurd holds (not_holds_of_refused refused)
  have front : path.toList <+: (Path.join path file).toList := by
    rw [Path.join_of_relative relative, String.append_assoc, String.toList_append]
    exact List.prefix_append _ _
  rw [isDirectory_iff_enters isRooted (Path.refusal?_of_front nonempty front fine)]
  refine (enters_or_stops isRooted path).resolve_right fun stopped => ?_
  obtain ⟨cause, stops⟩ := stopped
  exact stops.not_holds (Path.way_join path relative) further holds

/-! New directories. -/

theorem makeDirectory_eq_add (fine : Path.refusal? path = none) :
    disk.makeDirectory path = disk.add (Path.withoutEndSlash path) (.directory []) :=
  if_neg fun both => Nat.not_lt_of_le (Path.refusal?_eq_none.mp fine).2.2 both.1

theorem makeDirectory_of_isDirectory (isRooted : disk.IsRooted)
    (isDirectory : disk.isDirectory path = true) :
    disk.makeDirectory path = .error .alreadyExists := by
  have fine : Path.refusal? path = none := by
    cases refused : Path.refusal? path with
    | none => rfl
    | some cause =>
      rw [isDirectory_refused refused] at isDirectory
      cases isDirectory
  obtain ⟨base, left, enters⟩ := (isDirectory_iff_enters isRooted fine).mp isDirectory
  have present : disk.tree.kindAt base ≠ none := by
    rw [enters.isDirectory]
    exact Option.some_ne_none _
  obtain ⟨dots, shape, same⟩ := disk.walk_steps false (Path.withoutEndSlash path)
  rw [makeDirectory_eq_add fine, add_eq_alreadyExists]
  unfold Holds
  rw [entry, resolve_eq_walk (refusal?_withoutEndSlash fine), same, Path.way_withoutEndSlash]
  exact FileTree.walkLinks_to_name _ _ _ _ (enters.walk_dots shape) present

theorem refusal?_of_makeDirectory (made : disk.makeDirectory path = .ok disk') :
    Path.refusal? path = none := by
  have nonempty : path ≠ "" := by
    rintro rfl
    cases made
  cases refused : Path.refusal? path with
  | none => rfl
  | some cause =>
    rw [makeDirectory_refused refused nonempty] at made
    cases made

/-- Between two disks a directory is made, which is all that changes. -/
structure Makes (old new : Disk) (place : Place) : Prop extends old.GrowsEmpty new where
  absent : old.tree.kindAt place = none
  kinds : ∀ asked, new.tree.kindAt asked =
    if asked = place then some .directory else old.tree.kindAt asked

theorem Makes.isBare (makes : disk.Makes disk' place) (name : String) :
    disk'.tree.kindAt (place ++ [name]) = none := by
  rw [makes.kinds, if_neg (by simp), FileTree.kindAt_append_of_none makes.absent]

theorem makes_of_add (isRooted : disk.IsRooted)
    (growsEmpty : disk.GrowsEmpty disk') (added : disk.add path (.directory []) = .ok disk') :
    ∃ place, disk.entry path = .ok place ∧ disk.Makes disk' place := by
  obtain ⟨place, led, rest⟩ := exists_of_bind added
  refine ⟨place, led, ?_⟩
  cases absent : disk.tree.at? place with
  | some node =>
    rw [absent] at rest
    cases rest
  | none =>
    rw [absent] at rest
    obtain rfl := Except.ok.inj rest
    have free := (FileTree.resolve_leads rfl isRooted led).resolve_left fun present => by
      obtain ⟨node, held⟩ := present
      rw [absent] at held
      cases held
    obtain ⟨-, outer, name, entries, rfl, held⟩ := free
    have absent' := FileTree.kindAt_eq_none.mpr absent
    have tree := (@tree_put disk _ (.directory []) (List.append_ne_nil_of_right_ne_nil outer
      (List.cons_ne_nil name []))).1
    refine ⟨growsEmpty, absent', fun asked => ?_⟩
    rw [tree]
    exact FileTree.kindAt_put FileTree.isLeaf_empty name outer disk.tree
      (FileTree.kindAt_eq_directory.mpr ⟨entries, held⟩) absent' asked

theorem exists_makes (isRooted : disk.IsRooted) (made : disk.makeDirectory path = .ok disk') :
    ∃ base left, disk.Makes disk' base ∧ disk'.Enters path base left := by
  have fine := refusal?_of_makeDirectory made
  have growsEmpty := growsEmpty_of_makeDirectory made
  have isRooted' := growsEmpty.toGrows.isRooted isRooted
  rw [makeDirectory_eq_add fine] at made
  obtain ⟨base, led, makes⟩ := makes_of_add isRooted growsEmpty made
  have isDirectory : disk'.tree.kindAt base = some .directory := by
    rw [makes.kinds, if_pos rfl]
  have led' := growsEmpty.toGrows.entry led
  obtain ⟨dots, shape, same⟩ := disk'.walk_steps true (Path.withoutEndSlash path)
  rw [entry, resolve_eq_walk (refusal?_withoutEndSlash fine)] at led'
  have target : disk'.walk true (Path.steps (Path.withoutEndSlash path)) = .ok base := by
    refine FileTree.walkLinks_to_entry _ _ _ _ led' fun link held => ?_
    rw [FileTree.kindAt, held] at isDirectory
    cases isDirectory
  rw [same, Path.way_withoutEndSlash] at target
  obtain ⟨left, enters⟩ := Enters.of_walk isRooted' shape target isDirectory
  exact ⟨base, left, makes, enters⟩

end DesignLink.Disk
