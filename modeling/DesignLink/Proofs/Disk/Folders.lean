import DesignLink.Proofs.Disk.Growth
import DesignLink.Proofs.Disk.Passages

/-!
New directories and files on a disk without links. The names and the files on the way to a directory
decide whether it can be made; what is made are the directories before what is in the way.
-/

namespace DesignLink.Disk

open FileTree (Additions Grounded folders)

/-! New entries of a disk. -/

/-- Puts a node at a place unless something is there. -/
def fill (disk : Disk) (place : Place) (node : FileTree) : Disk :=
  if disk.tree.kindAt place = none then disk.put place node else disk

/-- Puts nodes where nothing is, one after the other. -/
def fillAll (disk : Disk) (items : Additions) : Disk :=
  items.foldl (fun disk item => disk.fill item.1 item.2) disk

theorem eq_of_tree {a b : Disk} (tree : a.tree = b.tree) (here : a.here = b.here) : a = b := by
  obtain ⟨entries, place⟩ := a
  obtain ⟨entries', place'⟩ := b
  obtain rfl : entries = entries' := FileTree.directory.inj tree
  obtain rfl : place = place' := here
  rfl

theorem tree_fill (disk : Disk) (place : Place) (node : FileTree) :
    (disk.fill place node).tree = disk.tree.fill place node ∧
      (disk.fill place node).here = disk.here := by
  unfold fill FileTree.fill
  split
  case isTrue absent =>
    refine tree_put node fun top => ?_
    rw [top, FileTree.kindAt_eq_none, FileTree.at?_nil] at absent
    cases absent
  case isFalse => exact ⟨rfl, rfl⟩

theorem tree_fillAll (items : Additions) : ∀ disk : Disk,
    (disk.fillAll items).tree = disk.tree.fillAll items ∧
      (disk.fillAll items).here = disk.here := by
  induction items with
  | nil => exact fun _ => ⟨rfl, rfl⟩
  | cons item rest ih =>
    intro disk
    obtain ⟨tree, here⟩ := disk.tree_fill item.1 item.2
    have later := ih (disk.fill item.1 item.2)
    rw [tree, here] at later
    exact later

theorem fillAll_append (disk : Disk) (items others : Additions) :
    disk.fillAll (items ++ others) = (disk.fillAll items).fillAll others := List.foldl_append

theorem fillAll_of_present {disk : Disk} {items : Additions}
    (present : ∀ item ∈ items, disk.tree.kindAt item.1 ≠ none) : disk.fillAll items = disk := by
  obtain ⟨tree, here⟩ := tree_fillAll items disk
  exact eq_of_tree (tree.trans (FileTree.fillAll_of_present present)) here

/-- A disk without links whose paths are taken from a directory that is there. -/
structure Plain (disk : Disk) : Prop where
  noLinks : disk.tree.NoLinks
  here : disk.tree.kindAt disk.here = some .directory

section Folders

variable {disk : Disk} {items : Additions} {path : String} {base : Place} {names : List String}

theorem kindAt_fillAll_of_some (grounded : Grounded disk.tree items) {place : Place}
    {kind : FileTree.Kind} (held : disk.tree.kindAt place = some kind) :
    (disk.fillAll items).tree.kindAt place = some kind := by
  rw [(tree_fillAll items disk).1, FileTree.kindAt_fillAll place grounded, held, Option.some_or]

theorem Plain.fillAll (plain : disk.Plain) (grounded : Grounded disk.tree items)
    (noLink : ∀ item ∈ items, item.2.kind ≠ .link) : (disk.fillAll items).Plain where
  noLinks := by
    intro place link
    rw [(tree_fillAll items disk).1, FileTree.kindAt_fillAll place grounded,
      Option.or_eq_some_iff] at link
    rcases link with before | ⟨-, new⟩
    · exact plain.noLinks place before
    · obtain ⟨item, found, isLink⟩ := Option.map_eq_some_iff.mp new
      exact noLink item (List.mem_of_find?_eq_some found) isLink
  here := by
    rw [(tree_fillAll items disk).2]
    exact kindAt_fillAll_of_some grounded plain.here

def LeadsBy (disk : Disk) (path : String) (base : Place) (names : List String) : Prop :=
  ∃ front, Path.way path = front ++ names.map .name ∧
    disk.tree.through disk.here front = some base

/-- The path of a directory to be made: it leads there by names, and does not end in a dot if there
are any. -/
structure Approaches (disk : Disk) (path : String) (base : Place) (names : List String) :
    Prop where
  led : disk.LeadsBy path base names
  ends : names ≠ [] → Path.EndsInStep (Path.withoutEndSlash path)

theorem LeadsBy.isDirectory (led : disk.LeadsBy path base names) (plain : disk.Plain) :
    disk.tree.kindAt base = some .directory := by
  obtain ⟨front, -, led⟩ := led
  exact FileTree.isDirectory_through rfl front _ plain.here led

theorem LeadsBy.fillAll (led : disk.LeadsBy path base names) (grounded : Grounded disk.tree items) :
    (disk.fillAll items).LeadsBy path base names := by
  obtain ⟨front, shape, led⟩ := led
  refine ⟨front, shape, ?_⟩
  rw [(tree_fillAll items disk).2]
  exact FileTree.through_of_stays (fun _ held => kindAt_fillAll_of_some grounded held) front _ led

theorem Approaches.fillAll (approaches : disk.Approaches path base names)
    (grounded : Grounded disk.tree items) : (disk.fillAll items).Approaches path base names :=
  ⟨approaches.led.fillAll grounded, approaches.ends⟩

theorem LeadsBy.parent {last : String} (led : disk.LeadsBy path base (names ++ [last])) :
    ∃ outer, Path.parent? path = some outer ∧ disk.Approaches outer base names ∧
      outer.toList <+: path.toList ∧ outer.length < path.length := by
  obtain ⟨front, shape, led⟩ := led
  rw [List.map_append, List.map_singleton, ← List.append_assoc] at shape
  obtain ⟨outer, parent, holds⟩ := Path.exists_parent shape
  refine ⟨outer, parent, ⟨⟨front, holds.way, led⟩, fun nonempty => ?_⟩, holds.text, holds.shorter⟩
  have shape' : front ++ names.map .name =
      front ++ names.dropLast.map .name ++ [.name (names.getLast nonempty)] := by
    conv_lhs => rw [← List.dropLast_concat_getLast nonempty]
    rw [List.map_append, List.map_singleton, List.append_assoc]
  exact (holds.ends _ _ shape').withoutEndSlash

/-! What a path leads to. -/

theorem track_approaches (plain : disk.Plain) (approaches : disk.Approaches path base names) :
    disk.tree.track disk.here (Path.steps (Path.withoutEndSlash path)) =
      disk.tree.track base (names.map .name) := by
  obtain ⟨front, shape, led⟩ := approaches.led
  by_cases empty : names = []
  · subst empty
    rw [List.map_nil, List.append_nil] at shape
    rw [← shape, ← Path.way_withoutEndSlash, FileTree.through_way] at led
    exact FileTree.track_of_through plain.noLinks led
  · have ends := (approaches.ends empty).getLast?_steps
    have filtered := FileTree.track_filter plain.noLinks _ disk.here ends
    have way : (Path.steps (Path.withoutEndSlash path)).filter (· ≠ .here) = Path.way path :=
      Path.way_withoutEndSlash path
    rw [← filtered, way, shape, FileTree.track_through plain.noLinks _ front disk.here led]

theorem isDirectory_eq (plain : disk.Plain) (fine : Path.refusal? path = none) :
    disk.isDirectory path = (disk.tree.track disk.here (Path.steps path)).toOption.any fun place =>
      disk.tree.kindAt place = some .directory := by
  have target : disk.target path = disk.tree.track disk.here (Path.steps path) := by
    rw [Disk.target, FileTree.resolve_eq_track plain.noLinks, fine]
  rw [isDirectory, find, target]
  cases disk.tree.track disk.here (Path.steps path) with
  | error cause => rfl
  | ok place =>
    rw [ok_bind, Except.toOption, Option.any_some, FileTree.kindAt]
    cases disk.tree.at? place with
    | none => rfl
    | some node => cases node <;> rfl

theorem isDirectory_iff (plain : disk.Plain) (fine : Path.refusal? path = none) :
    disk.isDirectory path = true ↔
      ∃ place, disk.tree.through disk.here (Path.way path) = some place := by
  rw [isDirectory_eq plain fine, FileTree.through_way, Option.any_eq_true]
  constructor
  · intro isDirectory
    obtain ⟨place, led, held⟩ := isDirectory
    exact ⟨place, FileTree.through_of_track plain.noLinks (of_decide_eq_true held) _ _
      (toOption_eq_some.mp led)⟩
  · intro led
    obtain ⟨place, led⟩ := led
    exact ⟨place, toOption_eq_some.mpr (FileTree.track_of_through plain.noLinks led),
      decide_eq_true (FileTree.isDirectory_through rfl _ _ plain.here led)⟩

theorem LeadsBy.isDirectory_iff (led : disk.LeadsBy path base names) (plain : disk.Plain)
    (fine : Path.refusal? path = none) :
    disk.isDirectory path = true ↔
      disk.tree.through base (names.map .name) = some (base ++ names) := by
  obtain ⟨front, shape, led⟩ := led
  rw [Disk.isDirectory_iff plain fine, shape, FileTree.through_append, led, Option.bind_some]
  constructor
  · intro further
    obtain ⟨place, further⟩ := further
    rw [further, FileTree.through_names names base place further]
  · exact fun further => ⟨_, further⟩

theorem refusal?_withoutEndSlash (fine : Path.refusal? path = none) :
    Path.refusal? (Path.withoutEndSlash path) = none := by
  obtain ⟨count, text, -⟩ := Path.exists_slashes path
  refine Path.refusal?_of_front (fun empty => ?_) ⟨_, text.symm⟩ fine
  have shape := Path.toList_withoutEndSlash path
  rw [empty] at shape
  split at shape
  case isTrue => exact (Path.refusal?_eq_none.mp fine).2.1 (String.toList_eq_nil_iff.mp shape.symm)
  case isFalse kept => exact kept shape.symm

theorem makeDirectory_of_track (plain : disk.Plain) (fine : Path.refusal? path = none) :
    disk.makeDirectory path =
      (disk.tree.track disk.here (Path.steps (Path.withoutEndSlash path))).bind fun place =>
        if disk.tree.kindAt place = none then .ok (disk.fill place (.directory []))
        else .error .alreadyExists := by
  have short := (Path.refusal?_eq_none.mp fine).2.2
  have entry : disk.entry (Path.withoutEndSlash path) =
      disk.tree.track disk.here (Path.steps (Path.withoutEndSlash path)) := by
    rw [Disk.entry, FileTree.resolve_eq_track plain.noLinks, refusal?_withoutEndSlash fine]
  rw [makeDirectory, if_neg (fun both => Nat.not_lt_of_le short both.1), add, entry]
  refine congrArg (Except.bind _) (funext fun place => ?_)
  cases held : disk.tree.at? place with
  | none =>
    have absent := FileTree.kindAt_eq_none.mpr held
    rw [if_pos absent, fill, if_pos absent]
  | some node =>
    have present : disk.tree.kindAt place ≠ none := by
      rw [Ne, FileTree.kindAt_eq_none, held]
      exact nofun
    rw [if_neg present]

theorem makeDirectory_eq (plain : disk.Plain) (approaches : disk.Approaches path base names)
    (fine : Path.refusal? path = none) : disk.makeDirectory path =
      (disk.tree.track base (names.map .name)).bind fun place =>
        if disk.tree.kindAt place = none then .ok (disk.fill place (.directory []))
        else .error .alreadyExists := by
  rw [makeDirectory_of_track plain fine, track_approaches plain approaches]

theorem resolve_refused {cause : DiskError} (refused : Path.refusal? path = some cause)
    (tree : FileTree) (last : Bool) (place : Place) :
    tree.resolve last place path = .error cause := by
  unfold Path.refusal? at refused
  rw [FileTree.resolve]
  split_ifs at refused ⊢ with nul empty long
  · exact congrArg Except.error (Option.some.inj refused)
  · exact congrArg Except.error (Option.some.inj refused)
  · exact congrArg Except.error (Option.some.inj refused)

theorem makeDirectory_refused {cause : DiskError} (refused : Path.refusal? path = some cause)
    (nonempty : path ≠ "") (disk : Disk) : disk.makeDirectory path = .error cause := by
  obtain ⟨count, text, -⟩ := Path.exists_slashes path
  have sameNul : '\x00' ∈ path.toList ↔ '\x00' ∈ (Path.withoutEndSlash path).toList := by
    rw [text, List.mem_append, List.mem_replicate]
    simp
  unfold Path.refusal? at refused
  rw [makeDirectory]
  split_ifs at refused with nul empty long
  · have nul' : (Path.withoutEndSlash path).toList.contains '\x00' = true := by
      simpa [sameNul] using nul
    obtain rfl := Option.some.inj refused
    rw [if_neg (by simpa using fun _ => nul), add, entry, FileTree.resolve, if_pos nul']
    rfl
  · exact absurd (String.isEmpty_iff.mp empty) nonempty
  · obtain rfl := Option.some.inj refused
    rw [if_pos ⟨long, by simpa using nul⟩]

theorem isDirectory_refused {cause : DiskError} (refused : Path.refusal? path = some cause)
    (disk : Disk) : disk.isDirectory path = false := by
  rw [isDirectory, find, target, resolve_refused refused]
  rfl

/-! Directories one in the other. -/

theorem ensureDirectory_of_made {disk' : Disk} (made : disk.makeDirectory path = .ok disk') :
    disk.ensureDirectory path = .ok disk' := by
  rw [ensureDirectory, made]

theorem ensureDirectory_of_not_made {cause : DiskError}
    (notMade : disk.makeDirectory path = .error cause) : disk.ensureDirectory path =
      if disk.isDirectory path then .ok disk else .error cause := by
  rw [ensureDirectory, notMade]

/-- Where the way up to the last name is clear, a directory is there or can be made unless the name
itself is in the way. -/
theorem ensureDirectory_last {last : String} (plain : disk.Plain)
    (approaches : disk.Approaches path base (names ++ [last])) (fine : Path.refusal? path = none)
    (led : disk.tree.through base (names.map .name) = some (base ++ names)) :
    disk.ensureDirectory path = (disk.tree.block .alreadyExists (base ++ names) last).elim
      (.ok (disk.fill (base ++ names ++ [last]) (.directory []))) .error := by
  have found := approaches.led.isDirectory_iff plain fine
  have made := makeDirectory_eq plain approaches fine
  rw [List.map_append, List.map_singleton] at found made
  rw [FileTree.through_append, led, Option.bind_some, FileTree.through] at found
  rw [FileTree.track_through plain.noLinks _ _ _ led, FileTree.track_last plain.noLinks] at made
  rw [FileTree.block]
  by_cases long : Path.nameLimit < last.utf8ByteSize
  · rw [if_pos long] at made
    rw [if_neg fun both => Nat.not_lt_of_le both.1 long] at found
    rw [ensureDirectory_of_not_made made, if_neg (mt found.mp (Option.some_ne_none _).symm),
      if_pos long]
    rfl
  rw [if_neg long, Except.bind] at made
  rw [if_neg long]
  cases held : disk.tree.kindAt (base ++ names ++ [last]) with
  | none =>
    rw [if_pos held] at made
    rw [ensureDirectory_of_made made, if_neg (Option.some_ne_none _).symm]
    rfl
  | some kind =>
    have present : disk.tree.kindAt (base ++ names ++ [last]) ≠ none := by
      rw [held]
      exact Option.some_ne_none kind
    have unchanged : disk.fill (base ++ names ++ [last]) (.directory []) = disk := if_neg present
    rw [if_neg present] at made
    rw [ensureDirectory_of_not_made made, unchanged]
    cases kind with
    | link => exact absurd held (plain.noLinks _)
    | directory =>
      have isDirectory : disk.isDirectory path = true := by
        rw [found, if_pos ⟨Nat.le_of_not_lt long, held⟩, List.append_assoc]
        rfl
      rw [if_pos isDirectory, if_neg (by decide)]
      rfl
    | file =>
      rw [held, if_neg (not_and_of_not_right _ (by decide))] at found
      rw [if_neg (mt found.mp (Option.some_ne_none _).symm), if_pos rfl]
      rfl

/-- What is reported of a step, and the disk behind it; an error leaves the disk as it was. -/
def settle (before : Disk) : Except DiskError Disk → Except DiskError Unit × Disk
  | .ok after => (.ok (), after)
  | .error cause => (.error cause, before)

theorem ensureNested_of_found {outer : List String} (nonempty : path ≠ "")
    (found : disk.makeDirectory path ≠ .error .notFound) : disk.ensureNested (path :: outer) =
      disk.settle (disk.ensureDirectory path) := by
  rw [ensureNested, if_neg (by simpa using nonempty)]
  cases made : disk.makeDirectory path with
  | ok disk' => rw [ensureDirectory_of_made made, settle]
  | error cause =>
    rw [ensureDirectory_of_not_made made]
    rw [made] at found
    cases cause with
    | notFound => exact absurd rfl found
    | _ =>
      dsimp only
      split <;> rfl

theorem ensureNested_of_refused {outer : List String} {cause : DiskError} (nonempty : path ≠ "")
    (refused : disk.makeDirectory path = .error cause) (other : cause ≠ .notFound)
    (noDirectory : disk.isDirectory path = false) :
    disk.ensureNested (path :: outer) = (.error cause, disk) := by
  have found : disk.makeDirectory path ≠ .error .notFound := fun missing =>
    other (Except.error.inj (refused.symm.trans missing))
  rw [ensureNested_of_found nonempty found, ensureDirectory_of_not_made refused,
    if_neg (by rw [noDirectory]; exact nofun)]
  rfl

theorem ensureNested_of_missing {outer : List String} {after : Disk} (nonempty : path ≠ "")
    (missing : disk.makeDirectory path = .error .notFound)
    (nested : disk.ensureNested outer = (.ok (), after)) :
    disk.ensureNested (path :: outer) = after.settle (after.ensureDirectory path) := by
  rw [ensureNested, if_neg (by simpa using nonempty), missing]
  simp only [nested]
  cases after.ensureDirectory path <;> rfl

theorem ensureNested_of_stuck {outer : List String} {after : Disk} {cause : DiskError}
    (nonempty : path ≠ "") (missing : disk.makeDirectory path = .error .notFound)
    (nested : disk.ensureNested outer = (.error cause, after)) :
    disk.ensureNested (path :: outer) = (.error cause, after) := by
  rw [ensureNested, if_neg (by simpa using nonempty), missing]
  simp only [nested]

theorem exists_ancestors (fuel : Nat) (path : String) :
    ∃ outer, Path.ancestors fuel path = path :: outer := by
  cases fuel with
  | zero => exact ⟨[], rfl⟩
  | succ fuel =>
    rw [Path.ancestors]
    split
    case h_1 => exact ⟨[], rfl⟩
    case h_2 parent _ => exact ⟨_, rfl⟩

theorem noLink_folders {places : List Place} :
    ∀ item ∈ folders places, item.2.kind ≠ .link := by
  intro item member
  rw [(FileTree.mem_folders.mp member).2]
  exact nofun

theorem ensureDirectory_behind {last : String} (plain : disk.Plain)
    (approaches : disk.Approaches path base (names ++ [last])) (fine : Path.refusal? path = none)
    (free : disk.tree.blockade base names = none) :
    (disk.fillAll (folders (disk.tree.openings base names))).settle
      ((disk.fillAll (folders (disk.tree.openings base names))).ensureDirectory path) =
      ((disk.tree.obstacle base (names ++ [last])).elim (.ok ()) .error,
        disk.fillAll (folders (disk.tree.openings base (names ++ [last])))) := by
  have isDirectory := approaches.led.isDirectory plain
  have grounded := FileTree.grounded_own_openings plain.noLinks isDirectory names
  have tree := (tree_fillAll (folders (disk.tree.openings base names)) disk).1
  have led := FileTree.through_of_openings names base free fun place member =>
    FileTree.kindAt_openings plain.noLinks isDirectory member
  have made := ensureDirectory_last (plain.fillAll grounded noLink_folders)
    (approaches.fillAll grounded) fine (tree ▸ led)
  have sameBlock : (disk.tree.fillAll (folders (disk.tree.openings base names))).block
      .alreadyExists (base ++ names) last =
        disk.tree.block .alreadyExists (base ++ names) last := by
    simp only [FileTree.block, FileTree.isFile_fillAll_folders grounded]
  rw [tree, sameBlock] at made
  rw [made, FileTree.obstacle_concat, FileTree.openings_concat, free, Option.none_or]
  cases blocked : disk.tree.block .alreadyExists (base ++ names) last with
  | none =>
    rw [if_pos ⟨rfl, FileTree.block_eq_none_iff.mpr blocked⟩, FileTree.folders_append,
      fillAll_append]
    rfl
  | some cause =>
    have stops : disk.tree.block .notDirectory (base ++ names) last ≠ none := fun passes =>
      Option.some_ne_none cause (blocked.symm.trans (FileTree.block_eq_none_iff.mp passes))
    rw [if_neg (fun both => stops both.2), List.append_nil]
    rfl

theorem ensureNested_of_there (plain : disk.Plain) (approaches : disk.Approaches path base [])
    (fine : path ≠ "" → Path.refusal? path = none) (outer : List String) :
    disk.ensureNested (path :: outer) = (.ok (), disk) := by
  by_cases empty : path = ""
  · rw [ensureNested, if_pos (by simpa using empty)]
  have made := makeDirectory_eq plain approaches (fine empty)
  change _ = (if disk.tree.kindAt base = none then _ else _) at made
  rw [approaches.led.isDirectory plain, if_neg (by decide)] at made
  have led : disk.tree.through base (List.map .name []) = some (base ++ []) := by
    rw [List.append_nil]
    rfl
  have found : disk.makeDirectory path ≠ .error .notFound := fun missing =>
    absurd (Except.error.inj (made.symm.trans missing)) (by decide)
  rw [ensureNested_of_found empty found, ensureDirectory_of_not_made made,
    if_pos ((approaches.led.isDirectory_iff plain (fine empty)).mpr led)]
  rfl

theorem makeDirectory_ne_notFound {last : String} (plain : disk.Plain)
    (approaches : disk.Approaches path base (names ++ [last])) (fine : Path.refusal? path = none)
    (led : disk.tree.through base (names.map .name) = some (base ++ names)) :
    disk.makeDirectory path ≠ .error .notFound := by
  rw [makeDirectory_eq plain approaches fine, List.map_append,
    FileTree.track_through plain.noLinks _ _ _ led, List.map_singleton,
    FileTree.track_last plain.noLinks]
  by_cases long : Path.nameLimit < last.utf8ByteSize
  · rw [if_pos long]
    exact fun same => absurd (Except.error.inj same) (by decide)
  · rw [if_neg long, Except.bind]
    split_ifs
    · exact fun same => by cases same
    · exact fun same => absurd (Except.error.inj same) (by decide)

theorem ensureNested_of_blocked {last : String} {outer : List String} {cause : DiskError}
    (plain : disk.Plain) (approaches : disk.Approaches path base (names ++ [last]))
    (fine : Path.refusal? path = none)
    (stops : ∀ back ≠ [], disk.tree.track base (names.map .name ++ back) = .error cause)
    (other : cause ≠ .notFound) : disk.ensureNested (path :: outer) = (.error cause, disk) := by
  have made := makeDirectory_eq plain approaches fine
  have stopped := stops [.name last] (List.cons_ne_nil _ [])
  rw [← List.map_singleton, ← List.map_append] at stopped
  rw [stopped] at made
  have noDirectory : disk.isDirectory path = false := by
    rw [Bool.eq_false_iff]
    intro isDirectory
    have led := (approaches.led.isDirectory_iff plain fine).mp isDirectory
    cases stopped.symm.trans (FileTree.track_of_through plain.noLinks led)
  exact ensureNested_of_refused (Path.refusal?_eq_none.mp fine).2.1 made other noDirectory

theorem fillAll_folders_of_there {places : List Place}
    (there : ∀ place ∈ places, disk.tree.kindAt place = some .directory) :
    disk.fillAll (folders places) = disk := by
  refine fillAll_of_present fun item member => ?_
  rw [there _ (FileTree.mem_folders.mp member).1]
  exact Option.some_ne_none _

theorem obstacle_openings_of_blocked {tree : FileTree} {cause : DiskError}
    (blocked : tree.blockade base names = some cause) (last : String) :
    tree.obstacle base (names ++ [last]) = some cause ∧
      tree.openings base (names ++ [last]) = tree.openings base names := by
  rw [FileTree.obstacle_concat, FileTree.openings_concat, blocked, Option.some_or,
    if_neg (fun both => Option.some_ne_none cause both.1), List.append_nil]
  exact ⟨rfl, rfl⟩

/-- What comes of making the directories along names: nothing in their way, or an error, and new
directories before it. -/
theorem ensureNested_eq (plain : disk.Plain) (names : List String) :
    ∀ (fuel : Nat) (path : String) (base : Place), disk.Approaches path base names →
      (path ≠ "" → Path.refusal? path = none) → path.length ≤ fuel →
      disk.ensureNested (Path.ancestors fuel path) =
        ((disk.tree.obstacle base names).elim (.ok ()) .error,
          disk.fillAll (folders (disk.tree.openings base names))) := by
  induction names using List.reverseRecOn with
  | nil =>
    intro fuel path base approaches fine _
    obtain ⟨outer, shape⟩ := exists_ancestors fuel path
    rw [shape]
    exact ensureNested_of_there plain approaches fine outer
  | append_singleton names last ih =>
    intro fuel path base approaches fine enough
    obtain ⟨outer, parent, around, text, shorter⟩ := approaches.led.parent
    have nonempty : path ≠ "" := by
      intro empty
      rw [empty] at shorter
      exact Nat.not_lt_zero _ shorter
    have fine' := fine nonempty
    obtain ⟨fuel, rfl⟩ : ∃ less, fuel = less + 1 := ⟨fuel - 1, by omega⟩
    have shape : Path.ancestors (fuel + 1) path = path :: Path.ancestors fuel outer := by
      rw [Path.ancestors, parent]
    have nested := ih fuel outer base around
      (fun filled => Path.refusal?_of_front filled text fine') (by omega)
    rw [shape]
    cases FileTree.exists_course plain.noLinks names base with
    | clear led free there =>
      have behind := ensureDirectory_behind plain approaches fine' free
      rw [fillAll_folders_of_there there] at behind
      rw [ensureNested_of_found nonempty (makeDirectory_ne_notFound plain approaches fine' led),
        behind]
    | blocked stops other blocked there =>
      obtain ⟨stopped, sameOpenings⟩ := obstacle_openings_of_blocked blocked last
      rw [ensureNested_of_blocked plain approaches fine' stops other, stopped, sameOpenings,
        fillAll_folders_of_there there]
      rfl
    | missing stops absent =>
      have made := makeDirectory_eq plain approaches fine'
      have stopped := stops [.name last] (List.cons_ne_nil _ [])
      rw [List.map_append, List.map_singleton, stopped] at made
      rw [FileTree.obstacle_eq_blockade (FileTree.not_isFile_of_missing plain.noLinks rfl
        (approaches.led.isDirectory plain) (List.cons_ne_nil _ []) stopped)] at nested
      cases blocked : disk.tree.blockade base names with
      | none =>
        rw [blocked] at nested
        rw [ensureNested_of_missing nonempty made nested]
        exact ensureDirectory_behind plain approaches fine' blocked
      | some cause =>
        obtain ⟨stopped, sameOpenings⟩ := obstacle_openings_of_blocked blocked last
        rw [blocked] at nested
        rw [ensureNested_of_stuck nonempty made nested, stopped, sameOpenings]
        rfl

theorem ensureNested_again (plain : disk.Plain) (approaches : disk.Approaches path base names)
    (fine : path ≠ "" → Path.refusal? path = none) {fuel : Nat} (enough : path.length ≤ fuel) :
    (disk.fillAll (folders (disk.tree.openings base names))).ensureNested
        (Path.ancestors fuel path) =
      ((disk.tree.obstacle base names).elim (.ok ()) .error,
        disk.fillAll (folders (disk.tree.openings base names))) := by
  have isDirectory := approaches.led.isDirectory plain
  have grounded := FileTree.grounded_own_openings plain.noLinks isDirectory names
  have tree := (tree_fillAll (folders (disk.tree.openings base names)) disk).1
  have sameFiles := fun place => FileTree.isFile_fillAll_folders grounded place
  have obstacle := @FileTree.obstacle_congr disk.tree base
    (disk.tree.fillAll (folders (disk.tree.openings base names))) names
    fun above _ => (sameFiles (base ++ above)).symm
  have openings := (@FileTree.blockade_congr disk.tree
    (disk.tree.fillAll (folders (disk.tree.openings base names))) names base
    fun above _ => (sameFiles (base ++ above)).symm).2
  have unchanged := @fillAll_of_present (disk.fillAll (folders (disk.tree.openings base names)))
    (folders (disk.tree.openings base names)) fun item member => by
      rw [tree, FileTree.kindAt_openings plain.noLinks isDirectory
        (FileTree.mem_folders.mp member).1]
      exact nofun
  have nested := ensureNested_eq (plain.fillAll grounded noLink_folders) names fuel path base
    (approaches.fillAll grounded) fine enough
  rw [tree, ← obstacle, ← openings, unchanged] at nested
  exact nested

theorem ensureDirectories_refused {cause : DiskError}
    (refused : Path.folderRefusal? path = some cause) (disk : Disk) :
    disk.ensureDirectories path = (.error cause, disk) := by
  obtain ⟨outer, shape⟩ := exists_ancestors path.length path
  unfold Path.folderRefusal? at refused
  split at refused
  case isTrue => cases refused
  case isFalse nonempty =>
    have other : cause ≠ .notFound := by
      rintro rfl
      unfold Path.refusal? at refused
      split_ifs at refused with nul nothing long
      · cases refused
      · exact nonempty (String.isEmpty_iff.mp nothing)
      · cases refused
    rw [ensureDirectories, shape]
    exact ensureNested_of_refused nonempty (makeDirectory_refused refused nonempty disk) other
      (isDirectory_refused refused disk)

theorem ensureDirectories_eq (plain : disk.Plain) (approaches : disk.Approaches path base names)
    (fine : Path.folderRefusal? path = none) : disk.ensureDirectories path =
      ((disk.tree.obstacle base names).elim (.ok ()) .error,
        disk.fillAll (folders (disk.tree.openings base names))) := by
  refine ensureNested_eq plain names path.length path base approaches (fun nonempty => ?_) le_rfl
  rwa [Path.folderRefusal?, if_neg nonempty] at fine

theorem create_eq {file : String} (plain : disk.Plain)
    (approaches : disk.Approaches path base names) (isName : Path.IsEntryName file)
    (led : disk.tree.through base (names.map .name) = some (base ++ names)) (content : ByteArray) :
    disk.create (Path.join path file) content =
      ((Path.refusal? (Path.join path file)).or (disk.tree.occupied (base ++ names) file)).elim
        (.ok (disk.fill (base ++ names ++ [file]) (.file content))) .error := by
  rw [create, add, entry]
  cases refused : Path.refusal? (Path.join path file) with
  | some cause =>
    rw [resolve_refused refused]
    rfl
  | none =>
    obtain ⟨front, shape, ledFront⟩ := approaches.led
    have ends := (isName.endsInStep_join path).getLast?_steps
    have filtered := FileTree.track_filter plain.noLinks _ disk.here ends
    have way : (Path.steps (Path.join path file)).filter (· ≠ .here) =
        front ++ (names.map .name ++ [.name file]) := by
      rw [← List.append_assoc, ← shape]
      exact isName.way_join path
    rw [way, FileTree.track_through plain.noLinks _ _ _ ledFront,
      FileTree.track_through plain.noLinks _ _ _ led, FileTree.track_last plain.noLinks] at filtered
    rw [FileTree.resolve_eq_track plain.noLinks, refused, Option.none_or, FileTree.occupied]
    dsimp only
    rw [← filtered]
    by_cases long : Path.nameLimit < file.utf8ByteSize
    · rw [if_pos long, if_pos long]
      rfl
    · rw [if_neg long, if_neg long, ok_bind]
      cases held : disk.tree.at? (base ++ names ++ [file]) with
      | none =>
        have absent := FileTree.kindAt_eq_none.mpr held
        rw [if_neg (fun present => present absent), fill, if_pos absent]
        rfl
      | some node =>
        have present : disk.tree.kindAt (base ++ names ++ [file]) ≠ none := by
          rw [Ne, FileTree.kindAt_eq_none, held]
          exact Option.some_ne_none node
        rw [if_pos present]
        rfl

end Folders

end DesignLink.Disk
