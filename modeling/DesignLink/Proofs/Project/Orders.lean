import DesignLink.Project.Outcome
import DesignLink.Proofs.Disk.Dots
import DesignLink.Proofs.Disk.Sites
import DesignLink.Proofs.Project.Grouping

/-!
The order of requests. Requests for different files that keep out of each other's way are answered
in the same way and leave the same disk in whatever order they are handled.
-/

namespace DesignLink

open FileTree (folders)

namespace Path

/-- Where a step leads from a place if all that is named are directories. -/
def move (place : Place) : Component → Place
  | .root => []
  | .here => place
  | .up => place.dropLast
  | .name text => place ++ [text]

def place (here : Place) (path : String) : Place := (steps path).foldl move here

theorem place_eq_foldl_way (here : Place) (path : String) :
    place here path = (way path).foldl move here := by
  have same : ∀ (steps : List Component) (start : Place),
      (steps.filter (· ≠ .here)).foldl move start = steps.foldl move start := by
    intro steps
    induction steps with
    | nil => exact fun _ => rfl
    | cons step rest ih =>
      intro start
      cases step with
      | here => exact ih start
      | root => exact ih []
      | up => exact ih start.dropLast
      | name text => exact ih (start ++ [text])
  exact (same (steps path) here).symm

theorem foldl_move_names (names : List String) : ∀ base : Place,
    (names.map .name).foldl move base = base ++ names := by
  induction names with
  | nil => simp
  | cons name rest ih =>
    intro base
    rw [List.map_cons, List.foldl_cons, ih]
    exact List.append_assoc base [name] rest

end Path

namespace FileTree

theorem foldl_move_of_through {tree : FileTree} {base : Place} (steps : List Path.Component) :
    ∀ place, tree.through place steps = some base → steps.foldl Path.move place = base := by
  induction steps with
  | nil => exact fun _ led => Option.some.inj led
  | cons step rest ih =>
    intro place led
    cases step with
    | root => exact ih [] led
    | here => exact ih place led
    | up => exact ih place.dropLast led
    | name text =>
      rw [through] at led
      split at led
      case isTrue => exact ih _ led
      case isFalse => cases led

end FileTree

namespace Disk

variable {disk : Disk} {path : String} {base : Place} {names : List String}

theorem IsRooted.plain (isRooted : disk.IsRooted) (noLinks : disk.tree.NoLinks) : disk.Plain :=
  ⟨noLinks, FileTree.kindAt_eq_directory.mpr isRooted⟩

theorem plain_empty : Disk.empty.Plain where
  noLinks := by
    intro place
    cases place with
    | nil => exact nofun
    | cons name rest =>
      rw [empty, tree, FileTree.isLeaf_empty name rest]
      exact nofun
  here := rfl

theorem LeadsBy.place (led : disk.LeadsBy path base names) :
    Path.place disk.here path = base ++ names := by
  obtain ⟨front, shape, led⟩ := led
  rw [Path.place_eq_foldl_way, shape, List.foldl_append, FileTree.foldl_move_of_through _ _ led,
    Path.foldl_move_names]

theorem LeadsBy.approaches (led : disk.LeadsBy path base names) (noDot : ¬ Path.EndsInDot path) :
    disk.Approaches path base names where
  led := led
  ends := by
    obtain ⟨front, shape, -⟩ := led
    intro nonempty
    rw [← List.dropLast_concat_getLast nonempty, List.map_append, ← List.append_assoc] at shape
    exact Path.endsInStep_of_not_endsInDot noDot shape

theorem refusal?_of_isDirectory (isDirectory : disk.isDirectory path = true) :
    Path.refusal? path = none := by
  cases refused : Path.refusal? path with
  | none => rfl
  | some cause =>
    rw [isDirectory_refused refused] at isDirectory
    cases isDirectory

theorem exists_leadsBy_of_isDirectory (plain : disk.Plain)
    (isDirectory : disk.isDirectory path = true) : ∃ base, disk.LeadsBy path base [] := by
  obtain ⟨base, led⟩ := (isDirectory_iff plain (refusal?_of_isDirectory isDirectory)).mp isDirectory
  exact ⟨base, _, (List.append_nil _).symm, led⟩

theorem exists_leadsBy_of_notMem_up (disk : Disk) (noWayUp : .up ∉ Path.steps path) :
    ∃ base names, disk.LeadsBy path base names := by
  obtain ⟨names, shape⟩ := Path.exists_names fun up => noWayUp (List.mem_filter.mp up).1
  by_cases absolute : Path.isAbsolute path = true
  · have top : Path.start path = [.root] := if_pos absolute
    exact ⟨[], names, _, shape, by rw [top]; rfl⟩
  · have nothing : Path.start path = [] := if_neg absolute
    exact ⟨disk.here, names, _, shape, by rw [nothing]; rfl⟩

/-- A project directory that is there or is to be made by names below one that is there. So is every
directory that is there, and every one whose path does not lead upwards. -/
def Hosts (disk : Disk) (directory : String) : Prop :=
  ∃ base names, disk.LeadsBy directory base names

theorem Hosts.join {directory destination : String} (hosts : disk.Hosts directory)
    (noWayUp : .up ∉ Path.steps destination) :
    ∃ base names, disk.LeadsBy (Path.join directory destination) base names := by
  by_cases absolute : Path.isAbsolute destination = true
  · have whole : Path.join directory destination = destination := if_pos absolute
    rw [whole]
    exact exists_leadsBy_of_notMem_up disk noWayUp
  · rw [Bool.not_eq_true] at absolute
    obtain ⟨base, names, front, shape, led⟩ := hosts
    obtain ⟨others, shape'⟩ := Path.exists_names fun up => noWayUp (List.mem_filter.mp up).1
    have nothing : Path.start destination = [] := by rw [Path.start, absolute]; rfl
    rw [nothing, List.nil_append] at shape'
    refine ⟨base, names ++ others, front, ?_, led⟩
    rw [Path.way_join directory absolute, shape, shape', List.append_assoc, List.map_append]

/-- The directory of a new file is there, or leads by names from one that is there. -/
theorem Hosts.approach (plain : disk.Plain) {directory destination : String}
    (hosts : disk.Hosts directory) (noWayUp : .up ∉ Path.steps destination)
    (dotted : Path.EndsInDot (Path.join directory destination) →
      disk.isDirectory (Path.join directory destination) = true) :
    ∃ base names, disk.Approaches (Path.join directory destination) base names := by
  by_cases isDirectory : disk.isDirectory (Path.join directory destination) = true
  · obtain ⟨base, led⟩ := exists_leadsBy_of_isDirectory plain isDirectory
    exact ⟨base, [], led, fun nonempty => absurd rfl nonempty⟩
  · obtain ⟨base, names, led⟩ := hosts.join noWayUp
    exact ⟨base, names, led.approaches fun dot => isDirectory (dotted dot)⟩

end Disk

namespace CreateRequest

/-- The path of the directory of the new file. -/
def folder (r : CreateRequest) (directory : String) : String := Path.join directory r.destination

def connectionName (r : CreateRequest) : String := r.fileName ++ "." ++ connectionExtension

theorem path_eq (r : CreateRequest) (directory : String) :
    r.path directory = Path.join (r.folder directory) r.connectionName :=
  (Path.join_join directory r.destination r.connectionName).symm

/-- The new files of two requests are at different places, and neither of them is where the
directory of the other is, or above it. -/
structure Apart (here : Place) (directory : String) (a b : CreateRequest) : Prop where
  different : Path.place here (a.path directory) ≠ Path.place here (b.path directory)
  notAbove : ¬ Path.place here (a.path directory) <+: Path.place here (b.folder directory)
  notBelow : ¬ Path.place here (b.path directory) <+: Path.place here (a.folder directory)

instance (here : Place) (directory : String) (a b : CreateRequest) :
    Decidable (Apart here directory a b) :=
  decidable_of_iff (_ ∧ _ ∧ _)
    ⟨fun all => ⟨all.1, all.2.1, all.2.2⟩, fun apart => ⟨apart.1, apart.2, apart.3⟩⟩

theorem Apart.symm {here : Place} {directory : String} {a b : CreateRequest}
    (apart : Apart here directory a b) : Apart here directory b a :=
  ⟨apart.different.symm, apart.notBelow, apart.notAbove⟩

/-- The site of the new file, seen from a directory on the way. -/
def site (r : CreateRequest) (directory : String) (base : Place) (names : List String) : Site where
  base := base
  names := names
  file := r.connectionName
  content := (r.fileText directory).toUTF8
  folderRefusal := Path.folderRefusal? (r.folder directory)
  fileRefusal := Path.refusal? (r.path directory)

/-- The answer to a request, by what kept its file from being made. -/
def answer (r : CreateRequest) : Option DiskError → CreateResponse
  | none => ⟨[r.destinationFile], []⟩
  | some cause => r.declined cause

section Write

variable {r : CreateRequest} {directory : String} {disk : Disk}

theorem write_of_refused {after : Disk} {cause : DiskError}
    (refused : disk.ensureDirectories (r.folder directory) = (.error cause, after)) :
    r.write directory disk = (r.declined cause, after) := by
  unfold folder at refused
  rw [write, refused]

theorem write_of_declined {after : Disk} {cause : DiskError}
    (made : disk.ensureDirectories (r.folder directory) = (.ok (), after))
    (declined : after.create (r.path directory) (r.fileText directory).toUTF8 = .error cause) :
    r.write directory disk = (r.declined cause, after) := by
  rw [path_eq] at declined
  unfold folder at made declined
  unfold connectionName at declined
  rw [write, made]
  dsimp only
  rw [declined]

theorem write_of_created {made after : Disk}
    (ready : disk.ensureDirectories (r.folder directory) = (.ok (), made))
    (created : made.create (r.path directory) (r.fileText directory).toUTF8 = .ok after) :
    r.write directory disk = (⟨[r.destinationFile], []⟩, after) := by
  rw [path_eq] at created
  unfold folder at ready created
  unfold connectionName at created
  rw [write, ready]
  dsimp only
  rw [created]

variable {base : Place} {names : List String}

theorem write_eq (plain : disk.Plain) (approaches : disk.Approaches (r.folder directory) base names)
    (isName : Path.IsEntryName r.connectionName) : r.write directory disk =
      (r.answer ((r.site directory base names).cause disk.tree),
        disk.fillAll ((r.site directory base names).additions disk.tree)) := by
  have isDirectory := approaches.led.isDirectory plain
  have grounded := FileTree.grounded_own_openings plain.noLinks isDirectory names
  have cause : (r.site directory base names).cause disk.tree =
      ((Path.folderRefusal? (r.folder directory)).or (disk.tree.obstacle base names)).or
        ((Path.refusal? (r.path directory)).or
          (disk.tree.occupied (base ++ names) r.connectionName)) := rfl
  have additions : (r.site directory base names).additions disk.tree =
      if Path.folderRefusal? (r.folder directory) = none then
        folders (disk.tree.openings base names) ++
          if (r.site directory base names).cause disk.tree = none then
            [(base ++ names ++ [r.connectionName], .file (r.fileText directory).toUTF8)]
          else []
      else [] := rfl
  cases refused : Path.folderRefusal? (r.folder directory) with
  | some stop =>
    rw [refused, Option.some_or, Option.some_or] at cause
    rw [refused, if_neg (Option.some_ne_none _)] at additions
    rw [write_of_refused (Disk.ensureDirectories_refused refused disk), cause, additions]
    rfl
  | none =>
    have nested := Disk.ensureDirectories_eq plain approaches refused
    rw [refused, Option.none_or] at cause
    rw [refused, if_pos rfl] at additions
    cases free : disk.tree.obstacle base names with
    | some stop =>
      rw [free, Option.some_or] at cause
      rw [cause, if_neg (Option.some_ne_none _), List.append_nil] at additions
      rw [free] at nested
      rw [write_of_refused nested, cause, additions]
      rfl
    | none =>
      have led := FileTree.through_of_openings names base (FileTree.blockade_of_obstacle free)
        fun place member => FileTree.kindAt_openings plain.noLinks isDirectory member
      have tree := (Disk.tree_fillAll (folders (disk.tree.openings base names)) disk).1
      have occupied := FileTree.occupied_fillAll plain.noLinks isDirectory names r.connectionName
      have made := Disk.create_eq (plain.fillAll grounded Disk.noLink_folders)
        (approaches.fillAll grounded) isName (tree ▸ led) (r.fileText directory).toUTF8
      rw [tree, occupied, ← path_eq] at made
      rw [free, Option.none_or] at cause
      rw [← cause] at made
      rw [free] at nested
      cases own : (r.site directory base names).cause disk.tree with
      | none =>
        rw [own] at made
        rw [own, if_pos rfl] at additions
        rw [write_of_created nested made, additions, Disk.fillAll_append]
        rfl
      | some stop =>
        rw [own] at made
        rw [own, if_neg (Option.some_ne_none _), List.append_nil] at additions
        rw [write_of_declined nested made, additions]
        rfl

end Write

/-- The site that a request is to build on a disk. -/
structure Builds (r : CreateRequest) (directory : String) (disk : Disk) (s : Site) : Prop where
  approaches : disk.Approaches (r.folder directory) s.base s.names
  isName : Path.IsEntryName r.connectionName
  same : s = r.site directory s.base s.names

namespace Builds

variable {directory : String} {disk : Disk} {a b r : CreateRequest} {s t : Site}

theorem write_eq (builds : r.Builds directory disk s) (plain : disk.Plain) :
    r.write directory disk =
      (r.answer (s.cause disk.tree), disk.fillAll (s.additions disk.tree)) := by
  rw [builds.same]
  exact CreateRequest.write_eq plain builds.approaches builds.isName

theorem grounded (builds : r.Builds directory disk s) (plain : disk.Plain) :
    FileTree.Grounded disk.tree (s.additions disk.tree) :=
  Site.grounded_additions plain.noLinks (builds.approaches.led.isDirectory plain)

theorem fillAll (builds : r.Builds directory disk s) {items : FileTree.Additions}
    (grounded : FileTree.Grounded disk.tree items) : r.Builds directory (disk.fillAll items) s where
  approaches := builds.approaches.fillAll grounded
  isName := builds.isName
  same := builds.same

theorem folder (builds : r.Builds directory disk s) :
    s.folder = Path.place disk.here (r.folder directory) := builds.approaches.led.place.symm

theorem entry (builds : r.Builds directory disk s) :
    s.entry = Path.place disk.here (r.path directory) := by
  have file : s.file = r.connectionName := by rw [builds.same]; rfl
  rw [Site.entry, builds.folder, file, path_eq, Path.place_eq_foldl_way, Path.place_eq_foldl_way,
    builds.isName.way_join, List.foldl_append]
  rfl

theorem apart (builds : a.Builds directory disk s) (builds' : b.Builds directory disk t)
    (apart : Apart disk.here directory a b) : s.Apart t where
  different := by
    rw [builds.entry, builds'.entry]
    exact apart.different
  notAbove := by
    rw [builds.entry, builds'.folder]
    exact apart.notAbove
  notBelow := by
    rw [builds'.entry, builds.folder]
    exact apart.notBelow

end Builds

/-- The answers to requests that are handled one after the other, and the disk behind them. -/
def writeAll (directory : String) : List CreateRequest → Disk → List CreateResponse × Disk
  | [], disk => ([], disk)
  | r :: rest, disk =>
    let (response, disk) := r.write directory disk
    let (others, disk) := writeAll directory rest disk
    (response :: others, disk)

/-- Requests that keep out of each other's way are answered as if each were the first, and build
what each of them would build alone. -/
theorem writeAll_eq {directory : String} (site : CreateRequest → Site)
    (order : List CreateRequest) : ∀ disk : Disk, disk.Plain →
      (∀ r ∈ order, r.Builds directory disk (site r)) →
      order.Pairwise (Apart disk.here directory) → writeAll directory order disk =
        (order.map fun r => r.answer ((site r).cause disk.tree),
          disk.fillAll (order.map fun r => (site r).additions disk.tree).flatten) := by
  induction order with
  | nil => exact fun _ _ _ _ => rfl
  | cons r rest ih =>
    intro disk plain build apart
    obtain ⟨builds, others⟩ := List.forall_mem_cons.mp build
    obtain ⟨fromFirst, among⟩ := List.pairwise_cons.mp apart
    have grounded := builds.grounded plain
    obtain ⟨tree, here⟩ := Disk.tree_fillAll ((site r).additions disk.tree) disk
    have later := ih (disk.fillAll ((site r).additions disk.tree))
      (plain.fillAll grounded fun _ => Site.noLink_of_mem_additions)
      (fun other member => (others other member).fillAll grounded) (by rwa [here])
    have same : ∀ other ∈ rest,
        (site other).cause (disk.tree.fillAll ((site r).additions disk.tree)) =
            (site other).cause disk.tree ∧
          (site other).additions (disk.tree.fillAll ((site r).additions disk.tree)) =
            (site other).additions disk.tree := fun other member =>
      (builds.apart (others other member) (fromFirst other member)).cause_fillAll grounded
    rw [tree, List.map_congr_left fun other member => (same other member).2,
      List.map_congr_left fun other member => congrArg other.answer (same other member).1] at later
    rw [writeAll, builds.write_eq plain]
    dsimp only
    rw [later, List.map_cons, List.map_cons, List.flatten_cons, Disk.fillAll_append]

theorem writeAll_of_refused {directory path : String} {cause : DiskError} {after : Disk}
    (again : after.ensureDirectories path = (.error cause, after)) (order : List CreateRequest) :
    ∀ disk : Disk, disk.ensureDirectories path = (.error cause, after) → order ≠ [] →
      (∀ r ∈ order, r.folder directory = path) →
      writeAll directory order disk = (order.map fun r => r.declined cause, after) := by
  induction order with
  | nil => exact fun _ _ nonempty _ => absurd rfl nonempty
  | cons r rest ih =>
    intro disk refused _ same
    obtain ⟨own, others⟩ := List.forall_mem_cons.mp same
    rw [writeAll, write_of_refused (own ▸ refused)]
    dsimp only
    by_cases last : rest = []
    · subst last
      rfl
    · rw [ih after again last others]
      rfl

/-- In whatever order the requests are handled, each of them gets one and the same answer, and the
disk behind all of them is the same. -/
def AnyOrder (requests : List CreateRequest) (directory : String) (disk : Disk) : Prop :=
  ∃ (answer : CreateRequest → CreateResponse) (after : Disk), ∀ order, order.Perm requests →
    writeAll directory order disk = (order.map answer, after)

/-- Requests for one directory that is refused again and again can be handled in any order. -/
theorem anyOrder_of_refused {requests : List CreateRequest} {directory path : String}
    {disk after : Disk} {cause : DiskError}
    (refused : disk.ensureDirectories path = (.error cause, after))
    (again : after.ensureDirectories path = (.error cause, after)) (nonempty : requests ≠ [])
    (same : ∀ r ∈ requests, r.folder directory = path) : AnyOrder requests directory disk := by
  refine ⟨fun r => r.declined cause, after, fun order perm => ?_⟩
  have some_ : order ≠ [] := by
    rintro rfl
    exact nonempty perm.nil_eq.symm
  exact writeAll_of_refused again order disk refused some_ fun r member =>
    same r (perm.mem_iff.mp member)

theorem anyOrder_of_builds {requests : List CreateRequest} {directory : String} {disk : Disk}
    (plain : disk.Plain) (build : ∀ r ∈ requests, ∃ s, r.Builds directory disk s)
    (apart : requests.Pairwise (Apart disk.here directory)) :
    AnyOrder requests directory disk := by
  choose! site builds using build
  refine ⟨fun r => r.answer ((site r).cause disk.tree),
    disk.fillAll (requests.map fun r => (site r).additions disk.tree).flatten, ?_⟩
  intro order perm
  have members : ∀ r ∈ order, r.Builds directory disk (site r) := fun r member =>
    builds r (perm.mem_iff.mp member)
  have apart' := apart.perm perm.symm Apart.symm
  have grounded : ∀ items ∈ order.map fun r => (site r).additions disk.tree,
      FileTree.Grounded disk.tree items := by
    intro items member
    obtain ⟨r, among, rfl⟩ := List.mem_map.mp member
    exact (members r among).grounded plain
  have agree : (order.map fun r => (site r).additions disk.tree).Pairwise FileTree.Agree := by
    rw [List.pairwise_map]
    refine apart'.imp_of_mem fun {a b} member member' apart => ?_
    exact ((members a member).apart (members b member') apart).agree
  have sameTree := FileTree.fillAll_perm (perm.map fun r => (site r).additions disk.tree) disk.tree
    grounded agree
  rw [writeAll_eq site order disk plain members apart']
  refine Prod.ext rfl (Disk.eq_of_tree ?_ ?_)
  · rw [(Disk.tree_fillAll _ disk).1, (Disk.tree_fillAll _ disk).1, sameTree]
  · rw [(Disk.tree_fillAll _ disk).2, (Disk.tree_fillAll _ disk).2]

theorem createAll_native (run : Runner) (directory : String) (order : List CreateRequest) :
    ∀ disk : Disk, Responder.native.createAll run directory order disk =
      ((order.zip (writeAll directory order disk).1).map fun (r, response) =>
        Report.ofAnswer r.destinationFile (.ok response), (writeAll directory order disk).2) := by
  induction order with
  | nil => exact fun _ => rfl
  | cons r rest ih =>
    intro disk
    rw [Responder.createAll, Responder.create, writeAll]
    dsimp only
    rw [ih]
    rfl

theorem AnyOrder.createAll {requests : List CreateRequest} {directory : String} {disk : Disk}
    (anyOrder : AnyOrder requests directory disk) :
    ∃ (report : CreateRequest → Report) (after : Disk), ∀ order, order.Perm requests → ∀ run,
      Responder.native.createAll run directory order disk = (order.map report, after) := by
  obtain ⟨answer, after, same⟩ := anyOrder
  refine ⟨fun r => Report.ofAnswer r.destinationFile (.ok (answer r)), after, ?_⟩
  intro order perm run
  rw [createAll_native, same order perm, List.zip, List.zipWith_map_right, List.zipWith_self,
    List.map_map]
  rfl

theorem exists_pascal_of_mem {pending : List Pending} {settings : Settings}
    {outDir : Option String} {r : CreateRequest}
    (member : r ∈ groupPending pending settings outDir) :
    ∃ name, r.fileName = Text.pascal name := by
  obtain ⟨file, found⟩ := exists_file_of_mem member
  obtain ⟨p, -, rfl | rfl⟩ := exists_mem_of_requestOf? found <;> exact ⟨_, rfl⟩

theorem isEntryName_of_noSlash {r : CreateRequest} (noSlash : '/' ∉ r.connectionName.toList) :
    Path.IsEntryName r.connectionName := by
  refine ⟨noSlash, ?_⟩
  have long : 3 ≤ r.connectionName.toList.length := by
    simp [connectionName, connectionExtension]
  unfold Path.Component.ofPiece?
  rw [if_neg, if_neg, String.ofList_toList]
  · intro up
    rw [up] at long
    exact absurd long (by decide)
  · intro either
    rcases either with empty | dot
    · rw [empty] at long
      exact absurd long (by decide)
    · rw [dot] at long
      exact absurd long (by decide)

theorem isEntryName_of_mem {pending : List Pending} {settings : Settings} {outDir : Option String}
    {r : CreateRequest} (member : r ∈ groupPending pending settings outDir) :
    Path.IsEntryName r.connectionName := by
  obtain ⟨name, shape⟩ := exists_pascal_of_mem member
  apply isEntryName_of_noSlash
  rw [connectionName, shape]
  exact noSlash_connectionName name

end CreateRequest

/-- The requests for pending links can be handled in any order, if there are no links on the disk,
no destination leads upwards, and no new file is another one or above or at the directory of another
one. The project directory is there or is to be made by names below one that is there. No directory
is made for a path that ends in a dot, so such a destination has to be there, or to be the only
one. -/
theorem anyOrder_groupPending {disk : Disk} (isRooted : disk.IsRooted)
    (noLinks : disk.tree.NoLinks) {pending : List Pending} {settings : Settings}
    {outDir : Option String} {directory : String}
    (noWayUp : ∀ r ∈ groupPending pending settings outDir, .up ∉ Path.steps r.destination)
    (apart : (groupPending pending settings outDir).Pairwise
      (CreateRequest.Apart disk.here directory))
    (hosts : disk.Hosts directory)
    (dotted : ∀ r ∈ groupPending pending settings outDir, Path.EndsInDot (r.folder directory) →
      disk.isDirectory (r.folder directory) = true ∨
        ∀ other ∈ groupPending pending settings outDir, other.destination = r.destination) :
    CreateRequest.AnyOrder (groupPending pending settings outDir) directory disk := by
  have plain := isRooted.plain noLinks
  by_cases stuck : ∃ r ∈ groupPending pending settings outDir,
      Path.EndsInDot (r.folder directory) ∧ disk.isDirectory (r.folder directory) = false
  case pos =>
    obtain ⟨r, member, dot, missing⟩ := stuck
    obtain ⟨base, names, led⟩ := hosts.join (noWayUp r member)
    obtain ⟨cause, after, refused, again⟩ := Disk.ensureDirectories_of_dot plain led dot missing
    have same := (dotted r member dot).resolve_left (by rw [missing]; exact nofun)
    refine CreateRequest.anyOrder_of_refused refused again (List.ne_nil_of_mem member) ?_
    intro other among
    rw [CreateRequest.folder, same other among]
  case neg =>
    refine CreateRequest.anyOrder_of_builds plain (fun r member => ?_) apart
    obtain ⟨base, names, approaches⟩ := hosts.approach plain (noWayUp r member) fun dot => by
      by_contra missing
      exact stuck ⟨r, member, dot, Bool.eq_false_iff.mpr missing⟩
    exact ⟨r.site directory base names, approaches, CreateRequest.isEntryName_of_mem member, rfl⟩

def textInPlace : Disk :=
  Disk.empty.fillAll [(["p"], .directory []), (["p", "docs"], .file "notes".toUTF8)]

/-- Links of files in different directories; one of these is a text. -/
def scattered : List Pending :=
  [exportLink "./badge.tsx" "default" "1:1", exportLink "src/button.tsx" "default" "1:2",
    exportLink "docs/page.tsx" "default" "1:3", exportLink "src/icons/icon.tsx" "default" "1:4"]

theorem anyOrder_groupPending_scattered :
    CreateRequest.AnyOrder (groupPending scattered .standard none) "p" textInPlace ∧
    (CreateRequest.writeAll "p" (groupPending scattered .standard none) textInPlace).1.map
      (·.files.length) = [1, 1, 0, 1] := by
  have plain : textInPlace.Plain := by
    refine Disk.plain_empty.fillAll ⟨⟨[], "p", rfl, rfl⟩, FileTree.isLeaf_empty,
      ⟨["p"], "docs", rfl, by decide +kernel⟩, FileTree.isLeaf_file _, trivial⟩ ?_
    decide +kernel
  refine ⟨anyOrder_groupPending (FileTree.kindAt_eq_directory.mp plain.here) plain.noLinks
    (by decide +kernel) (by decide +kernel) ?_ (by decide +kernel), by decide +kernel⟩
  exact Disk.exists_leadsBy_of_notMem_up _ (by decide +kernel)

/-- Whether a file right in the project directory is made depends on the order, if the project
directory is not there and the path of its source starts with a dot. -/
theorem anyOrder_groupPending_absent :
    ¬ ∀ (disk : Disk) (pending : List Pending) (settings : Settings) (outDir : Option String)
        (directory : String), settings.ecosystem.isNative = true → disk.IsRooted →
      disk.tree.NoLinks →
      (∀ r ∈ groupPending pending settings outDir, .up ∉ Path.steps r.destination) →
      (groupPending pending settings outDir).Pairwise (CreateRequest.Apart disk.here directory) →
      CreateRequest.AnyOrder (groupPending pending settings outDir) directory disk := by
  intro every
  obtain ⟨answer, after, same⟩ := every .empty
    [exportLink "./badge.tsx" "default" "1:1", exportLink "src/button.tsx" "default" "1:2"]
    .standard none "p" rfl ⟨[], rfl⟩ Disk.plain_empty.noLinks (by decide +kernel)
    (by decide +kernel)
  have given := congrArg Prod.fst (same _ (List.Perm.refl _))
  have reversed := congrArg Prod.fst (same _ (List.reverse_perm _))
  dsimp only at given reversed
  rw [List.map_reverse, ← given] at reversed
  have counts := congrArg (List.map fun response => response.files.length) reversed
  exact absurd counts (by decide +kernel)

end DesignLink
