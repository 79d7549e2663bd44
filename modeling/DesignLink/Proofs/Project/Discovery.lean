import DesignLink.Project.Search
import DesignLink.Proofs.Disk.Tidy
import DesignLink.Proofs.Project.Orders
import DesignLink.Proofs.Project.Specifiers
import Mathlib.Data.List.Sort

/-!
Connection files that are found. On a tidy disk a search lists exactly the connection files whose
directories are searched, so what a request makes is found behind it, under the reported path.
-/

namespace DesignLink

/-! Where searches lead. -/

namespace FileTree

variable {tree old new : FileTree} {place base entry : Place}

theorem exists_through_of_track (noLinks : tree.NoLinks) {back : List Path.Component}
    (more : back ≠ []) (front : List Path.Component) :
    ∀ place, tree.track place (front ++ back) = .ok entry →
      ∃ base, tree.through place front = some base := by
  induction front with
  | nil => exact fun place _ => ⟨place, rfl⟩
  | cons step rest ih =>
    intro place led
    cases step with
    | root => exact ih [] led
    | here => exact ih place led
    | up => exact ih place.dropLast led
    | name text =>
      rw [List.cons_append, track_name noLinks] at led
      split_ifs at led with long held last
      case pos => rw [through, if_pos ⟨Nat.le_of_not_lt long, held⟩]; exact ih _ led
      case pos => exact absurd (List.append_eq_nil_iff.mp last).2 more

theorem foldl_move_of_track (noLinks : tree.NoLinks) (steps : List Path.Component) :
    ∀ place, tree.track place steps = .ok entry → steps.foldl Path.move place = entry := by
  induction steps with
  | nil => exact fun place led => Except.ok.inj led
  | cons step rest ih =>
    intro place led
    cases step with
    | root => exact ih [] led
    | here => exact ih place led
    | up => exact ih place.dropLast led
    | name text =>
      rw [track_name noLinks] at led
      split_ifs at led with long held last
      case pos => exact ih _ led
      case pos =>
        subst last
        exact Except.ok.inj led

theorem kindAt_of_keeps (keeps : old.Keeps new) {kind : Kind} (held : old.kindAt place = some kind) :
    new.kindAt place = some kind := by
  obtain ⟨node, found, rfl⟩ := Option.map_eq_some_iff.mp held
  obtain ⟨kept, found', still⟩ := keeps place node found
  rw [kindAt, found', Option.map_some]
  have kind_ {node : FileTree} (isDirectory : node.isDirectory = true) :
      node.kind = .directory := by
    cases node with
    | directory => rfl
    | file => cases isDirectory
    | link => cases isDirectory
  rcases still with rfl | ⟨wasDirectory, isDirectory⟩
  · rfl
  · rw [kind_ wasDirectory, kind_ isDirectory]

/-- Steps that lead down, or stay. -/
def IsDown : Path.Component → Prop
  | .here | .name _ => True
  | .root | .up => False

theorem exists_of_down {steps : List Path.Component} (down : ∀ step ∈ steps, IsDown step) :
    ∀ place, ∃ more, steps.foldl Path.move place = place ++ more := by
  induction steps with
  | nil => exact fun place => ⟨[], (List.append_nil place).symm⟩
  | cons step rest ih =>
    obtain ⟨first, others⟩ := List.forall_mem_cons.mp down
    intro place
    cases step with
    | root => exact first.elim
    | up => exact first.elim
    | here => exact ih others place
    | name text =>
      obtain ⟨more, whole⟩ := ih others (place ++ [text])
      exact ⟨text :: more, by rw [List.foldl_cons, Path.move, whole, List.append_assoc]; rfl⟩

theorem track_of_keeps (keeps : old.Keeps new) (noLinks : old.NoLinks) (noLinks' : new.NoLinks)
    (present : old.kindAt entry ≠ none) {steps : List Path.Component}
    (down : ∀ step ∈ steps, IsDown step) :
    ∀ place, new.track place steps = .ok entry → old.track place steps = .ok entry := by
  induction steps with
  | nil => exact fun _ led => led
  | cons step rest ih =>
    obtain ⟨first, others⟩ := List.forall_mem_cons.mp down
    intro place led
    cases step with
    | root => exact first.elim
    | up => exact first.elim
    | here => exact ih others place led
    | name text =>
      have same : old.kindAt (place ++ [text]) = new.kindAt (place ++ [text]) := by
        obtain ⟨more, whole⟩ := exists_of_down others (place ++ [text])
        have there : old.kindAt (place ++ [text]) ≠ none := by
          intro absent
          apply present
          rw [← foldl_move_of_track noLinks' _ _ led, List.foldl_cons, Path.move, whole]
          exact kindAt_append_of_none absent more
        obtain ⟨kind, held⟩ := Option.ne_none_iff_exists'.mp there
        rw [held, kindAt_of_keeps keeps held]
      rw [track_name noLinks'] at led
      rw [track_name noLinks, same]
      split_ifs at led ⊢ with long held last
      · exact ih others _ led
      · exact led

end FileTree

namespace Search

/-- Whether a search lists a file, by the names that lead to it. -/
def isListed : Place → Bool
  | [] => false
  | [name] => isConnectionName name
  | name :: rest => !isSkippedDirectory name && isListed rest

theorem isListed_cons {rest : Place} (nonempty : rest ≠ []) (name : String) :
    isListed (name :: rest) = (!isSkippedDirectory name && isListed rest) := by
  cases rest with
  | nil => exact absurd rfl nonempty
  | cons next more => rfl

def pathFrom (base : String) (place : Place) : String := place.foldl Path.join base

/-- The paths of the listed files among some places. -/
def pathsFrom (base : String) (places : List Place) : List String :=
  (places.filter isListed).map (pathFrom base)

theorem filesIn_of_each {follow : Follow} {entries : Entries}
    (each : ∀ entry ∈ entries, ∀ (stop : Stop) (outer : List Stop) (base : String),
      stop.relative = Path.join base entry.1 → filesAt follow entry.1 stop outer entry.2 =
        .ok (pathsFrom base (entry.2.filePlaces.map (entry.1 :: ·))))
    (stop : Stop) (outer : List Stop) : filesIn follow stop outer entries =
      .ok (pathsFrom stop.relative
        (entries.flatMap fun entry => entry.2.filePlaces.map (entry.1 :: ·))) := by
  induction entries with
  | nil => simp [filesIn, pathsFrom]
  | cons entry rest ih =>
    obtain ⟨here, others⟩ := List.forall_mem_cons.mp each
    obtain ⟨name, node⟩ := entry
    have first := here ⟨stop.place ++ [name], Path.join stop.path name,
      Path.join stop.relative name⟩ (stop :: outer) stop.relative rfl
    rw [filesIn, first, ok_bind, ih others, ok_bind, List.flatMap_cons, pathsFrom, pathsFrom,
      pathsFrom, List.filter_append, List.map_append]
    rfl

theorem filesAt_eq {follow : Follow} {tree : FileTree} (tidy : tree.Tidy) :
    ∀ (name : String) (stop : Stop) (outer : List Stop) (base : String),
      stop.relative = Path.join base name → filesAt follow name stop outer tree =
        .ok (pathsFrom base (tree.filePlaces.map (name :: ·))) := by
  induction tidy with
  | file content =>
    intro name stop outer base same
    have places : (FileTree.file content).filePlaces = [[]] := rfl
    rw [filesAt, places, same]
    cases connection : isConnectionName name <;>
      simp [pathsFrom, isListed, pathFrom, connection]
  | @directory entries own each ih =>
    intro name stop outer base same
    have tidy := FileTree.Tidy.directory own each
    have nonempty : ∀ place ∈ (FileTree.directory entries).filePlaces, place ≠ [] := by
      rintro _ member rfl
      obtain ⟨content, found⟩ := tidy.mem_filePlaces.mp member
      cases found
    have within : pathsFrom base ((FileTree.directory entries).filePlaces.map (name :: ·)) =
        if isSkippedDirectory name then []
        else pathsFrom stop.relative (FileTree.directory entries).filePlaces := by
      rw [pathsFrom, List.filter_map, List.map_map, same]
      cases skipped : isSkippedDirectory name with
      | true =>
        rw [if_pos rfl, List.map_eq_nil_iff, List.filter_eq_nil_iff]
        intro place member
        simp [isListed_cons (nonempty place member), skipped]
      | false =>
        rw [if_neg Bool.false_ne_true, pathsFrom]
        refine congrArg (List.map _) (List.filter_congr fun place member => ?_)
        simp [isListed_cons (nonempty place member), skipped]
    rw [filesAt, within]
    split
    case isTrue => rfl
    case isFalse =>
      rw [filesIn_of_each (fun entry among => ih entry among entry.1), tidy.filePlaces_directory]

def slashed (path : String) : String :=
  String.ofList (path.toList.map fun c => if c = '\\' then '/' else c)

theorem slashed_of_noBackslash {path : String} (noBackslash : '\\' ∉ path.toList) :
    slashed path = path := by
  have same : path.toList.map (fun c => if c = '\\' then '/' else c) = path.toList := by
    refine (List.map_congr_left fun c member => if_neg ?_).trans (List.map_id _)
    rintro rfl
    exact noBackslash member
  rw [slashed, same, String.ofList_toList]

theorem sorted_perm (files : List String) : (sorted files).Perm (files.map slashed) :=
  List.mergeSort_perm _ _

theorem sorted_nil : sorted [] = [] := List.mergeSort_nil

theorem pairwise_sorted (files : List String) : (sorted files).Pairwise (· ≤ ·) :=
  List.pairwise_mergeSort' (· ≤ ·) _

theorem sorted_congr {files others : List String} (perm : files.Perm others) :
    sorted files = sorted others :=
  (((sorted_perm files).trans (perm.map slashed)).trans (sorted_perm others).symm).eq_of_pairwise'
    (pairwise_sorted files) (pairwise_sorted others)

/-- A name that is spelled in paths as it is. -/
structure IsPlainName (name : String) : Prop where
  isName : Path.IsEntryName name
  noBackslash : '\\' ∉ name.toList

section Names

variable {place other : Place}

theorem isLink_of_isEntryName (areNames : ∀ name ∈ place, Path.IsEntryName name) :
    ∀ step ∈ place.map Path.Component.name, Path.IsLink step := by
  intro step member
  obtain ⟨name, among, rfl⟩ := List.mem_map.mp member
  exact ⟨(areNames name among).noSlash, (areNames name among).isStep⟩

theorem pathFrom_eq_linkText (areNames : ∀ name ∈ place, Path.IsEntryName name) :
    pathFrom "" place = Path.linkText (place.map .name) := by
  rw [← Path.foldl_join (isLink_of_isEntryName areNames), List.foldl_map]
  rfl

theorem pathFrom_eq_intercalate (areNames : ∀ name ∈ place, Path.IsEntryName name) :
    pathFrom "" place = String.intercalate "/" place := by
  rw [pathFrom_eq_linkText areNames, Path.linkText, ← String.toList_inj, String.toList_intercalate,
    String.toList_ofList, Path.joinPieces_eq_intercalate, List.map_map]
  rfl

theorem slashed_pathFrom (plain : ∀ name ∈ place, IsPlainName name) :
    slashed (pathFrom "" place) = pathFrom "" place := by
  refine slashed_of_noBackslash fun backslash => ?_
  rw [pathFrom_eq_linkText fun name among => (plain name among).isName, Path.linkText,
    String.toList_ofList] at backslash
  rcases Path.mem_joinPieces backslash with slash | ⟨piece, among, inside⟩
  · cases slash
  · rw [List.map_map] at among
    obtain ⟨name, member, rfl⟩ := List.mem_map.mp among
    exact (plain name member).noBackslash inside

theorem pathFrom_inj (areNames : ∀ name ∈ place, Path.IsEntryName name)
    (areNames' : ∀ name ∈ other, Path.IsEntryName name)
    (same : pathFrom "" place = pathFrom "" other) : place = other := by
  rw [pathFrom_eq_linkText areNames, pathFrom_eq_linkText areNames'] at same
  have ways := congrArg Path.way same
  rw [Path.way_linkText (isLink_of_isEntryName areNames),
    Path.way_linkText (isLink_of_isEntryName areNames')] at ways
  exact List.map_injective_iff.mpr (fun _ _ => Path.Component.name.inj) ways

end Names

end Search

/-! What is found on a disk. -/

namespace Disk

open Search

variable {disk before after : Disk} {directory : String} {place : Place}

/-- The places below a directory that a search lists. -/
def listed (disk : Disk) (place : Place) : List Place :=
  match disk.tree.at? place with
  | some node => node.filePlaces.filter isListed
  | none => []

theorem mem_listed (tidy : disk.tree.Tidy) {below : Place} : below ∈ disk.listed place ↔
    isListed below = true ∧ ∃ content, disk.HasFile (place ++ below) content := by
  unfold listed HasFile
  rw [FileTree.at?_append]
  cases held : disk.tree.at? place with
  | none => simp
  | some node => simp [List.mem_filter, (tidy.at? held).mem_filePlaces, and_comm]

theorem nodup_listed (tidy : disk.tree.Tidy) : (disk.listed place).Nodup := by
  unfold listed
  cases held : disk.tree.at? place with
  | none => exact List.nodup_nil
  | some node => exact ((tidy.at? held).nodup_files []).filter _

def found (disk : Disk) (place : Place) : List String :=
  sorted ((disk.listed place).map (pathFrom ""))

theorem exists_of_find {path : String} {node : FileTree} (led : disk.find path = .ok (place, node)) :
    disk.target path = .ok place ∧ disk.tree.at? place = some node := by
  obtain ⟨place', target, rest⟩ := exists_of_bind led
  split at rest
  case h_1 node' held =>
    obtain ⟨rfl, rfl⟩ := Prod.mk.inj (Except.ok.inj rest)
    exact ⟨target, held⟩
  case h_2 => cases rest

theorem find_of_target {path : String} {node : FileTree} (target : disk.target path = .ok place)
    (held : disk.tree.at? place = some node) : disk.find path = .ok (place, node) := by
  rw [find, target, ok_bind, held]

/-- A search of a directory that holds each name once lists what it holds, whatever stands around
it. -/
theorem connectionFiles_of_tidy {entries : Entries}
    (tidy : (FileTree.directory entries).Tidy)
    (led : disk.find directory = .ok (place, .directory entries)) :
    disk.connectionFiles directory = .ok (disk.found place) := by
  have places : disk.listed place = (FileTree.directory entries).filePlaces.filter isListed := by
    rw [listed, (exists_of_find led).2]
  have within := tidy.filePlaces_directory
  rw [connectionFiles, led]
  dsimp only
  cases tidy with
  | directory _ each =>
    rw [filesIn_of_each (fun entry among => filesAt_eq (each entry among) entry.1), ok_bind,
      ← within, found, places]
    rfl

theorem connectionFiles_of_find (tidy : disk.tree.Tidy) {entries : Entries}
    (led : disk.find directory = .ok (place, .directory entries)) :
    disk.connectionFiles directory = .ok (disk.found place) :=
  connectionFiles_of_tidy (tidy.at? (exists_of_find led).2) led

theorem track_of_target (noLinks : disk.tree.NoLinks) {path : String}
    (target : disk.target path = .ok place) :
    Path.refusal? path = none ∧ disk.tree.track disk.here (Path.steps path) = .ok place := by
  rw [Disk.target, FileTree.resolve_eq_track noLinks] at target
  cases refused : Path.refusal? path with
  | none =>
    rw [refused] at target
    exact ⟨rfl, target⟩
  | some cause =>
    rw [refused] at target
    cases target

theorem target_eq_entry (noLinks : disk.tree.NoLinks) (path : String) :
    disk.target path = disk.entry path := by
  rw [Disk.target, Disk.entry, FileTree.resolve_eq_track noLinks,
    FileTree.resolve_eq_track noLinks]

theorem place_of_target (noLinks : disk.tree.NoLinks) {path : String}
    (target : disk.target path = .ok place) : Path.place disk.here path = place :=
  FileTree.foldl_move_of_track noLinks _ _ (track_of_target noLinks target).2

/-- Where a project directory leads on a disk that has grown, it led before if something was
there. -/
theorem Hosts.target_of_grows (hosts : before.Hosts directory) (noLinks : before.tree.NoLinks)
    (noLinks' : after.tree.NoLinks) (grows : before.Grows after)
    (target : after.target directory = .ok place) (present : before.tree.kindAt place ≠ none) :
    before.target directory = .ok place := by
  obtain ⟨fine, led⟩ := track_of_target noLinks' target
  obtain ⟨base, names, front, shape, through⟩ := hosts
  obtain ⟨steps, rest, whole, front_, names_⟩ := List.filter_eq_append_iff.mp shape
  rw [← front_, FileTree.through_filter] at through
  have through' := FileTree.through_of_stays
    (fun _ held => FileTree.kindAt_of_keeps grows.keeps held) steps before.here through
  have down : ∀ step ∈ rest, FileTree.IsDown step := by
    intro step member
    by_cases here : step = .here
    · rw [here]
      trivial
    · have among : step ∈ rest.filter (· ≠ .here) :=
        List.mem_filter.mpr ⟨member, by simpa using here⟩
      rw [names_] at among
      obtain ⟨name, -, rfl⟩ := List.mem_map.mp among
      trivial
  rw [whole, grows.here, FileTree.track_through noLinks' _ _ _ through'] at led
  rw [Disk.target, FileTree.resolve_eq_track noLinks, fine, whole]
  dsimp only
  rw [FileTree.track_through noLinks _ _ _ through]
  exact FileTree.track_of_keeps grows.keeps noLinks noLinks' present down base led

/-- Before a disk grew, a search found what was below the place that it now leads to. -/
theorem Hosts.connectionFiles_of_grows (hosts : before.Hosts directory) (tidy : before.tree.Tidy)
    (tidy' : after.tree.Tidy) (grows : before.Grows after) {entries : Entries}
    (led : after.find directory = .ok (place, .directory entries)) :
    before.connectionFiles directory = .ok (before.found place) := by
  obtain ⟨target, held⟩ := exists_of_find led
  cases there : before.tree.at? place with
  | none =>
    have nothing : before.found place = [] := by
      rw [found, listed, there, List.map_nil, sorted_nil]
    rw [connectionFiles, nothing]
    split
    case h_1 => rfl
    case h_2 place' entries' led' =>
      obtain ⟨target', held'⟩ := exists_of_find led'
      rw [← place_of_target tidy.noLinks target', ← grows.here,
        place_of_target tidy'.noLinks target, there] at held'
      cases held'
    case h_3 place' node' _ led' =>
      obtain ⟨target', held'⟩ := exists_of_find led'
      rw [← place_of_target tidy.noLinks target', ← grows.here,
        place_of_target tidy'.noLinks target, there] at held'
      cases held'
  | some node =>
    have kind : before.tree.kindAt place = some node.kind := by
      rw [FileTree.kindAt, there, Option.map_some]
    have target' := hosts.target_of_grows tidy.noLinks tidy'.noLinks grows target
      (by rw [kind]; exact Option.some_ne_none _)
    have led' := find_of_target target' there
    have kind' := FileTree.kindAt_of_keeps grows.keeps kind
    rw [FileTree.kindAt, held] at kind'
    cases node with
    | directory entries' => exact connectionFiles_of_find tidy led'
    | file => cases kind'
    | link => cases kind'

theorem found_congr {place : Place} (perm : (before.listed place).Perm (after.listed place)) :
    before.found place = after.found place := sorted_congr (perm.map _)

theorem Hosts.connectionFiles_of_sameFiles (hosts : before.Hosts directory)
    (tidy : before.tree.Tidy) (tidy' : after.tree.Tidy) (grows : before.Grows after)
    (sameFiles : before.SameFiles after) :
    after.connectionFiles directory = before.connectionFiles directory := by
  cases led : after.find directory with
  | error cause =>
    have nothing : ∃ cause, before.find directory = .error cause := by
      cases led' : before.find directory with
      | error cause => exact ⟨cause, rfl⟩
      | ok pair =>
        obtain ⟨place, node⟩ := pair
        obtain ⟨target, held⟩ := exists_of_find led'
        obtain ⟨kept, held', -⟩ := grows.keeps place node held
        rw [target_eq_entry tidy.noLinks] at target
        have target' := grows.entry target
        rw [← target_eq_entry tidy'.noLinks] at target'
        rw [find_of_target target' held'] at led
        cases led
    obtain ⟨cause', led'⟩ := nothing
    rw [connectionFiles, connectionFiles, led, led']
  | ok pair =>
    obtain ⟨place, node⟩ := pair
    cases node with
    | directory entries =>
      have perm : (before.listed place).Perm (after.listed place) := by
        rw [List.perm_ext_iff_of_nodup (nodup_listed tidy) (nodup_listed tidy')]
        intro below
        simp only [mem_listed tidy, mem_listed tidy', sameFiles (place ++ below)]
      rw [connectionFiles_of_find tidy' led, hosts.connectionFiles_of_grows tidy tidy' grows led,
        found_congr perm]
    | file content =>
      obtain ⟨target, held⟩ := exists_of_find led
      have held' : before.HasFile place content := (sameFiles place content).mp held
      have present : before.tree.kindAt place ≠ none := by
        rw [FileTree.kindAt, held']
        exact Option.some_ne_none _
      have led' := find_of_target
        (hosts.target_of_grows tidy.noLinks tidy'.noLinks grows target present) held'
      rw [connectionFiles, connectionFiles, led, led']
    | link text =>
      obtain ⟨target, held⟩ := exists_of_find led
      cases tidy'.at? held

theorem exists_connectionFiles (tidy : disk.tree.Tidy) (directory : String) :
    ∃ files, disk.connectionFiles directory = .ok files := by
  cases led : disk.find directory with
  | error cause => exact ⟨[], by rw [connectionFiles, led]⟩
  | ok pair =>
    obtain ⟨place, node⟩ := pair
    cases node with
    | directory entries => exact ⟨_, connectionFiles_of_find tidy led⟩
    | file content => exact ⟨_, by rw [connectionFiles, led]⟩
    | link text => exact ⟨_, by rw [connectionFiles, led]⟩

/-- The files below a place have names that are spelled in paths as they are. -/
def PlainNames (disk : Disk) (place : Place) : Prop :=
  ∀ below content, disk.HasFile (place ++ below) content → ∀ name ∈ below, IsPlainName name

theorem found_perm {new : Place} (plain : ∀ name ∈ new, IsPlainName name)
    (perm : (after.listed place).Perm (before.listed place ++ [new])) :
    (after.found place).Perm (before.found place ++ [pathFrom "" new]) := by
  have own : slashed (pathFrom "" new) = pathFrom "" new := slashed_pathFrom plain
  have spelled := (perm.map (pathFrom "")).map slashed
  rw [List.map_append, List.map_append, List.map_singleton, List.map_singleton, own] at spelled
  have before_ := (sorted_perm ((before.listed place).map (pathFrom ""))).symm
  exact ((sorted_perm _).trans spelled).trans (before_.append_right _)

theorem pairwise_found (once : (disk.listed place).Nodup)
    (plain : ∀ below ∈ disk.listed place, ∀ name ∈ below, IsPlainName name) :
    (disk.found place).Pairwise (· < ·) := by
  have spelled : ((disk.listed place).map (pathFrom "")).map slashed =
      (disk.listed place).map (pathFrom "") := by
    rw [List.map_map]
    exact List.map_congr_left fun below member => slashed_pathFrom (plain below member)
  have distinct : ((disk.listed place).map (pathFrom "")).Nodup :=
    once.map_on fun below member other member' same =>
      pathFrom_inj (fun name among => (plain below member name among).isName)
        (fun name among => (plain other member' name among).isName) same
  have foundOnce : (disk.found place).Nodup := by
    have perm := sorted_perm ((disk.listed place).map (pathFrom ""))
    rw [spelled] at perm
    exact perm.nodup_iff.mpr distinct
  exact ((pairwise_sorted _).and foundOnce).imp fun both => lt_of_le_of_ne both.1 both.2

end Disk

/-! Requests. -/

namespace CreateRequest

open Search

structure IsSearchedName (name : String) : Prop where
  nonempty : name ≠ ""
  noSlash : '/' ∉ name.toList
  notHidden : name.toList.head? ≠ some '.'
  notPackages : name ≠ "node_modules"

variable {r : CreateRequest} {names : List String}

theorem IsSearchedName.isEntryName {name : String} (searched : IsSearchedName name) :
    Path.IsEntryName name := by
  refine ⟨searched.noSlash, ?_⟩
  have nonempty : name.toList ≠ [] := fun empty =>
    searched.nonempty (String.toList_eq_nil_iff.mp empty)
  have noDot (rest : List Char) : name.toList ≠ '.' :: rest := fun dot =>
    searched.notHidden (by rw [dot]; rfl)
  rw [Path.Component.ofPiece?, if_neg (not_or.mpr ⟨nonempty, noDot _⟩), if_neg (noDot _),
    String.ofList_toList]

theorem IsSearchedName.notSkipped {name : String} (searched : IsSearchedName name) :
    isSkippedDirectory name = false := by
  simp [isSkippedDirectory, searched.notPackages, searched.notHidden]

theorem isConnectionName_connectionName (r : CreateRequest) :
    isConnectionName r.connectionName = true := by
  rw [isConnectionName, List.any_eq_true]
  refine ⟨".figma.tsx", by decide, ?_⟩
  rw [List.isSuffixOf_iff_suffix, connectionName, String.append_assoc, String.toList_append]
  exact List.suffix_append _ _

theorem isListed_new (searched : ∀ name ∈ names, IsSearchedName name) (r : CreateRequest) :
    isListed (names ++ [r.connectionName]) = true := by
  induction names with
  | nil => exact isConnectionName_connectionName r
  | cons name rest ih =>
    obtain ⟨first, others⟩ := List.forall_mem_cons.mp searched
    rw [List.cons_append, isListed_cons (by simp), first.notSkipped, ih others]
    rfl

section Spelled

variable (destination : r.destination = String.intercalate "/" names)
  (areNames : ∀ name ∈ names, Path.IsEntryName name)
include destination areNames

theorem destinationFile_eq :
    r.destinationFile = pathFrom "" (names ++ [r.connectionName]) := by
  have folder : r.destination = pathFrom "" names := by
    rw [destination, pathFrom_eq_intercalate areNames]
  rw [pathFrom, List.foldl_append, List.foldl_cons, List.foldl_nil]
  rw [pathFrom] at folder
  rw [← folder]
  rfl

omit destination in
theorem areNames_new (isName : Path.IsEntryName r.connectionName) :
    ∀ name ∈ names ++ [r.connectionName], Path.IsEntryName name := by
  intro name member
  rcases List.mem_append.mp member with among | own
  · exact areNames name among
  · exact List.mem_singleton.mp own ▸ isName

theorem isAbsolute_destinationFile (isName : Path.IsEntryName r.connectionName) :
    Path.isAbsolute r.destinationFile = false := by
  have all := areNames_new areNames isName
  rw [destinationFile_eq destination areNames, pathFrom_eq_linkText all]
  exact Path.isAbsolute_linkText (isLink_of_isEntryName all)

theorem way_path (isName : Path.IsEntryName r.connectionName) (directory : String) :
    Path.way (r.path directory) =
      Path.way directory ++ (names ++ [r.connectionName]).map .name := by
  have all := areNames_new areNames isName
  rw [path, Path.way_join directory (isAbsolute_destinationFile destination areNames isName),
    destinationFile_eq destination areNames, pathFrom_eq_linkText all,
    Path.way_linkText (isLink_of_isEntryName all)]

theorem exists_find_of_entry {disk : Disk} (isRooted : disk.IsRooted)
    (noLinks : disk.tree.NoLinks) (isName : Path.IsEntryName r.connectionName)
    {directory : String} (nonempty : directory ≠ "") {place : Place}
    (led : disk.entry (r.path directory) = .ok place) :
    ∃ outer entries, disk.find directory = .ok (outer, .directory entries) ∧
      place = outer ++ (names ++ [r.connectionName]) := by
  have relative := isAbsolute_destinationFile destination areNames isName
  rw [← Disk.target_eq_entry noLinks] at led
  obtain ⟨fine, led⟩ := Disk.track_of_target noLinks led
  have ends : (Path.steps (r.path directory)).getLast? ≠ some .here := by
    rw [path_eq]
    exact (isName.endsInStep_join _).getLast?_steps
  have filtered := FileTree.track_filter noLinks _ disk.here ends
  have way : (Path.steps (r.path directory)).filter (· ≠ .here) = _ :=
    way_path destination areNames isName directory
  rw [led, way] at filtered
  obtain ⟨outer, through⟩ := FileTree.exists_through_of_track noLinks (by simp) _ _ filtered
  have isDirectory := FileTree.isDirectory_through rfl _ _
    (FileTree.kindAt_eq_directory.mpr isRooted) through
  rw [FileTree.track_through noLinks _ _ _ through] at filtered
  have here := FileTree.foldl_move_of_track noLinks _ _ filtered
  rw [Path.foldl_move_names] at here
  have fine' : Path.refusal? directory = none := by
    refine Path.refusal?_of_front nonempty ?_ fine
    rw [path, Path.join_of_relative relative, String.append_assoc, String.toList_append]
    exact List.prefix_append _ _
  rw [FileTree.through_way] at through
  have target : disk.target directory = .ok outer := by
    rw [Disk.target, FileTree.resolve_eq_track noLinks, fine']
    exact FileTree.track_of_through noLinks through
  obtain ⟨entries, held⟩ := FileTree.kindAt_eq_directory.mp isDirectory
  exact ⟨outer, entries, Disk.find_of_target target held, here.symm⟩

omit destination areNames in
theorem listed_of_new (searched : ∀ name ∈ names, IsSearchedName name) {before after : Disk}
    (tidy : before.tree.Tidy) (tidy' : after.tree.Tidy) {outer place : Place} {content : ByteArray}
    (here : place = outer ++ (names ++ [r.connectionName])) (absent : before.tree.at? place = none)
    (files : ∀ asked found, after.HasFile asked found ↔
      before.HasFile asked found ∨ asked = place ∧ found = content) :
    (after.listed outer).Perm (before.listed outer ++ [names ++ [r.connectionName]]) := by
  have new : names ++ [r.connectionName] ∉ before.listed outer := by
    rw [Disk.mem_listed tidy, ← here]
    rintro ⟨-, content, held⟩
    rw [Disk.HasFile, absent] at held
    cases held
  have distinct : (before.listed outer ++ [names ++ [r.connectionName]]).Nodup :=
    List.nodup_append.mpr ⟨Disk.nodup_listed tidy, List.nodup_singleton _, fun below member other own =>
      by
        rw [List.mem_singleton.mp own]
        rintro rfl
        exact new member⟩
  rw [List.perm_ext_iff_of_nodup (Disk.nodup_listed tidy') distinct]
  intro below
  rw [Disk.mem_listed tidy', List.mem_append, Disk.mem_listed tidy, List.mem_singleton]
  constructor
  · rintro ⟨isListed, found, held⟩
    rcases (files _ _).mp held with before | ⟨same, -⟩
    · exact .inl ⟨isListed, found, before⟩
    · rw [here] at same
      exact .inr (List.append_cancel_left same)
  · rintro (⟨isListed, found, held⟩ | rfl)
    · exact ⟨isListed, found, (files _ _).mpr (.inl held)⟩
    · exact ⟨isListed_new searched r, content, (files _ _).mpr (.inr ⟨here.symm, rfl⟩)⟩

end Spelled

theorem isPlainName_connectionName {pending : List Pending} {settings : Settings}
    {outDir : Option String} (member : r ∈ groupPending pending settings outDir) :
    IsPlainName r.connectionName := by
  refine ⟨isEntryName_of_mem member, ?_⟩
  obtain ⟨name, shape⟩ := exists_pascal_of_mem member
  obtain ⟨c, rest, text, starts, alphanum⟩ := Text.exists_pascal name
  rw [List.all_eq_true] at alphanum
  have first : c ≠ '\\' := by
    rintro rfl
    rcases starts with upper | underscore
    · cases upper
    · cases underscore
  have later : '\\' ∉ rest := fun backslash => by cases alphanum '\\' backslash
  simp [connectionName, connectionExtension, shape, text, Ne.symm first, later]

/-- The request made its file, and a search finds it with those that it found before, in order;
each of them once if the names on the way are plain. -/
structure Discovers (r : CreateRequest) (directory : String) (before : Disk)
    (response : CreateResponse) (after : Disk) (files : List String) : Prop where
  created : response = ⟨[r.destinationFile], []⟩
  found : ∃ files', after.connectionFiles directory = .ok files' ∧
    files'.Perm (files ++ [r.destinationFile]) ∧ files'.Pairwise (· ≤ ·) ∧
    (before.PlainNames (Path.place before.here directory) → files'.Pairwise (· < ·))

/-- The request was declined, and a search finds what it found before. -/
structure Preserves (directory : String) (response : CreateResponse) (after : Disk)
    (files : List String) : Prop where
  declined : response.files = [] ∧ ∃ message, response.messages = [message] ∧ message.level = .error
  found : after.connectionFiles directory = .ok files

/-- What a request makes is found: its file if it made one, under the path that it reports, and
nothing new otherwise. The destination is a path of names, none of which is hidden, that of packages
or holds a backslash. -/
theorem write_discovered {disk : Disk} (isRooted : disk.IsRooted) (tidy : disk.tree.Tidy)
    {pending : List Pending} {settings : Settings} {outDir : Option String} {r : CreateRequest}
    (member : r ∈ groupPending pending settings outDir) {names : List String}
    (destination : r.destination = String.intercalate "/" names)
    (searched : ∀ name ∈ names, IsSearchedName name)
    (noBackslash : ∀ name ∈ names, '\\' ∉ name.toList) {directory : String}
    (nonempty : directory ≠ "") (hosts : disk.Hosts directory) :
    ∃ files, disk.connectionFiles directory = .ok files ∧
      (r.Discovers directory disk (r.write directory disk).1 (r.write directory disk).2 files ∨
        Preserves directory (r.write directory disk).1 (r.write directory disk).2 files) := by
  have isName := isEntryName_of_mem member
  have areNames : ∀ name ∈ names, Path.IsEntryName name := fun name among =>
    (searched name among).isEntryName
  have tidy' := tidy_write tidy r directory
  obtain ⟨grows, step⟩ := r.write_step directory isRooted
  rcases step with creates | declines
  · obtain ⟨place, led, absent, files⟩ := creates.new
    obtain ⟨outer, entries, found, here⟩ := exists_find_of_entry destination areNames
      (grows.isRooted isRooted) tidy'.noLinks isName nonempty led
    have perm := listed_of_new searched tidy tidy' here absent files
    have plainNew : ∀ name ∈ names ++ [r.connectionName], IsPlainName name := by
      intro name among
      rcases List.mem_append.mp among with front | own
      · exact ⟨areNames name front, noBackslash name front⟩
      · exact List.mem_singleton.mp own ▸ isPlainName_connectionName member
    refine ⟨_, hosts.connectionFiles_of_grows tidy tidy' grows found, .inl ⟨?_, ?_⟩⟩
    · cases response : (r.write directory disk).1 with
      | mk files messages =>
        have same := creates.files
        have none_ := creates.messages
        rw [response] at same none_
        rw [show files = [r.destinationFile] from same, show messages = [] from none_]
    · refine ⟨_, Disk.connectionFiles_of_find tidy' found, ?_, pairwise_sorted _, fun plain => ?_⟩
      · rw [destinationFile_eq destination areNames]
        exact Disk.found_perm plainNew perm
      · refine Disk.pairwise_found (Disk.nodup_listed tidy') fun below among => ?_
        rcases List.mem_append.mp (perm.mem_iff.mp among) with before | new
        · obtain ⟨-, content, held⟩ := (Disk.mem_listed tidy).mp before
          have there := Disk.place_of_target tidy'.noLinks (Disk.exists_of_find found).1
          rw [← there, grows.here] at held
          exact plain below content held
        · rw [List.mem_singleton.mp new]
          exact plainNew
  · obtain ⟨files, before⟩ := Disk.exists_connectionFiles tidy directory
    refine ⟨files, before, .inr ⟨⟨declines.files, declines.messages⟩, ?_⟩⟩
    rw [hosts.connectionFiles_of_sameFiles tidy tidy' grows declines.sameFiles, before]

/-- The request for a single link. -/
def alone (p : Pending) : CreateRequest := .multi (p.multiRequest .standard none)

theorem alone_mem (p : Pending) : alone p ∈ groupPending [p] .standard none :=
  List.mem_singleton_self _

def buttonAlone : CreateRequest := alone (exportLink "src/button.tsx" "default" "1:2")

theorem write_discovered_button : buttonAlone.Discovers "p" .empty
    (buttonAlone.write "p" .empty).1 (buttonAlone.write "p" .empty).2 [] := by
  have searched : ∀ name ∈ ["src"], IsSearchedName name := by
    intro name member
    obtain rfl := List.mem_singleton.mp member
    exact ⟨by decide, by decide, by decide, by decide⟩
  have made : (buttonAlone.write "p" .empty).1.files.length = 1 := by decide +kernel
  have nothing : Disk.empty.connectionFiles "p" = .ok [] := rfl
  have rooted : Disk.empty.IsRooted := ⟨[], rfl⟩
  have destination : buttonAlone.destination = String.intercalate "/" ["src"] := by
    decide +kernel
  have nonempty : "p" ≠ "" := by decide
  have hosts : Disk.empty.Hosts "p" := Disk.exists_leadsBy_of_notMem_up .empty (by decide)
  obtain ⟨files, before, discovered⟩ := write_discovered rooted FileTree.tidy_empty (alone_mem _)
    destination searched (by decide) nonempty hosts
  rw [nothing] at before
  obtain rfl := Except.ok.inj before
  refine discovered.resolve_right fun preserves => ?_
  exact absurd (made.symm.trans (congrArg List.length preserves.declined.1)) (by decide)

def slantedAlone : CreateRequest := alone (exportLink "a\\b/Card.tsx" "default" "1:2")

/-- A file in a directory with a backslash in its name is reported by its path, but found under
another one. -/
theorem write_discovered_backslash : ¬ ∀ (disk : Disk) (pending : List Pending)
    (settings : Settings) (outDir : Option String) (r : CreateRequest) (names : List String)
    (directory : String), disk.IsRooted → disk.tree.Tidy →
      r ∈ groupPending pending settings outDir →
      r.destination = String.intercalate "/" names → (∀ name ∈ names, IsSearchedName name) →
      directory ≠ "" → disk.Hosts directory →
      ∃ files, disk.connectionFiles directory = .ok files ∧
        (r.Discovers directory disk (r.write directory disk).1 (r.write directory disk).2 files ∨
          Preserves directory (r.write directory disk).1 (r.write directory disk).2 files) := by
  intro every
  have searched : ∀ name ∈ ["a\\b"], IsSearchedName name := by
    intro name member
    obtain rfl := List.mem_singleton.mp member
    exact ⟨by decide, by decide, by decide, by decide⟩
  have nothing : Disk.empty.connectionFiles "p" = .ok [] := rfl
  have destination : slantedAlone.destination = String.intercalate "/" ["a\\b"] := by
    decide +kernel
  have hosts : Disk.empty.Hosts "p" := Disk.exists_leadsBy_of_notMem_up .empty (by decide)
  obtain ⟨files, before, outcome⟩ := every .empty _ .standard none slantedAlone ["a\\b"] "p"
    ⟨[], rfl⟩ FileTree.tidy_empty (alone_mem _) destination searched (by decide) hosts
  rw [nothing] at before
  obtain rfl := Except.ok.inj before
  have listed : (slantedAlone.write "p" .empty).2.connectionFiles "p" =
      .ok ["a/b/Card.figma.tsx"] := toOption_eq_some.mp (by decide +kernel)
  rcases outcome with discovers | preserves
  · obtain ⟨files', after, perm, -, -⟩ := discovers.found
    rw [listed] at after
    obtain rfl := Except.ok.inj after
    have same := List.singleton_perm_singleton.mp perm
    exact absurd same (by decide +kernel)
  · have after := preserves.found
    rw [listed] at after
    cases after

end CreateRequest

end DesignLink
