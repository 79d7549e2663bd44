import DesignLink.Proofs.Project.Discovery
import DesignLink.Proofs.Text.ByteOrder

/-!
Searches are exact. What is found in a directory without links are its connection files outside the
directories that are left out, each once, in the order of the bytes of their paths, however the
directories list their entries. Backslashes in names are all that stands in the way.
-/

namespace DesignLink

namespace FileTree

/-- A tree without links, as file systems give it: each directory holds its names once, in any
order, and all of them are names of entries. -/
inductive Proper : FileTree → Prop
  | file (content : ByteArray) : Proper (.file content)
  | directory {entries : Entries} (distinct : Entries.Distinct entries)
    (areNames : ∀ entry ∈ entries, Path.IsEntryName entry.1)
    (each : ∀ entry ∈ entries, Proper entry.2) : Proper (.directory entries)

/-- The same tree with the entries of its directories listed in another order. -/
inductive Relisted : FileTree → FileTree → Prop
  | perm {entries others : Entries} (perm : entries.Perm others) :
    Relisted (.directory entries) (.directory others)
  | inside {front back : Entries} {name : String} {tree other : FileTree}
    (inner : Relisted tree other) :
    Relisted (.directory (front ++ (name, tree) :: back))
      (.directory (front ++ (name, other) :: back))
  | trans {tree other another : FileTree} (first : Relisted tree other)
    (second : Relisted other another) : Relisted tree another

variable {tree other : FileTree}

theorem Proper.tidy (proper : tree.Proper) : tree.Tidy := by
  induction proper with
  | file content => exact .file content
  | directory distinct _ _ ih => exact .directory distinct ih

theorem Proper.areNames (proper : tree.Proper) {place : Place} (present : tree.kindAt place ≠ none) :
    ∀ name ∈ place, Path.IsEntryName name := by
  induction place generalizing tree with
  | nil => exact fun name member => by cases member
  | cons name rest ih =>
    obtain ⟨node, held⟩ := Option.ne_none_iff_exists'.mp (FileTree.kindAt_eq_none.not.mp present)
    obtain ⟨entries, inner, rfl, entry, below⟩ := exists_of_at?_cons held
    cases proper with
    | directory distinct areNames each =>
      have among := (Entries.get?_eq_some_iff distinct).mp entry
      refine List.forall_mem_cons.mpr ⟨areNames _ among, ih (each _ among) ?_⟩
      rw [Ne, kindAt_eq_none, below]
      exact Option.some_ne_none node

/-! Other orders. -/

theorem get?_of_perm {entries others : Entries} (distinct : Entries.Distinct entries)
    (perm : entries.Perm others) (name : String) :
    Entries.get? others name = Entries.get? entries name := by
  have distinct' : Entries.Distinct others := perm.pairwise distinct fun different => different.symm
  refine Option.ext fun node => ?_
  rw [Entries.get?_eq_some_iff distinct', Entries.get?_eq_some_iff distinct, perm.mem_iff]

theorem distinct_iff_nodup (entries : Entries) :
    Entries.Distinct entries ↔ (entries.map Prod.fst).Nodup := List.pairwise_map.symm

theorem get?_inside {front back : Entries} {name : String}
    (distinct : Entries.Distinct (front ++ (name, tree) :: back)) (asked : String) :
    Entries.get? (front ++ (name, tree) :: back) asked =
      if asked = name then some tree else Entries.get? (front ++ back) asked := by
  induction front with
  | nil =>
    rw [List.nil_append, List.nil_append, Entries.get?]
    simp only [eq_comm]
  | cons entry rest ih =>
    obtain ⟨outer, kept⟩ := entry
    obtain ⟨first, later⟩ := List.pairwise_cons.mp distinct
    have different : outer ≠ name := first (name, tree) (by simp)
    rw [List.cons_append, List.cons_append, Entries.get?, Entries.get?, ih later]
    by_cases same : outer = asked
    · subst same
      simp [different]
    · simp [same]

theorem Relisted.proper (relisted : tree.Relisted other) : tree.Proper → other.Proper := by
  induction relisted with
  | perm perm =>
    intro proper
    cases proper with
    | directory distinct areNames each =>
      exact .directory (perm.pairwise distinct fun different => different.symm)
        (fun entry member => areNames entry (perm.mem_iff.mpr member))
        fun entry member => each entry (perm.mem_iff.mpr member)
  | @inside front back name tree other _ ih =>
    intro proper
    cases proper with
    | directory distinct areNames each =>
      rw [distinct_iff_nodup] at distinct
      refine .directory ?_ ?_ ?_
      · rw [distinct_iff_nodup]
        simpa using distinct
      · simpa [or_imp, forall_and] using areNames
      · have inner := ih (each (name, tree) (by simp))
        intro entry member
        rcases List.mem_append.mp member with before | own
        · exact each entry (by simp [before])
        · rcases List.mem_cons.mp own with rfl | behind
          · exact inner
          · exact each entry (by simp [behind])
  | trans _ _ first second => exact fun proper => second (first proper)

theorem Relisted.kindAt (relisted : tree.Relisted other) : tree.Proper →
    ∀ place, other.kindAt place = tree.kindAt place := by
  induction relisted with
  | perm perm =>
    intro proper place
    cases proper with
    | directory distinct areNames each =>
      cases place with
      | nil => rfl
      | cons name rest => rw [kindAt_cons, kindAt_cons, get?_of_perm distinct perm]
  | @inside front back name tree other inner ih =>
    intro proper place
    have outer : (FileTree.directory (front ++ (name, tree) :: back)).Relisted
        (.directory (front ++ (name, other) :: back)) := .inside inner
    have proper' := outer.proper proper
    cases place with
    | nil => rfl
    | cons asked rest =>
      cases proper with
      | directory distinct areNames each =>
        cases proper' with
        | directory distinct' =>
          rw [kindAt_cons, kindAt_cons, get?_inside distinct, get?_inside distinct']
          split_ifs
          · exact ih (each (name, tree) (by simp)) rest
          · rfl
  | trans first _ ihFirst ihSecond =>
    intro proper place
    rw [ihSecond (first.proper proper), ihFirst proper]

theorem Relisted.exists_entries (relisted : tree.Relisted other) :
    ∃ entries, other = .directory entries := by
  induction relisted with
  | perm => exact ⟨_, rfl⟩
  | inside => exact ⟨_, rfl⟩
  | trans _ _ _ second => exact second

/-! Connection files of a tree. -/

/-- The names lead to a connection file through directories that are searched. -/
structure LeadsToConnection (tree : FileTree) (folders : List String) (name : String) : Prop where
  isFile : tree.kindAt (folders ++ [name]) = some .file
  ends : ∃ suffix ∈ [".figma.tsx", ".figma.ts", ".figma.jsx", ".figma.js"],
    suffix.toList <:+ name.toList
  searched : ∀ folder ∈ folders, folder ≠ "node_modules" ∧ folder.toList.head? ≠ some '.'

def HasConnection (tree : FileTree) (path : String) : Prop :=
  ∃ folders name, tree.LeadsToConnection folders name ∧
    path = String.intercalate "/" (folders ++ [name])

theorem Relisted.leads_iff (relisted : tree.Relisted other) (proper : tree.Proper)
    (folders : List String) (name : String) :
    other.LeadsToConnection folders name ↔ tree.LeadsToConnection folders name :=
  ⟨fun leads => ⟨relisted.kindAt proper _ ▸ leads.isFile, leads.ends, leads.searched⟩,
    fun leads => ⟨(relisted.kindAt proper _).trans leads.isFile, leads.ends, leads.searched⟩⟩

end FileTree

open Search FileTree

namespace Search

theorem isConnectionName_iff (name : String) : isConnectionName name = true ↔
    ∃ suffix ∈ [".figma.tsx", ".figma.ts", ".figma.jsx", ".figma.js"],
      suffix.toList <:+ name.toList := by
  simp only [isConnectionName, connectionSuffixes, List.any_eq_true, List.isSuffixOf_iff_suffix]

theorem isListed_concat (folders : List String) (name : String) :
    isListed (folders ++ [name]) = true ↔ isConnectionName name = true ∧
      ∀ folder ∈ folders, folder ≠ "node_modules" ∧ folder.toList.head? ≠ some '.' := by
  induction folders with
  | nil => simp [isListed]
  | cons folder rest ih =>
    rw [List.cons_append, isListed_cons (by simp), Bool.and_eq_true, ih, List.forall_mem_cons,
      Bool.not_eq_true', isSkippedDirectory, Bool.or_eq_false_iff, decide_eq_false_iff_not,
      decide_eq_false_iff_not]
    tauto

theorem noBackslash_slashed (path : String) : '\\' ∉ (slashed path).toList := by
  rw [slashed, String.toList_ofList, List.mem_map]
  rintro ⟨c, -, same⟩
  split_ifs at same with backslash
  · cases same
  · exact backslash same

theorem mem_intercalate {names : List String} {name : String} (member : name ∈ names) {c : Char}
    (inside : c ∈ name.toList) : c ∈ (String.intercalate "/" names).toList := by
  have slash : "/".toList = ['/'] := by decide
  rw [String.toList_intercalate, slash, ← Path.joinPieces_eq_intercalate]
  induction names with
  | nil => cases member
  | cons first rest ih =>
    by_cases last : rest = []
    · subst last
      obtain rfl := List.mem_singleton.mp member
      exact inside
    · rw [List.map_cons, Path.joinPieces_cons (by simpa using last)]
      rcases List.mem_cons.mp member with rfl | later
      · exact List.mem_append_left _ inside
      · exact List.mem_append_right _ (List.mem_cons_of_mem _ (ih later))

end Search

namespace Disk

variable {disk : Disk} {directory : String} {place : Place} {entries : Entries}

/-- The places that are listed below a directory are those of its connection files. -/
theorem mem_listed_iff (proper : (FileTree.directory entries).Proper)
    (held : disk.tree.at? place = some (.directory entries)) {below : Place} :
    below ∈ disk.listed place ↔ ∃ folders name, below = folders ++ [name] ∧
      (FileTree.directory entries).LeadsToConnection folders name := by
  have places : disk.listed place = (FileTree.directory entries).filePlaces.filter isListed := by
    rw [listed, held]
  have isFile : (∃ content, (FileTree.directory entries).at? below = some (.file content)) ↔
      (FileTree.directory entries).kindAt below = some .file := by
    rw [kindAt, Option.map_eq_some_iff]
    constructor
    · rintro ⟨content, found⟩
      exact ⟨_, found, rfl⟩
    · rintro ⟨node, found, same⟩
      cases node with
      | file content => exact ⟨content, found⟩
      | directory => cases same
      | link => cases same
  rw [places, List.mem_filter, proper.tidy.mem_filePlaces, isFile]
  constructor
  · rintro ⟨isFile, isListed⟩
    rcases List.eq_nil_or_concat' below with rfl | ⟨folders, name, rfl⟩
    · cases isListed
    · obtain ⟨connection, searched⟩ := (isListed_concat folders name).mp isListed
      exact ⟨folders, name, rfl, isFile, (isConnectionName_iff name).mp connection, searched⟩
  · rintro ⟨folders, name, rfl, leads⟩
    exact ⟨leads.isFile, (isListed_concat folders name).mpr
      ⟨(isConnectionName_iff name).mpr leads.ends, leads.searched⟩⟩

theorem nodup_listed_of_tidy (tidy : (FileTree.directory entries).Tidy)
    (held : disk.tree.at? place = some (.directory entries)) : (disk.listed place).Nodup := by
  rw [listed, held]
  exact (tidy.nodup_files []).filter _

/-- What is found are the paths of connection files, with slashes for backslashes. -/
theorem mem_found_iff (proper : (FileTree.directory entries).Proper)
    (held : disk.tree.at? place = some (.directory entries)) {file : String} :
    file ∈ disk.found place ↔
      ∃ path, (FileTree.directory entries).HasConnection path ∧ file = slashed path := by
  rw [found, (sorted_perm _).mem_iff, List.map_map, List.mem_map]
  constructor
  · rintro ⟨below, member, rfl⟩
    obtain ⟨folders, name, rfl, leads⟩ := (mem_listed_iff proper held).mp member
    have areNames := proper.areNames (by rw [leads.isFile]; exact Option.some_ne_none _)
    exact ⟨_, ⟨folders, name, leads, rfl⟩, congrArg slashed (pathFrom_eq_intercalate areNames)⟩
  · rintro ⟨path, ⟨folders, name, leads, rfl⟩, rfl⟩
    have areNames := proper.areNames (by rw [leads.isFile]; exact Option.some_ne_none _)
    exact ⟨_, (mem_listed_iff proper held).mpr ⟨folders, name, rfl, leads⟩,
      congrArg slashed (pathFrom_eq_intercalate areNames)⟩

/-- Where no path holds a backslash, what is found are the paths of connection files as they are, in
the order of their bytes. -/
theorem found_exact (proper : (FileTree.directory entries).Proper)
    (held : disk.tree.at? place = some (.directory entries))
    (noBackslash : ∀ path, (FileTree.directory entries).HasConnection path → '\\' ∉ path.toList) :
    (∀ file, file ∈ disk.found place ↔ (FileTree.directory entries).HasConnection file) ∧
      (disk.found place).Pairwise fun a b => Text.bytes a < Text.bytes b := by
  constructor
  · intro file
    rw [mem_found_iff proper held]
    constructor
    · rintro ⟨path, hasConnection, rfl⟩
      rwa [slashed_of_noBackslash (noBackslash path hasConnection)]
    · exact fun hasConnection =>
        ⟨file, hasConnection, (slashed_of_noBackslash (noBackslash file hasConnection)).symm⟩
  · have once := nodup_listed_of_tidy proper.tidy held
    refine (pairwise_found once fun below member name among => ?_).imp Text.bytes_lt_bytes
    obtain ⟨folders, last, rfl, leads⟩ := (mem_listed_iff proper held).mp member
    exact ⟨proper.areNames (by rw [leads.isFile]; exact Option.some_ne_none _) name among,
      fun backslash => noBackslash _ ⟨folders, last, leads, rfl⟩ (mem_intercalate among backslash)⟩

/-- Directories that list the same entries in different orders give the same files. -/
theorem found_of_relisted {disk' : Disk} {place' : Place} {others : Entries}
    (proper : (FileTree.directory entries).Proper)
    (relisted : (FileTree.directory entries).Relisted (.directory others))
    (held : disk.tree.at? place = some (.directory entries))
    (held' : disk'.tree.at? place' = some (.directory others)) :
    disk'.found place' = disk.found place := by
  have proper' := relisted.proper proper
  have perm : (disk'.listed place').Perm (disk.listed place) := by
    rw [List.perm_ext_iff_of_nodup (nodup_listed_of_tidy proper'.tidy held')
      (nodup_listed_of_tidy proper.tidy held)]
    intro below
    rw [mem_listed_iff proper' held', mem_listed_iff proper held]
    simp only [relisted.leads_iff proper]
  exact sorted_congr (perm.map _)

/-- A search of a directory without links finds exactly the paths of its connection files, if and
only if none of these paths holds a backslash; each is then found once, and they are in the order of
their bytes. In any case a directory that lists its entries in another order, wherever it is, gives
the same files. -/
theorem connectionFiles_exact (proper : (FileTree.directory entries).Proper)
    (led : disk.find directory = .ok (place, .directory entries)) :
    ∃ files, disk.connectionFiles directory = .ok files ∧
      ((∀ file, file ∈ files ↔ (FileTree.directory entries).HasConnection file) ↔
        ∀ path, (FileTree.directory entries).HasConnection path → '\\' ∉ path.toList) ∧
      ((∀ path, (FileTree.directory entries).HasConnection path → '\\' ∉ path.toList) →
        files.Pairwise fun a b => Text.bytes a < Text.bytes b) ∧
      ∀ (disk' : Disk) (directory' : String) (place' : Place) (other : FileTree),
        (FileTree.directory entries).Relisted other →
        disk'.find directory' = .ok (place', other) →
          disk'.connectionFiles directory' = .ok files := by
  have held := (exists_of_find led).2
  refine ⟨_, connectionFiles_of_tidy proper.tidy led, ⟨fun exact_ path hasConnection => ?_,
    fun noBackslash => (found_exact proper held noBackslash).1⟩,
    fun noBackslash => (found_exact proper held noBackslash).2, ?_⟩
  · obtain ⟨path', -, same⟩ := (mem_found_iff proper held).mp ((exact_ path).mpr hasConnection)
    rw [same]
    exact noBackslash_slashed path'
  · intro disk' directory' place' other relisted led'
    obtain ⟨others, rfl⟩ := relisted.exists_entries
    rw [connectionFiles_of_tidy (relisted.proper proper).tidy led',
      found_of_relisted proper relisted held (exists_of_find led').2]

/-- Two directories of which the second one is hidden, each with a connection file. -/
def shelf : Entries :=
  [("src", .directory [("Card.figma.tsx", .file .empty)]),
    (".cache", .directory [("Old.figma.tsx", .file .empty)])]

theorem proper_shelf : (FileTree.directory shelf).Proper := by
  have lone (name : String) (isName : Path.IsEntryName name) :
      (FileTree.directory [(name, .file .empty)]).Proper := by
    refine .directory (List.pairwise_singleton _ _) ?_ ?_
    · simpa using isName
    · simpa using FileTree.Proper.file .empty
  refine .directory ?_ ?_ ?_
  · simp [shelf, Entries.Distinct]
  · simp only [shelf, List.forall_mem_cons]
    exact ⟨⟨by decide, by decide⟩, ⟨by decide, by decide⟩, fun entry member => by cases member⟩
  · simp only [shelf, List.forall_mem_cons]
    exact ⟨lone _ ⟨by decide, by decide⟩, lone _ ⟨by decide, by decide⟩,
      fun entry member => by cases member⟩

theorem connectionFiles_exact_shelf :
    (⟨shelf.reverse, []⟩ : Disk).connectionFiles "/" = .ok ["src/Card.figma.tsx"] := by
  have led : (⟨shelf, []⟩ : Disk).find "/" = .ok ([], .directory shelf) := rfl
  obtain ⟨files, listed, -, -, anyOrder⟩ := connectionFiles_exact proper_shelf led
  have own : (⟨shelf, []⟩ : Disk).connectionFiles "/" = .ok ["src/Card.figma.tsx"] :=
    toOption_eq_some.mp (by decide +kernel)
  obtain rfl := Except.ok.inj (listed.symm.trans own)
  exact anyOrder _ _ _ _ (.perm (List.reverse_perm shelf).symm) rfl

theorem connectionFiles_inexact : ¬ ∀ (disk : Disk) (directory : String) (place : Place)
    (entries : Entries), (FileTree.directory entries).Proper →
      disk.find directory = .ok (place, .directory entries) →
      ∃ files, disk.connectionFiles directory = .ok files ∧
        ∀ file, file ∈ files ↔ (FileTree.directory entries).HasConnection file := by
  intro every
  have proper : (FileTree.directory [("a\\b.figma.tsx", .file .empty)]).Proper := by
    refine .directory (List.pairwise_singleton _ _) ?_ ?_
    · simpa using (⟨by decide, by decide⟩ : Path.IsEntryName "a\\b.figma.tsx")
    · simpa using FileTree.Proper.file .empty
  obtain ⟨files, listed, whole⟩ :=
    every ⟨[("a\\b.figma.tsx", .file .empty)], []⟩ "/" [] _ proper rfl
  have own : (⟨[("a\\b.figma.tsx", .file .empty)], []⟩ : Disk).connectionFiles "/" =
      .ok ["a/b.figma.tsx"] := toOption_eq_some.mp (by decide +kernel)
  obtain rfl := Except.ok.inj (listed.symm.trans own)
  have hasConnection : (FileTree.directory [("a\\b.figma.tsx", .file .empty)]).HasConnection
      "a\\b.figma.tsx" :=
    ⟨[], "a\\b.figma.tsx", ⟨by decide, ⟨".figma.tsx", by decide, by decide⟩,
      fun folder member => by cases member⟩, by decide⟩
  exact absurd (List.mem_singleton.mp ((whole _).mpr hasConnection)) (by decide)

end Disk

end DesignLink
