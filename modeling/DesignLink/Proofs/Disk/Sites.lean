import DesignLink.Proofs.Disk.Folders

/-!
Sites of new files: a directory that is there, the directories to be made in it and the file to be
made in these. What becomes of a site is decided by what stands at its own places, so sites that
keep out of each other's way can be built in any order, also where some of them fail.
-/

namespace DesignLink

open FileTree (Additions Grounded Agree folders)

structure Site where
  base : Place
  names : List String
  file : String
  content : ByteArray
  folderRefusal : Option DiskError
  fileRefusal : Option DiskError
  deriving Inhabited

namespace Site

def folder (s : Site) : Place := s.base ++ s.names

def entry (s : Site) : Place := s.folder ++ [s.file]

/-- What keeps the file from being made. -/
def cause (s : Site) (tree : FileTree) : Option DiskError :=
  (s.folderRefusal.or (tree.obstacle s.base s.names)).or
    (s.fileRefusal.or (tree.occupied s.folder s.file))

/-- What is made: directories as far as nothing is in their way, and the file. -/
def additions (s : Site) (tree : FileTree) : Additions :=
  if s.folderRefusal = none then
    folders (tree.openings s.base s.names) ++
      if s.cause tree = none then [(s.entry, .file s.content)] else []
  else []

/-- The files are different ones, and neither is where the other's directories are to be. -/
structure Apart (a b : Site) : Prop where
  different : a.entry ≠ b.entry
  notAbove : ¬ a.entry <+: b.folder
  notBelow : ¬ b.entry <+: a.folder

theorem Apart.symm {a b : Site} (apart : a.Apart b) : b.Apart a :=
  ⟨apart.different.symm, apart.notBelow, apart.notAbove⟩

variable {s a b : Site} {tree tree' : FileTree}

theorem mem_additions {item : Place × FileTree} (member : item ∈ s.additions tree) :
    item.2 = .directory [] ∧ item.1 <+: s.folder ∨ item = (s.entry, .file s.content) := by
  unfold additions at member
  split at member
  case isFalse => cases member
  case isTrue =>
    rcases List.mem_append.mp member with among | own
    · obtain ⟨member, isDirectory⟩ := FileTree.mem_folders.mp among
      obtain ⟨-, above, -, part, place⟩ := FileTree.exists_of_mem_openings _ _ member
      refine .inl ⟨isDirectory, ?_⟩
      rw [place]
      exact (List.prefix_append_right_inj s.base).mpr part
    · split at own
      case isTrue => exact .inr (List.mem_singleton.mp own)
      case isFalse => cases own

theorem noLink_of_mem_additions {item : Place × FileTree} (member : item ∈ s.additions tree) :
    item.2.kind ≠ .link := by
  rcases mem_additions member with ⟨isDirectory, -⟩ | same
  · rw [isDirectory]
    exact nofun
  · rw [same]
    exact nofun

theorem Apart.agree (apart : a.Apart b) : Agree (a.additions tree) (b.additions tree) := by
  intro item member other member' same
  rcases mem_additions member with ⟨isDirectory, part⟩ | own
  · rcases mem_additions member' with ⟨isDirectory', -⟩ | own'
    · rw [isDirectory, isDirectory']
    · rw [same, own'] at part
      exact absurd part apart.notBelow
  · rcases mem_additions member' with ⟨-, part'⟩ | own'
    · rw [← same, own] at part'
      exact absurd part' apart.notAbove
    · rw [own, own'] at same
      exact absurd same apart.different

theorem grounded_additions (noLinks : tree.NoLinks)
    (isDirectory : tree.kindAt s.base = some .directory) : Grounded tree (s.additions tree) := by
  have grounded := FileTree.grounded_own_openings noLinks isDirectory s.names
  unfold additions
  split
  case isFalse => exact trivial
  case isTrue =>
    rw [FileTree.grounded_append]
    refine ⟨grounded, ?_⟩
    split
    case isFalse => exact trivial
    case isTrue free =>
      rw [cause, Option.or_eq_none_iff, Option.or_eq_none_iff] at free
      have led := FileTree.through_of_openings s.names s.base
        (FileTree.blockade_of_obstacle free.1.2)
        fun place member => FileTree.kindAt_openings noLinks isDirectory member
      have stays : (tree.fillAll (folders (tree.openings s.base s.names))).kindAt s.base =
          some .directory := by
        rw [FileTree.kindAt_fillAll _ grounded, isDirectory, Option.some_or]
      have above := FileTree.isDirectory_through (FileTree.kindAt_top stays) _ s.base stays led
      exact ⟨⟨s.folder, s.file, rfl, above⟩, FileTree.isLeaf_file s.content, trivial⟩

/-- What becomes of a site is decided by the files above it and by what is at its place. -/
theorem cause_congr
    (files : ∀ place, place <+: s.folder →
      (tree.kindAt place = some .file ↔ tree'.kindAt place = some .file))
    (own : tree.kindAt s.entry = none ↔ tree'.kindAt s.entry = none) :
    s.cause tree = s.cause tree' ∧ s.additions tree = s.additions tree' := by
  have same : ∀ above, above <+: s.names →
      (tree.kindAt (s.base ++ above) = some .file ↔ tree'.kindAt (s.base ++ above) = some .file) :=
    fun above part => files _ ((List.prefix_append_right_inj s.base).mpr part)
  have occupied : tree.occupied s.folder s.file = tree'.occupied s.folder s.file := by
    have own' : tree.kindAt (s.folder ++ [s.file]) ≠ none ↔
        tree'.kindAt (s.folder ++ [s.file]) ≠ none := not_congr own
    simp only [FileTree.occupied, own']
  have causes : s.cause tree = s.cause tree' := by
    rw [cause, cause, FileTree.obstacle_congr same, occupied]
  refine ⟨causes, ?_⟩
  rw [additions, additions, causes, (FileTree.blockade_congr s.names s.base same).2]

theorem Apart.cause_fillAll (apart : a.Apart b) (grounded : Grounded tree (a.additions tree)) :
    b.cause (tree.fillAll (a.additions tree)) = b.cause tree ∧
      b.additions (tree.fillAll (a.additions tree)) = b.additions tree := by
  have filled := fun place => @FileTree.kindAt_fillAll place tree (a.additions tree) grounded
  refine cause_congr (fun place part => ?_) ?_
  · rw [filled]
    cases tree.kindAt place with
    | some kind => rw [Option.some_or]
    | none =>
      rw [Option.none_or]
      refine ⟨fun new => ?_, nofun⟩
      obtain ⟨item, found, isFile⟩ := Option.map_eq_some_iff.mp new
      have there : item.1 = place := by simpa using List.find?_some found
      rcases mem_additions (List.mem_of_find?_eq_some found) with ⟨isDirectory, -⟩ | own
      · rw [isDirectory] at isFile
        cases isFile
      · rw [← there, own] at part
        exact absurd part apart.notAbove
  · rw [FileTree.kindAt_fillAll_of_other grounded]
    intro item member there
    rcases mem_additions member with ⟨-, part⟩ | own
    · rw [there] at part
      exact apart.notBelow part
    · rw [own] at there
      exact apart.different there

end Site

end DesignLink
