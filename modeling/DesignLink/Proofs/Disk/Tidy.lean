import DesignLink.Project.ConnectionFile
import DesignLink.Proofs.Disk.Passages
import Mathlib.Data.List.Nodup

/-!
Tidy trees: trees without links whose directories hold each name once, in any order. Requests keep a
tree tidy, and the files of a tidy tree are what is at its places, each listed once.
-/

namespace DesignLink

namespace Entries

/-- Names are held once, in any order. -/
def Distinct (entries : Entries) : Prop := entries.Pairwise fun a b => a.1 ≠ b.1

theorem mem_put {entries : Entries} {name : String} {node : FileTree}
    {entry : String × FileTree} (member : entry ∈ put entries name node) :
    entry = (name, node) ∨ entry ∈ entries := by
  induction entries with
  | nil => exact .inl (List.mem_singleton.mp member)
  | cons first rest ih =>
    obtain ⟨other, kept⟩ := first
    unfold put at member
    split_ifs at member with here before
    · exact (List.mem_cons.mp member).imp id (List.mem_cons_of_mem _)
    · exact List.mem_cons.mp member
    · rcases List.mem_cons.mp member with rfl | later
      · exact .inr List.mem_cons_self
      · exact (ih later).imp id (List.mem_cons_of_mem _)

theorem ne_of_isNone {entries : Entries} {name : String} (absent : (get? entries name).isNone) :
    ∀ entry ∈ entries, name ≠ entry.1 := by
  induction entries with
  | nil => exact nofun
  | cons first rest ih =>
    obtain ⟨other, kept⟩ := first
    unfold get? at absent
    split_ifs at absent with here
    · cases absent
    · exact List.forall_mem_cons.mpr ⟨Ne.symm here, ih absent⟩

theorem Distinct.put {entries : Entries} (distinct : Distinct entries) (name : String)
    (node : FileTree) : Distinct (Entries.put entries name node) := by
  induction entries with
  | nil => exact List.pairwise_singleton _ _
  | cons first rest ih =>
    obtain ⟨other, kept⟩ := first
    obtain ⟨apart, later⟩ := List.pairwise_cons.mp distinct
    unfold Entries.put
    split_ifs with here before
    · subst here
      exact List.pairwise_cons.mpr ⟨apart, later⟩
    · refine List.pairwise_cons.mpr ⟨?_, distinct⟩
      exact List.forall_mem_cons.mpr ⟨Ne.symm here, ne_of_isNone before.2⟩
    · refine List.pairwise_cons.mpr ⟨?_, ih later⟩
      intro entry member
      rcases mem_put member with rfl | among
      · exact here
      · exact apart entry among

theorem get?_eq_some_iff {entries : Entries} (distinct : Distinct entries) {name : String}
    {node : FileTree} : get? entries name = some node ↔ (name, node) ∈ entries := by
  induction entries with
  | nil => exact ⟨nofun, nofun⟩
  | cons first rest ih =>
    obtain ⟨other, kept⟩ := first
    obtain ⟨above, later⟩ := List.pairwise_cons.mp distinct
    rw [get?, List.mem_cons]
    split_ifs with here
    · subst here
      constructor
      · rintro ⟨⟩
        exact .inl rfl
      · rintro (same | among)
        · exact congrArg some (Prod.mk.inj same).2.symm
        · exact absurd rfl (above (other, node) among)
    · rw [ih later]
      constructor
      · exact .inr
      · rintro (same | among)
        · exact absurd (Prod.mk.inj same).1.symm here
        · exact among

end Entries

namespace FileTree

/-- A tree without links whose directories hold each name once. -/
inductive Tidy : FileTree → Prop
  | file (content : ByteArray) : Tidy (.file content)
  | directory {entries : Entries} (distinct : Entries.Distinct entries)
    (each : ∀ entry ∈ entries, Tidy entry.2) : Tidy (.directory entries)

theorem tidy_empty : (directory []).Tidy := .directory .nil nofun

variable {tree node : FileTree}

theorem Tidy.at? (tidy : tree.Tidy) {place : Place} (held : tree.at? place = some node) :
    node.Tidy := by
  induction place generalizing tree with
  | nil =>
    rw [at?_nil] at held
    exact Option.some.inj held ▸ tidy
  | cons name rest ih =>
    obtain ⟨entries, inner, rfl, entry, below⟩ := exists_of_at?_cons held
    cases tidy with
    | directory distinct each =>
      exact ih (each _ ((Entries.get?_eq_some_iff distinct).mp entry)) below

theorem Tidy.noLinks (tidy : tree.Tidy) : tree.NoLinks := by
  intro place isLink
  obtain ⟨node, held, same⟩ := Option.map_eq_some_iff.mp isLink
  have tidy' := tidy.at? held
  cases tidy' with
  | file => cases same
  | directory => cases same

theorem Tidy.put (isTidy : node.Tidy) (place : Place) :
    ∀ {tree : FileTree}, tree.Tidy → (tree.put place node).Tidy := by
  induction place with
  | nil =>
    intro tree _
    unfold FileTree.put
    exact isTidy
  | cons name rest ih =>
    intro tree tidy
    cases tidy with
    | file content => exact .file content
    | @directory entries distinct each =>
      have put_ {new : FileTree} (isTidy : new.Tidy) :
          (FileTree.directory (Entries.put entries name new)).Tidy := by
        refine .directory (distinct.put name new) fun entry member => ?_
        rcases Entries.mem_put member with rfl | among
        · exact isTidy
        · exact each entry among
      rw [put_cons]
      cases rest with
      | nil => exact put_ isTidy
      | cons next more =>
        cases held : Entries.get? entries name with
        | none => exact .directory distinct each
        | some inner => exact put_ (ih (each _ ((Entries.get?_eq_some_iff distinct).mp held)))

/-! The files of a tree. -/

theorem filesOf_eq_flatMap (place : Place) (entries : Entries) :
    filesOf place entries = entries.flatMap fun entry => entry.2.files (place ++ [entry.1]) := by
  induction entries with
  | nil => simp [filesOf]
  | cons entry rest ih => rw [filesOf, ih, List.flatMap_cons]

theorem Tidy.mem_files (tidy : tree.Tidy) : ∀ {place asked : Place} {content : ByteArray},
    (asked, content) ∈ tree.files place ↔
      ∃ below, asked = place ++ below ∧ tree.at? below = some (.file content) := by
  induction tidy with
  | file held =>
    intro place asked content
    rw [files, List.mem_singleton, Prod.mk.injEq]
    constructor
    · rintro ⟨rfl, rfl⟩
      exact ⟨[], (List.append_nil _).symm, at?_nil _⟩
    · rintro ⟨below, rfl, found⟩
      cases below with
      | nil =>
        rw [at?_nil] at found
        exact ⟨List.append_nil _, (FileTree.file.inj (Option.some.inj found)).symm⟩
      | cons name rest => cases found
  | @directory entries distinct each ih =>
    intro place asked content
    rw [files, filesOf_eq_flatMap, List.mem_flatMap]
    constructor
    · rintro ⟨entry, among, member⟩
      obtain ⟨below, rfl, found⟩ := (ih entry among).mp member
      refine ⟨entry.1 :: below, by rw [List.append_assoc, List.singleton_append], ?_⟩
      rw [at?_cons, (Entries.get?_eq_some_iff distinct).mpr among, Option.bind_some, found]
    · rintro ⟨below, rfl, found⟩
      cases below with
      | nil => cases found
      | cons name rest =>
        rw [at?_cons] at found
        obtain ⟨inner, entry, deeper⟩ := Option.bind_eq_some_iff.mp found
        have among := (Entries.get?_eq_some_iff distinct).mp entry
        refine ⟨(name, inner), among, (ih _ among).mpr ⟨rest, ?_, deeper⟩⟩
        rw [List.append_assoc, List.singleton_append]

theorem Tidy.nodup_files (tidy : tree.Tidy) :
    ∀ place : Place, ((tree.files place).map Prod.fst).Nodup := by
  induction tidy with
  | file content => exact fun place => List.nodup_singleton place
  | @directory entries distinct each ih =>
    intro place
    rw [files, filesOf_eq_flatMap, List.map_flatMap, List.nodup_flatMap]
    refine ⟨fun entry among => ih entry among _, distinct.imp_of_mem ?_⟩
    intro first second among among' different asked inFirst inSecond
    obtain ⟨⟨_, content⟩, member, rfl⟩ := List.mem_map.mp inFirst
    obtain ⟨⟨_, content'⟩, member', same⟩ := List.mem_map.mp inSecond
    obtain ⟨below, rfl, -⟩ := (each first among).mem_files.mp member
    obtain ⟨below', rfl, -⟩ := (each second among').mem_files.mp member'
    simp only [List.append_assoc, List.singleton_append, List.append_cancel_left_eq,
      List.cons.injEq] at same
    exact different same.1.symm

def filePlaces (tree : FileTree) : List Place := (tree.files []).map Prod.fst

theorem Tidy.files_eq (tidy : tree.Tidy) : ∀ place : Place,
    (tree.files place).map Prod.fst = tree.filePlaces.map (place ++ ·) := by
  induction tidy with
  | file content => exact fun place => by simp [filePlaces, files]
  | @directory entries distinct each ih =>
    intro place
    rw [filePlaces, files, files, filesOf_eq_flatMap, filesOf_eq_flatMap, List.map_flatMap,
      List.map_flatMap, List.map_flatMap]
    refine List.flatMap_congr fun entry among => ?_
    rw [ih entry among, ih entry among, List.map_map]
    simp [Function.comp_def]

theorem Tidy.filePlaces_directory {entries : Entries} (tidy : (FileTree.directory entries).Tidy) :
    (FileTree.directory entries).filePlaces =
      entries.flatMap fun entry => entry.2.filePlaces.map (entry.1 :: ·) := by
  cases tidy with
  | directory _ each =>
    rw [filePlaces, files, filesOf_eq_flatMap, List.map_flatMap]
    exact List.flatMap_congr fun entry among => (each entry among).files_eq _

theorem Tidy.mem_filePlaces (tidy : tree.Tidy) {place : Place} :
    place ∈ tree.filePlaces ↔ ∃ content, tree.at? place = some (.file content) := by
  rw [filePlaces, List.mem_map]
  constructor
  · rintro ⟨⟨_, content⟩, member, rfl⟩
    obtain ⟨below, rfl, found⟩ := tidy.mem_files.mp member
    exact ⟨content, found⟩
  · rintro ⟨content, found⟩
    exact ⟨(place, content), tidy.mem_files.mpr ⟨place, rfl, found⟩, rfl⟩

end FileTree

/-! Disks that are changed. -/

namespace Disk

variable {disk disk' : Disk}

theorem tidy_put (tidy : disk.tree.Tidy) {node : FileTree} (isTidy : node.Tidy) (place : Place) :
    (disk.put place node).tree.Tidy := by
  unfold Disk.put
  split
  case h_1 entries held =>
    have after := isTidy.put place tidy
    rwa [held] at after
  case h_2 => exact tidy

theorem tidy_add (tidy : disk.tree.Tidy) {path : String} {node : FileTree} (isTidy : node.Tidy)
    (added : disk.add path node = .ok disk') : disk'.tree.Tidy := by
  obtain ⟨place, -, rest⟩ := exists_of_bind added
  split at rest
  case h_1 => cases rest
  case h_2 =>
    obtain rfl := Except.ok.inj rest
    exact tidy_put tidy isTidy place

theorem tidy_makeDirectory (tidy : disk.tree.Tidy) {path : String}
    (made : disk.makeDirectory path = .ok disk') : disk'.tree.Tidy := by
  unfold makeDirectory at made
  split at made
  case isTrue => cases made
  case isFalse => exact tidy_add tidy FileTree.tidy_empty made

theorem Builds.tidy (builds : disk.Builds disk') (tidy : disk.tree.Tidy) : disk'.tree.Tidy := by
  induction builds with
  | refl => exact tidy
  | tail _ step ih =>
    obtain ⟨path, made⟩ := step
    exact tidy_makeDirectory ih made

end Disk

theorem CreateRequest.tidy_write {disk : Disk} (tidy : disk.tree.Tidy) (r : CreateRequest)
    (directory : String) : (r.write directory disk).2.tree.Tidy := by
  have folders := (disk.builds_ensureNested (Path.ancestors
    (Path.join directory r.destination).length (Path.join directory r.destination))).tidy tidy
  unfold write Disk.ensureDirectories
  dsimp only
  split
  case h_1 cause folded made =>
    rw [made] at folders
    exact folders
  case h_2 folded made =>
    rw [made] at folders
    split
    case h_1 => exact folders
    case h_2 after created => exact Disk.tidy_add folders (.file _) created

end DesignLink
