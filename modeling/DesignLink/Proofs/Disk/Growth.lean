import DesignLink.Disk.Access
import DesignLink.Proofs.Disk.Ways
import DesignLink.Proofs.Results
import Mathlib.Logic.Relation

/-!
Disks that grow. A new entry where there was none keeps all that was there, and every path that led
to a place still leads to it.
-/

namespace DesignLink

namespace Disk

/-- The paths of a disk are taken from a directory that is there. -/
def IsRooted (disk : Disk) : Prop :=
  ∃ entries, disk.tree.at? disk.here = some (.directory entries)

def HasFile (disk : Disk) (place : Place) (content : ByteArray) : Prop :=
  disk.tree.at? place = some (.file content)

/-- Everything on the one disk is still on the other, seen from the same directory. -/
structure Grows (old new : Disk) : Prop where
  here : new.here = old.here
  keeps : old.tree.Keeps new.tree

variable {a b c disk disk' : Disk}

theorem Grows.refl (disk : Disk) : disk.Grows disk := ⟨rfl, .refl _⟩

theorem Grows.trans (first : a.Grows b) (second : b.Grows c) : a.Grows c :=
  ⟨second.here.trans first.here, first.keeps.trans second.keeps⟩

theorem Grows.isRooted (grows : a.Grows b) (isRooted : a.IsRooted) : b.IsRooted := by
  obtain ⟨entries, held⟩ := isRooted
  unfold IsRooted
  rw [grows.here]
  exact grows.keeps.directory held

theorem Grows.hasFile (grows : a.Grows b) {place : Place} {content : ByteArray}
    (hasFile : a.HasFile place content) : b.HasFile place content := grows.keeps.file hasFile

theorem Grows.absent (grows : a.Grows b) {place : Place} (absent : b.tree.at? place = none) :
    a.tree.at? place = none := by
  cases held : a.tree.at? place with
  | none => rfl
  | some node =>
    obtain ⟨kept, still, -⟩ := grows.keeps place node held
    rw [absent] at still
    cases still

theorem Grows.entry (grows : a.Grows b) {path : String} {place : Place}
    (led : a.entry path = .ok place) : b.entry path = .ok place := by
  unfold Disk.entry at led ⊢
  rw [grows.here]
  exact FileTree.resolve_of_keeps grows.keeps led

theorem read_of_entry {path : String} {place : Place} {content : ByteArray}
    (led : disk.entry path = .ok place) (hasFile : disk.HasFile place content) :
    disk.read path = .ok content := by
  have target : disk.target path = .ok place := FileTree.resolve_to_file led hasFile
  have found : disk.find path = .ok (place, .file content) := by
    have held : disk.tree.at? place = some (.file content) := hasFile
    unfold Disk.find
    rw [target, ok_bind, held]
  unfold Disk.read
  rw [found]
  rfl

theorem tree_put {place : Place} (node : FileTree) (below : place ≠ []) :
    (disk.put place node).tree = disk.tree.put place node ∧
      (disk.put place node).here = disk.here := by
  obtain ⟨name, rest, rfl⟩ := List.exists_cons_of_ne_nil below
  have isDirectory := FileTree.isDirectory_put disk.entries name rest node
  unfold Disk.put
  split
  case h_1 entries held => exact ⟨held.symm, rfl⟩
  case h_2 noDirectory =>
    exfalso
    unfold tree at noDirectory
    cases held : (FileTree.directory disk.entries).put (name :: rest) node with
    | directory entries => exact noDirectory entries held
    | file content => rw [held] at isDirectory; cases isDirectory
    | link target => rw [held] at isDirectory; cases isDirectory

theorem grows_of_add {path : String} {node : FileTree} (added : disk.add path node = .ok disk') :
    ∃ place, disk.entry path = .ok place ∧ disk.tree.at? place = none ∧ disk.Grows disk' ∧
      (disk.IsRooted → disk'.tree.at? place = some node) ∧
      ∀ asked content, disk'.HasFile asked content → disk.HasFile asked content ∨
        ∃ below, asked = place ++ below ∧ node.at? below = some (.file content) := by
  obtain ⟨place, led, rest⟩ := exists_of_bind added
  cases absent : disk.tree.at? place with
  | some held =>
    rw [absent] at rest
    cases rest
  | none =>
    rw [absent] at rest
    obtain rfl := Except.ok.inj rest
    have below : place ≠ [] := by
      intro top
      rw [top, FileTree.at?_nil] at absent
      cases absent
    obtain ⟨tree, here⟩ := @tree_put disk place node below
    refine ⟨place, led, absent, ⟨here, ?_⟩, ?_, ?_⟩
    · rw [tree]
      exact FileTree.keeps_put place node disk.tree absent
    · intro isRooted
      cases FileTree.resolve_leads rfl isRooted led with
      | inl held =>
        obtain ⟨held, found⟩ := held
        rw [absent] at found
        cases found
      | inr free =>
        obtain ⟨_, above, name, entries, rfl, isDirectory⟩ := free
        rw [tree]
        exact FileTree.at?_put_self node name above disk.tree ⟨entries, isDirectory⟩
    · intro asked content hasFile
      unfold HasFile at hasFile ⊢
      rw [tree] at hasFile
      exact FileTree.file_of_put place node disk.tree asked hasFile

theorem grows_of_create (isRooted : disk.IsRooted) {path : String} {content : ByteArray}
    (created : disk.create path content = .ok disk') :
    ∃ place, disk.entry path = .ok place ∧ disk.tree.at? place = none ∧ disk.Grows disk' ∧
      ∀ asked found, disk'.HasFile asked found ↔
        disk.HasFile asked found ∨ asked = place ∧ found = content := by
  obtain ⟨place, led, absent, grows, self, files⟩ := grows_of_add created
  refine ⟨place, led, absent, grows, fun asked found => ⟨fun hasFile => ?_, fun either => ?_⟩⟩
  · cases files asked found hasFile with
    | inl before => exact .inl before
    | inr inside =>
      obtain ⟨below, shape, held⟩ := inside
      cases below with
      | nil =>
        rw [FileTree.at?_nil] at held
        exact .inr ⟨by rw [shape, List.append_nil],
          (FileTree.file.inj (Option.some.inj held)).symm⟩
      | cons name rest => cases held
  · cases either with
    | inl before => exact grows.hasFile before
    | inr new =>
      obtain ⟨rfl, rfl⟩ := new
      exact self isRooted

def SameFiles (old new : Disk) : Prop :=
  ∀ place content, new.HasFile place content ↔ old.HasFile place content

/-- A disk that grows by directories at most. -/
structure GrowsEmpty (old new : Disk) : Prop extends old.Grows new where
  sameFiles : old.SameFiles new

theorem GrowsEmpty.refl (disk : Disk) : disk.GrowsEmpty disk :=
  ⟨.refl _, fun _ _ => Iff.rfl⟩

theorem GrowsEmpty.trans (first : a.GrowsEmpty b) (second : b.GrowsEmpty c) : a.GrowsEmpty c :=
  ⟨first.toGrows.trans second.toGrows, fun place content =>
    (second.sameFiles place content).trans (first.sameFiles place content)⟩

theorem growsEmpty_of_makeDirectory {path : String}
    (made : disk.makeDirectory path = .ok disk') : disk.GrowsEmpty disk' := by
  have added : disk.add (Path.withoutEndSlash path) (.directory []) = .ok disk' := by
    unfold makeDirectory at made
    split at made
    case isTrue => cases made
    case isFalse => exact made
  obtain ⟨place, -, -, grows, -, files⟩ := grows_of_add added
  refine ⟨grows, fun asked content => ⟨fun hasFile => ?_, grows.hasFile⟩⟩
  cases files asked content hasFile with
  | inl before => exact before
  | inr inside =>
    obtain ⟨below, -, held⟩ := inside
    cases below with
    | nil => cases held
    | cons name rest => cases held

/-- The one disk becomes the other by making directories. -/
def Builds : Disk → Disk → Prop :=
  Relation.ReflTransGen fun old new => ∃ path, old.makeDirectory path = .ok new

theorem builds_of_ensureDirectory {path : String}
    (made : disk.ensureDirectory path = .ok disk') : disk.Builds disk' := by
  unfold ensureDirectory at made
  split at made
  case h_1 disk'' new =>
    obtain rfl := Except.ok.inj made
    exact .single ⟨path, new⟩
  case h_2 =>
    split at made
    case isTrue =>
      obtain rfl := Except.ok.inj made
      exact .refl
    case isFalse => cases made

/-- Nothing but directories is made for a directory, also where that ends with an error. -/
theorem builds_ensureNested (disk : Disk) (paths : List String) :
    disk.Builds (disk.ensureNested paths).2 := by
  induction paths with
  | nil => exact .refl
  | cons path outer around =>
    unfold ensureNested
    split
    case isTrue => exact .refl
    case isFalse =>
      split
      case h_1 disk' made => exact .single ⟨path, made⟩
      case h_2 =>
        split
        case h_1 e disk' nested =>
          rw [nested] at around
          exact around
        case h_2 disk' nested =>
          rw [nested] at around
          split
          case h_1 disk'' made => exact around.trans (builds_of_ensureDirectory made)
          case h_2 => exact around
      case h_3 => split <;> exact .refl

theorem Builds.growsEmpty (builds : a.Builds b) : a.GrowsEmpty b := by
  induction builds with
  | refl => exact .refl a
  | tail _ step ih =>
    obtain ⟨path, made⟩ := step
    exact ih.trans (growsEmpty_of_makeDirectory made)

theorem growsEmpty_ensureDirectories (disk : Disk) (path : String) :
    disk.GrowsEmpty (disk.ensureDirectories path).2 :=
  (disk.builds_ensureNested _).growsEmpty

end Disk

end DesignLink
