import DesignLink.Disk.Resolve

/-!
Reading and changing the files of a disk.
-/

namespace DesignLink

/-- A tree of files and the directory from which paths are taken. -/
structure Disk where
  entries : Entries
  here : Place

namespace Disk

def empty : Disk := ⟨[], []⟩

def tree (disk : Disk) : FileTree := .directory disk.entries

/-- Puts a node at a place below the top. -/
def put (disk : Disk) (place : Place) (node : FileTree) : Disk :=
  match disk.tree.put place node with
  | .directory entries => { disk with entries }
  | _ => disk

def erase (disk : Disk) (place : Place) : Disk :=
  match disk.tree.erase place with
  | .directory entries => { disk with entries }
  | _ => disk

/-- The place that a path leads to, with a link at its end followed. -/
def target (disk : Disk) (path : String) : Except DiskError Place :=
  disk.tree.resolve true disk.here path

/-- The place of the entry that a path names. -/
def entry (disk : Disk) (path : String) : Except DiskError Place :=
  disk.tree.resolve false disk.here path

/-- What a path leads to. -/
def find (disk : Disk) (path : String) : Except DiskError (Place × FileTree) := do
  let place ← disk.target path
  match disk.tree.at? place with
  | some node => .ok (place, node)
  | none => .error .notFound

/-- Whether a path leads to something. -/
def contains (disk : Disk) (path : String) : Bool := (disk.find path).isOk

/-- Whether a path leads to a directory. -/
def isDirectory (disk : Disk) (path : String) : Bool :=
  match disk.find path with
  | .ok (_, node) => node.isDirectory
  | .error _ => false

/-- The bytes of a file. -/
def read (disk : Disk) (path : String) : Except DiskError ByteArray := do
  match (← disk.find path).2 with
  | .file content => .ok content
  | .directory _ => .error .isDirectory
  | .link _ => .error .tooManyLinks

def readText (disk : Disk) (path : String) : Except DiskError String := do
  match String.fromUTF8? (← disk.read path) with
  | some text => .ok text
  | none => .error .notText

/-- Makes a new entry. -/
def add (disk : Disk) (path : String) (node : FileTree) : Except DiskError Disk := do
  let place ← disk.entry path
  match disk.tree.at? place with
  | some _ => .error .alreadyExists
  | none => .ok (disk.put place node)

/-- Makes a new file. -/
def create (disk : Disk) (path : String) (content : ByteArray) : Except DiskError Disk :=
  disk.add path (.file content)

/-- Makes a new directory. Slashes at the end of its path name nothing, but count for its length. -/
def makeDirectory (disk : Disk) (path : String) : Except DiskError Disk :=
  if Path.lengthLimit < path.utf8ByteSize ∧ '\x00' ∉ path.toList then .error .nameTooLong
  else disk.add (Path.withoutEndSlash path) (.directory [])

def ensureDirectory (disk : Disk) (path : String) : Except DiskError Disk :=
  match disk.makeDirectory path with
  | .ok disk => .ok disk
  | .error e => if disk.isDirectory path then .ok disk else .error e

/-- Makes the first of some directories, each of which is in the next one, and those that it needs.
What was made before an error stays. -/
def ensureNested (disk : Disk) : List String → Except DiskError Unit × Disk
  | [] => (.ok (), disk)
  | path :: outer =>
    if path.isEmpty then (.ok (), disk)
    else
      match disk.makeDirectory path with
      | .ok disk => (.ok (), disk)
      | .error .notFound =>
        match disk.ensureNested outer with
        | (.error e, disk) => (.error e, disk)
        | (.ok (), disk) =>
          match disk.ensureDirectory path with
          | .ok disk => (.ok (), disk)
          | .error e => (.error e, disk)
      | .error e => if disk.isDirectory path then (.ok (), disk) else (.error e, disk)

/-- Makes a directory and those around it, unless they are there. -/
def ensureDirectories (disk : Disk) (path : String) : Except DiskError Unit × Disk :=
  disk.ensureNested (Path.ancestors path.length path)

/-- Writes a file, new or in place of its old content. -/
def write (disk : Disk) (path : String) (content : ByteArray) : Except DiskError Disk := do
  let place ← disk.target path
  match disk.tree.at? place with
  | some (.directory _) => .error .isDirectory
  | _ => .ok (disk.put place (.file content))

def link (disk : Disk) (path target : String) : Except DiskError Disk :=
  if target.isEmpty then .error .notFound else disk.add path (.link target)

/-- Removes a file or a link. -/
def remove (disk : Disk) (path : String) : Except DiskError Disk := do
  let place ← disk.entry path
  match disk.tree.at? place with
  | none => .error .notFound
  | some (.directory _) => .error .isDirectory
  | some _ => .ok (disk.erase place)

/-- The disk as seen from another directory. -/
def enter (disk : Disk) (path : String) : Except DiskError Disk := do
  let (place, node) ← disk.find path
  if node.isDirectory then .ok { disk with here := place } else .error .notDirectory

/-- The paths of all entries. -/
def listing (disk : Disk) : List String := FileTree.listings "" disk.entries

end Disk

end DesignLink
