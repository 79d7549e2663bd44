import DesignLink.Project.Failure

/-!
Which files of a project hold connections, and where they are found: in all directories but those
of installed packages and hidden ones, through links as well.
-/

namespace DesignLink

def connectionSuffixes : List String := [".figma.tsx", ".figma.ts", ".figma.jsx", ".figma.js"]

def isConnectionName (name : String) : Bool :=
  connectionSuffixes.any fun suffix => suffix.toList.isSuffixOf name.toList

def isConnectionFile (path : String) : Bool := isConnectionName ((Path.fileName? path).getD "")

/-- Whether a directory is left out, by its name. -/
def isSkippedDirectory (name : String) : Bool :=
  name = "node_modules" || name.toList.head? = some '.'

namespace Search

/-- A directory on the way of a search: where it is, the path that leads to it, and that path as
seen from where the search began. -/
structure Stop where
  place : Place
  path : String
  relative : String

/-- What is found at a link, given the name of the link and the directories on the way to it, the
nearest first. -/
abbrev Follow := String → Stop → List Stop → Except Failure (List String)

mutual

/-- The connection files at an entry of a directory. -/
def filesAt (follow : Follow) (name : String) (stop : Stop) (outer : List Stop) :
    FileTree → Except Failure (List String)
  | .file _ => .ok (if isConnectionName name then [stop.relative] else [])
  | .directory entries =>
    if isSkippedDirectory name then .ok [] else filesIn follow stop outer entries
  | .link _ => follow name stop outer

/-- The connection files in a directory. -/
def filesIn (follow : Follow) (stop : Stop) (outer : List Stop) :
    List (String × FileTree) → Except Failure (List String)
  | [] => .ok []
  | (name, node) :: rest => do
    let entry : Stop :=
      ⟨stop.place ++ [name], Path.join stop.path name, Path.join stop.relative name⟩
    let first ← filesAt follow name entry (stop :: outer) node
    let others ← filesIn follow stop outer rest
    return first ++ others

end

/-- Follows a link and searches what it leads to. A link to a directory that the search is in is a
cycle; otherwise every followed link leads to another directory, so there are no more of them on
the way than directories. -/
def follow (disk : Disk) : Nat → Follow
  | 0, _, _, _ => .ok []
  | links + 1, name, stop, outer =>
    match disk.tree.walkLinks true Path.linkLimit stop.place.dropLast [.name name] with
    | .error cause => .error (.unwalkable stop.path (.unreachable cause))
    | .ok place =>
      match disk.tree.at? place with
      | none => .error (.unwalkable stop.path (.unreachable .notFound))
      | some (.directory entries) =>
        match outer.find? fun ancestor => ancestor.place = place with
        | some ancestor => .error (.unwalkable stop.path (.cycle ancestor.path))
        | none =>
          if isSkippedDirectory name then .ok []
          else filesIn (follow disk links) { stop with place } outer entries
      | some _ => .ok (if isConnectionName name then [stop.relative] else [])

/-- The files of a search in their order, with slashes for backslashes. -/
def sorted (files : List String) : List String :=
  (files.map fun file =>
    String.ofList (file.toList.map fun c => if c = '\\' then '/' else c)).mergeSort
    fun a b => decide (a ≤ b)

end Search

/-- The connection files of a directory, by their paths from there, in the order of their names. A
directory that is not there has none. -/
def Disk.connectionFiles (disk : Disk) (directory : String) : Except Failure (List String) :=
  match disk.find directory with
  | .error _ => .ok []
  | .ok (place, .directory entries) => do
    let follow := Search.follow disk (disk.tree.directoryCount + 1)
    let files ← Search.filesIn follow ⟨place, directory, ""⟩ [] entries
    return Search.sorted files
  | .ok _ => .ok (if isConnectionFile directory then [""] else [])

end DesignLink
