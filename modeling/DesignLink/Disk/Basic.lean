/-!
Trees of files: directories hold files, links and further directories under names, in the order of
the names.
-/

namespace DesignLink

/-- What keeps an operation on a disk from being done. -/
inductive DiskError where
  | notFound
  | alreadyExists
  | notDirectory
  | isDirectory
  | nameTooLong
  | tooManyLinks
  | nulInPath
  | nulInCommand
  | notText
  deriving DecidableEq, Repr

namespace DiskError

def message : DiskError → String
  | notFound => "No such file or directory (os error 2)"
  | alreadyExists => "File exists (os error 17)"
  | notDirectory => "Not a directory (os error 20)"
  | isDirectory => "Is a directory (os error 21)"
  | nameTooLong => "File name too long (os error 36)"
  | tooManyLinks => "Too many levels of symbolic links (os error 40)"
  | nulInPath => "file name contained an unexpected NUL byte"
  | nulInCommand => "nul byte found in provided data"
  | notText => "stream did not contain valid UTF-8"

end DiskError

inductive FileTree where
  | file (content : ByteArray)
  | directory (entries : List (String × FileTree))
  | link (target : String)

/-- What a directory holds, by name. -/
abbrev Entries := List (String × FileTree)

namespace Entries

def get? (entries : Entries) (name : String) : Option FileTree :=
  match entries with
  | [] => none
  | (other, node) :: rest => if other = name then some node else get? rest name

/-- Puts an entry in the place of the one of the same name, otherwise before the first one of a later
name. -/
def put (entries : Entries) (name : String) (node : FileTree) : Entries :=
  match entries with
  | [] => [(name, node)]
  | (other, kept) :: rest =>
    if other = name then (name, node) :: rest
    else if name < other ∧ (get? rest name).isNone then (name, node) :: (other, kept) :: rest
    else (other, kept) :: put rest name node

def erase (entries : Entries) (name : String) : Entries :=
  entries.filter fun entry => entry.1 ≠ name

end Entries

/-- The names that lead to an entry from the top of the tree. -/
abbrev Place := List String

namespace FileTree

def isDirectory : FileTree → Bool
  | directory _ => true
  | _ => false

/-- The part of a tree at a place. -/
def at? (tree : FileTree) : Place → Option FileTree
  | [] => some tree
  | name :: rest =>
    match tree with
    | directory entries =>
      match Entries.get? entries name with
      | some node => node.at? rest
      | none => none
    | _ => none

/-- Puts a node at a place in a directory that is there; elsewhere nothing changes. -/
def put (tree : FileTree) (place : Place) (node : FileTree) : FileTree :=
  match place with
  | [] => node
  | name :: rest =>
    match tree with
    | directory entries =>
      match rest, Entries.get? entries name with
      | [], _ => directory (Entries.put entries name node)
      | _ :: _, some inner => directory (Entries.put entries name (inner.put rest node))
      | _ :: _, none => tree
    | _ => tree

/-- Takes away what is at a place. -/
def erase (tree : FileTree) : Place → FileTree
  | [] => tree
  | name :: rest =>
    match tree with
    | directory entries =>
      match rest, Entries.get? entries name with
      | [], _ => directory (Entries.erase entries name)
      | _ :: _, some inner => directory (Entries.put entries name (inner.erase rest))
      | _ :: _, none => tree
    | _ => tree

mutual

/-- How many directories a tree has. -/
def directoryCount : FileTree → Nat
  | directory entries => directoryCounts entries + 1
  | _ => 0

def directoryCounts : List (String × FileTree) → Nat
  | [] => 0
  | (_, node) :: rest => node.directoryCount + directoryCounts rest

end

mutual

/-- The path of an entry and the paths of what is below it; those of directories end with a slash. -/
def listing (path : String) : FileTree → List String
  | directory entries => (path ++ "/") :: listings (path ++ "/") entries
  | _ => [path]

def listings (above : String) : List (String × FileTree) → List String
  | [] => []
  | (name, node) :: rest => node.listing (above ++ name) ++ listings above rest

end

mutual

/-- The files of a tree at a place, each with its own place. -/
def files (place : Place) : FileTree → List (Place × ByteArray)
  | file content => [(place, content)]
  | directory entries => filesOf place entries
  | link _ => []

def filesOf (place : Place) : List (String × FileTree) → List (Place × ByteArray)
  | [] => []
  | (name, node) :: rest => node.files (place ++ [name]) ++ filesOf place rest

end

end FileTree

end DesignLink
