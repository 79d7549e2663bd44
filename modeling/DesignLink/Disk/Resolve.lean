import DesignLink.Disk.Basic
import DesignLink.Project.Path

/-!
Where paths lead: names are looked up one after the other, links are followed on the way.
-/

namespace DesignLink

namespace Path

/-- The step that a piece of a path stands for on the way through a tree. An empty piece stands for
none, except at the end, where it asks for a directory. -/
def stepsOf : List (List Char) → List Component
  | [] => []
  | [[]] => [.here]
  | piece :: rest =>
    if piece = [] then stepsOf rest
    else if piece = ['.'] then .here :: stepsOf rest
    else if piece = ['.', '.'] then .up :: stepsOf rest
    else .name (String.ofList piece) :: stepsOf rest

/-- The steps of a path on the way through a tree. -/
def steps (path : String) : List Component :=
  match path.toList with
  | '/' :: rest => .root :: stepsOf (pieces rest)
  | text => stepsOf (pieces text)

def withoutEndSlash (path : String) : String :=
  match path.toList.reverse.dropWhile (· = '/') with
  | [] => path
  | kept => String.ofList kept.reverse

/-- The path and those of the directories around it, from the inside to the outside. -/
def ancestors : Nat → String → List String
  | 0, path => [path]
  | fuel + 1, path =>
    match parent? path with
    | none => [path]
    | some outer => path :: ancestors fuel outer

/-- The longest name of an entry, in bytes. -/
def nameLimit : Nat := 255

/-- The longest path, in bytes. -/
def lengthLimit : Nat := 4095

/-- How many links may be followed on the way to one entry. -/
def linkLimit : Nat := 40

end Path

namespace FileTree

/-- What happens at a link: where the steps from a place lead. -/
abbrev Follow := Place → List Path.Component → Except DiskError Place

/-- Takes steps from a directory. The last entry may be missing; if it is a link, `followLast` says
whether to follow it too. -/
def walk (tree : FileTree) (followLast : Bool) (follow : Follow) : Follow
  | place, [] => .ok place
  | _, .root :: rest => tree.walk followLast follow [] rest
  | place, .here :: rest => tree.walk followLast follow place rest
  | place, .up :: rest => tree.walk followLast follow place.dropLast rest
  | place, .name name :: rest =>
    if Path.nameLimit < name.utf8ByteSize then .error .nameTooLong
    else
      let entry := place ++ [name]
      match tree.at? entry with
      | none => if rest = [] then .ok entry else .error .notFound
      | some (directory _) => tree.walk followLast follow entry rest
      | some (file _) => if rest = [] then .ok entry else .error .notDirectory
      | some (link target) =>
        if rest = [] ∧ followLast = false then .ok entry
        else follow place (Path.steps target ++ rest)

/-- Takes steps from a directory and follows at most as many links as are given. -/
def walkLinks (tree : FileTree) (followLast : Bool) : Nat → Follow
  | 0 => tree.walk followLast fun _ _ => .error .tooManyLinks
  | links + 1 => tree.walk followLast (tree.walkLinks followLast links)

/-- The place that a path leads to from a directory. -/
def resolve (tree : FileTree) (followLast : Bool) (start : Place) (path : String) :
    Except DiskError Place :=
  if path.toList.contains '\x00' then .error .nulInPath
  else if path.isEmpty then .error .notFound
  else if Path.lengthLimit < path.utf8ByteSize then .error .nameTooLong
  else tree.walkLinks followLast Path.linkLimit start (Path.steps path)

end FileTree

end DesignLink
