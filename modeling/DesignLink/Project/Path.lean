/-!
Paths as texts: names separated by slashes. Repeated slashes and single dots that are not in front
mean nothing, two dots lead up.
-/

namespace DesignLink.Path

/-- A step of a path. -/
inductive Component where
  | root
  | here
  | up
  | name (text : String)
  deriving DecidableEq, Repr

namespace Component

def text : Component → String
  | root => "/"
  | here => "."
  | up => ".."
  | name text => text

/-- The step that a piece between slashes stands for, if it stands for one. -/
def ofPiece? (piece : List Char) : Option Component :=
  if piece = [] ∨ piece = ['.'] then none
  else if piece = ['.', '.'] then some up
  else some (name (String.ofList piece))

end Component

def pieces : List Char → List (List Char)
  | [] => [[]]
  | c :: rest =>
    match pieces rest with
    | [] => [[c]]
    | piece :: more => if c = '/' then [] :: piece :: more else (c :: piece) :: more

/-- A path cut into the slash or dot in front and the pieces of the rest. -/
def cut (path : String) : Option Component × List (List Char) :=
  match path.toList with
  | '/' :: rest => (some .root, pieces rest)
  | ['.'] => (some .here, pieces [])
  | '.' :: '/' :: rest => (some .here, pieces ('/' :: rest))
  | rest => (none, pieces rest)

def components (path : String) : List Component :=
  let (front, rest) := cut path
  front.toList ++ rest.filterMap Component.ofPiece?

def isAbsolute (path : String) : Bool := path.toList.head? == some '/'

/-- A path taken from a directory. An absolute path stands for itself. -/
def join (base path : String) : String :=
  if isAbsolute path then path
  else if base.isEmpty ∨ base.toList.getLast? = some '/' then base ++ path
  else base ++ "/" ++ path

def joinPieces : List (List Char) → List Char
  | [] => []
  | [piece] => piece
  | piece :: rest => piece ++ '/' :: joinPieces rest

/-- Drops pieces at the end that are no steps. -/
def trimEnd (pieces : List (List Char)) : List (List Char) :=
  (pieces.reverse.dropWhile fun piece => (Component.ofPiece? piece).isNone).reverse

/-- The path of the directory that holds the last step. -/
def parent? (path : String) : Option String :=
  let (front, rest) := cut path
  match (trimEnd rest).reverse with
  | [] =>
    match front with
    | some .here => some ""
    | _ => none
  | _ :: before =>
    let kept := trimEnd before.reverse
    some (((front.map Component.text).getD "") ++ String.ofList (joinPieces kept))

/-- The name of the last step. -/
def fileName? (path : String) : Option String :=
  match (components path).getLast? with
  | some (.name text) => some text
  | _ => none

/-- A name without what follows its last dot; a dot in front does not count. -/
def stem (name : String) : String :=
  match (name.toList.reverse.dropWhile (· ≠ '.')) with
  | [] => name
  | [_] => name
  | _ :: before => String.ofList before.reverse

def fileStem? (path : String) : Option String := (fileName? path).map stem

/-- The path up to the end of the stem of its last step. -/
def withoutExtension (path : String) : String :=
  match fileName? path with
  | none => path
  | some name =>
    let (front, rest) := cut path
    match (trimEnd rest).reverse with
    | [] => path
    | _ :: before =>
      ((front.map Component.text).getD "") ++
        String.ofList (joinPieces (before.reverse ++ [(stem name).toList]))

/-- How many components two paths share from the start. -/
def commonLength : List Component → List Component → Nat
  | a :: as, b :: bs => if a = b then commonLength as bs + 1 else 0
  | _, _ => 0

/-- How a module in the directory `source` names the file `target`: by a path that leads up or
starts with a dot, without extension. -/
def importSpecifier (source target : String) : String :=
  let source := (components source).filter (· ≠ .here)
  let target := (components (withoutExtension target)).filter (· ≠ .here)
  let common := commonLength source target
  let steps := List.replicate (source.length - common) Component.up ++ target.drop common
  let path := steps.foldl (fun path step => join path step.text) ""
  let path := String.ofList (path.toList.map fun c => if c = '\\' then '/' else c)
  if ['.', '.'].isPrefixOf path.toList then path else "./" ++ path

end DesignLink.Path
