import DesignLink.CommandLine.Perform
import DesignLink.Shell.Run

/-!
The program. It looks at the files that its arguments name and, to find connection files, at those
whose paths stand on its standard input, one a line. It writes the files that a request creates.
-/

namespace DesignLink.CommandLine

/-- The name of the working directory on the disk that the program works on. No entry has it. -/
def workingName : String := "."

/-- The disk before any file is looked at. -/
def blankDisk : Disk := ⟨[(workingName, .directory [])], [workingName]⟩

def systemPath (place : Place) : String :=
  if place.head? = some workingName then String.intercalate "/" place
  else "/" ++ String.intercalate "/" place

/-- The disk with one more file, if there is such a file. -/
def load (disk : Disk) (path : String) : IO Disk := do
  try
    let content ← IO.FS.readBinFile path
    let (_, disk) := disk.ensureDirectories ((Path.parent? path).getD "")
    return (disk.write path content).toOption.getD disk
  catch _ => return disk

partial def readLines (stream : IO.FS.Stream) : IO (List String) := do
  let line ← stream.getLine
  if line.isEmpty then return []
  let rest ← readLines stream
  return String.ofList (line.toList.filter fun c => c ≠ '\n' ∧ c ≠ '\r') :: rest

/-- Writes the files that a disk has and the disk before did not have, or not as they are. -/
def store (before after : Disk) : IO Unit :=
  for (place, content) in after.tree.files [] do
    match before.tree.at? place with
    | some (.file old) => if old != content then IO.FS.writeBinFile (systemPath place) content
    | _ => do
      IO.FS.createDirAll (systemPath place.dropLast)
      let handle ← IO.FS.Handle.mk (systemPath place) .writeNew
      handle.write content

/-- The disk with the files that arguments ask for. Files that a request would create are looked at
too, so that those which are there are known. -/
def prepare (arguments : List String) : IO Disk := do
  match Request.read arguments with
  | .ok (.perform task _) =>
    let found ← if task.searches then readLines (← IO.getStdin) else pure []
    let disk ← (task.files ++ found).foldlM load blankDisk
    let (_, planned) := run Shell.run arguments disk
    (planned.tree.files []).foldlM (fun disk (place, _) =>
      match disk.tree.at? place with
      | none => load disk (systemPath place)
      | some _ => pure disk) disk
  | _ => return blankDisk

/-- Runs the program and gives its exit status. -/
def program (arguments : List String) : IO UInt32 := do
  let disk ← prepare arguments
  let (output, after) := run Shell.run arguments disk
  store disk after
  IO.print output.text
  if output.complaint ≠ "" then IO.eprintln output.complaint
  return output.exit.toUInt32

end DesignLink.CommandLine

def main (arguments : List String) : IO UInt32 := DesignLink.CommandLine.program arguments
