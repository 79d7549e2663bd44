import DesignLink.Project.Run
import DesignLink.Settings
import DesignLink.Wire.Refusal

/-!
Failures of whole requests, as opposed to problems of a single declaration.
-/

namespace DesignLink

/-- What is wrong with the settings of a project. -/
inductive SettingsFault where
  | refused (path : String) (cause : Wire.Cause)
  | commandMissing (path : Option String) (ecosystem : Ecosystem)

namespace SettingsFault

def message : SettingsFault → String
  | refused path cause => path ++ ": " ++ cause.message
  | commandMissing path ecosystem =>
    (path.map (· ++ ": ")).getD "" ++
      "`parserCommand` is required for the " ++ ecosystem.title ++ " parser"

end SettingsFault

/-- What went wrong while a parser command was run. -/
inductive CommandFault where
  | notStarted (command : String) (cause : DiskError)
  | exited (status : ExitStatus) (complaint : String)

namespace CommandFault

def message : CommandFault → String
  | notStarted command cause => "failed to start `" ++ command ++ "`: " ++ cause.message
  | exited status complaint => "exited with " ++ status.message ++ ": " ++ complaint

end CommandFault

/-- What went wrong on a walk through the files of a project. -/
inductive WalkFault where
  | unreachable (cause : DiskError)
  | cycle (ancestor : String)

namespace WalkFault

def message (path : String) : WalkFault → String
  | unreachable cause => "IO error for operation on " ++ path ++ ": " ++ cause.message
  | cycle ancestor =>
    "File system loop found: " ++ path ++ " points to an ancestor " ++ ancestor

end WalkFault

inductive Failure where
  | unreadable (path : String) (cause : DiskError)
  | unwalkable (path : String) (cause : WalkFault)
  | settings (cause : SettingsFault)
  | violation (destination : String) (refusal : Wire.Refusal)
  | command (destination : String) (cause : CommandFault)

namespace Failure

def message : Failure → String
  | unreadable path cause => path ++ ": " ++ cause.message
  | unwalkable path cause => path ++ ": " ++ cause.message path
  | settings cause => "invalid configuration: " ++ cause.message
  | violation destination refusal =>
    destination ++ ": backend response does not match the protocol: " ++
      refusal.cause.message ++ " (at `" ++ refusal.pathText ++ "`)"
  | command destination cause => destination ++ ": backend failed: " ++ cause.message

end Failure

end DesignLink
