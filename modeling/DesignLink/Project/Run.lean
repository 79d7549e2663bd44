import DesignLink.Disk.Access

/-!
Runs of commands: what a command leaves behind, and how its end is told.
-/

namespace DesignLink

/-- How a run of a command ended. -/
inductive ExitStatus where
  | code (value : Nat)
  | signal (number : Nat)
  deriving DecidableEq, Repr

namespace ExitStatus

def signalNames : List String := [
  "HUP", "INT", "QUIT", "ILL", "TRAP", "ABRT", "BUS", "FPE", "KILL", "USR1", "SEGV", "USR2",
  "PIPE", "ALRM", "TERM", "STKFLT", "CHLD", "CONT", "STOP", "TSTP", "TTIN", "TTOU", "URG", "XCPU",
  "XFSZ", "VTALRM", "PROF", "WINCH", "IO", "PWR", "SYS"]

def signalName? (number : Nat) : Option String :=
  if number = 0 then none else signalNames[number - 1]?

def isSuccess (status : ExitStatus) : Bool := status = .code 0

def message : ExitStatus → String
  | code value => "exit status: " ++ toString value
  | signal number =>
    "signal: " ++ toString number ++
      ((signalName? number).map fun name => " (SIG" ++ name ++ ")").getD ""

end ExitStatus

/-- What a run of a command left: how it ended, what it printed, and what it complained about. -/
structure Run where
  status : ExitStatus
  output : ByteArray
  errors : ByteArray

/-- A way to run commands: takes the command, the directory to run it in and its input. -/
abbrev Runner := (command directory input : String) → Disk → Except DiskError Run × Disk

end DesignLink
