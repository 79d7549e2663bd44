import DesignLink.Wire.Tagged

/-!
Messages of parsers, and what a list of them says as a whole.
-/

namespace DesignLink

open Wire

inductive Level where
  | info
  | warning
  | error
  deriving DecidableEq, Repr

namespace Level

def tag : Level → String
  | info => "info"
  | warning => "warning"
  | error => "error"

/-- Every accepted name of a level. -/
def options : List (String × Level) := [
  ("DEBUG", info), ("INFO", info), ("debug", info), ("info", info),
  ("WARN", warning), ("WARNING", warning), ("warn", warning), ("warning", warning),
  ("ERROR", error), ("error", error)]

def read : Reader Level := Tagged.tag options

end Level

structure Message where
  level : Level
  text : String
  deriving DecidableEq, Repr

namespace Message

def error (text : String) : Message := ⟨.error, text⟩

def info (text : String) : Message := ⟨.info, text⟩

def toJson (m : Message) : Json :=
  .object [("level", .string m.level.tag), ("text", .string m.text)]

def read : Reader Message :=
  (((Record.required "level" Level.read).both (.requiredAs "text" ["message"] Reader.text)).map
    fun (level, text) => Message.mk level text).read "ParserMessage"

def isError (m : Message) : Bool := m.level = .error

def isWarning (m : Message) : Bool := m.level = .warning

def hasErrors (messages : List Message) : Bool := messages.any isError

def hasWarnings (messages : List Message) : Bool := messages.any isWarning

end Message

end DesignLink
