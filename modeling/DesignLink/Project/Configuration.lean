import DesignLink.Project.Failure
import DesignLink.Wire.Reader

/-!
The settings file of a project.
-/

namespace DesignLink

def settingsFileName : String := "figma.config.json"

/-- The settings of the project in a directory; standard ones if it has no settings file. -/
def Disk.projectSettings (disk : Disk) (directory : String) : Except Failure ProjectSettings := do
  let path := Path.join directory settingsFileName
  if disk.contains path = false then return .standard
  let text ← (disk.readText path).mapError (.unreadable path)
  let project ← (Wire.Reader.ofWholeText ProjectSettings.read text).mapError fun refusal =>
    .settings (.refused path refusal.cause)
  if project.settings.ecosystem.isNative = false ∧ project.settings.command = none then
    .error (.settings (.commandMissing (some path) project.settings.ecosystem))
  else return project

end DesignLink
