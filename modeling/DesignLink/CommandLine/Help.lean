import DesignLink.CommandLine.Arguments

/-!
What the program says about itself.
-/

namespace DesignLink.CommandLine

def programName : String := "connect-native"

def versionText : String := programName ++ " 0.1.0\n"

def TaskKind.about : TaskKind → String
  | props => "Parse an object literal of helper calls and print its PropMapping as JSON"
  | render => "Render a PropMapping JSON file as a JavaScript object literal"
  | parse => "Parse connection files and print the PARSE response"
  | create => "Group linked components by source file and create their connection files"

def TaskKind.operands : TaskKind → String × String
  | props => ("<FILE>", "")
  | render => ("<MAPPING>", "")
  | parse =>
    ("[PATHS]...", "Files relative to the project directory; all connection files when empty")
  | create => ("<CONNECTIONS>", "JSON array of pending connections")

def verboseLine : String × String :=
  ("-v, --verbose...", "Enable verbose logging (use multiple times for increased verbosity)")

def quietLine : String × String := ("-q, --quiet", "Suppress non-error output")

def helpLine : String × String := ("-h, --help", "Print help")

def TaskKind.options : TaskKind → List (String × String)
  | props => [verboseLine, quietLine, helpLine]
  | render => [
    ("    --selector <SELECTOR>", "Layer expression the lookups run against"),
    verboseLine, quietLine, helpLine]
  | parse => [
    ("    --dir <DIR>", "[default: .]"), verboseLine, ("    --auto-add-imports", ""), quietLine,
    helpLine]
  | create => [
    ("    --dir <DIR>", "[default: .]"), verboseLine,
    ("    --out-dir <OUT_DIR>", "Write every file here instead of next to its source file"),
    quietLine, helpLine]

/-- A block of lines, each a term and what it means, the meanings below each other. -/
def block (title : String) (lines : List (String × String)) : String :=
  let width := lines.foldl (fun width line => max width line.1.length) 0
  title ++ ":\n" ++ String.join (lines.map fun (term, meaning) =>
    "  " ++ term ++ String.ofList (List.replicate (width - term.length + 2) ' ') ++ meaning ++ "\n")

def programHelp : String :=
  "Compile figma.* helper calls and drive Code Connect parser executables\n\n" ++
    "Usage: " ++ programName ++ " [OPTIONS] <COMMAND>\n\n" ++
    block "Commands" (TaskKind.all.map (fun kind => (kind.word, kind.about)) ++
      [("help", "Print this message or the help of the given subcommand(s)")]) ++ "\n" ++
    block "Options" [verboseLine, quietLine, helpLine, ("-V, --version", "Print version")]

def TaskKind.help (kind : TaskKind) : String :=
  kind.about ++ "\n\n" ++
    "Usage: " ++ programName ++ " " ++ kind.word ++ " [OPTIONS] " ++ kind.operands.1 ++ "\n\n" ++
    block "Arguments" [kind.operands] ++ "\n" ++ block "Options" kind.options

/-- The help about one of the tasks, or about all of them. -/
def helpText : Option TaskKind → String
  | none => programHelp
  | some kind => kind.help

end DesignLink.CommandLine
