import DesignLink.Wire.Tagged

/-!
Settings of a project: which ecosystem its code belongs to, and how its parser is run.
-/

namespace DesignLink

open Wire

inductive Ecosystem where
  | react
  | html
  | swift
  | compose
  | custom
  deriving DecidableEq, Repr

namespace Ecosystem

def all : List Ecosystem := [react, html, swift, compose, custom]

/-- The name of the ecosystem in settings. -/
def tag : Ecosystem → String
  | react => "react"
  | html => "html"
  | swift => "swift"
  | compose => "compose"
  | custom => "custom"

/-- The name of the ecosystem in messages. -/
def title : Ecosystem → String
  | react => "React"
  | html => "Html"
  | swift => "Swift"
  | compose => "Compose"
  | custom => "Custom"

/-- Whether requests are answered without another program. -/
def isNative : Ecosystem → Bool
  | react | html => true
  | _ => false

/-- Whether one file may hold several connections. -/
def isMultiExport (e : Ecosystem) : Bool := e.isNative

def label : Ecosystem → String
  | react => "React"
  | html => "Web Components"
  | swift => "SwiftUI"
  | compose => "Compose"
  | custom => "Code"

def toJson (e : Ecosystem) : Json := .string e.tag

def read : Reader Ecosystem := Tagged.tag (all.map fun e => (e.tag, e))

end Ecosystem

structure Settings where
  ecosystem : Ecosystem
  command : Option String
  label : Option String
  language : Option String
  deriving DecidableEq

namespace Settings

def standard : Settings := ⟨.react, none, none, none⟩

def labelText (s : Settings) : String := s.label.getD s.ecosystem.label

def languageText (s : Settings) : String := s.language.getD "typescript"

def toJson (s : Settings) : Json :=
  .object <|
    [("parser", s.ecosystem.toJson)] ++ Json.given "parserCommand" .string s.command ++
      Json.given "label" .string s.label ++ Json.given "language" .string s.language

def record : Record Settings :=
  ((Record.defaulted "parser" Ecosystem.react Ecosystem.read).both
    ((Record.optional "parserCommand" Reader.text).both
      ((Record.optional "label" Reader.text).both (.optional "language" Reader.text)))).map
    fun (ecosystem, command, label, language) => ⟨ecosystem, command, label, language⟩

def read : Reader Settings := record.read "CodeConnectConfig"

end Settings

structure ProjectSettings where
  settings : Settings
  deriving DecidableEq

namespace ProjectSettings

def standard : ProjectSettings := ⟨.standard⟩

def toJson (p : ProjectSettings) : Json := .object [("codeConnect", p.settings.toJson)]

def read : Reader ProjectSettings :=
  ((Record.defaulted "codeConnect" Settings.standard Settings.read).map ProjectSettings.mk).read
    "ProjectConfig"

end ProjectSettings

end DesignLink
