import DesignLink.Project.ConnectionFile
import DesignLink.Declaration.Connections
import DesignLink.Proofs.Declaration.RoundTrip
import DesignLink.Proofs.Script.Imports
import DesignLink.Proofs.Script.Samples

/-!
New connections in their text: each is one statement, and what is read from it is what it was
written from.
-/

namespace DesignLink.Script
open DesignLink.Script.Parser DesignLink.Script.Grammar

/-! Connections as statements. -/

/-- What may stand behind a connection: the next one behind an empty line, or the end of the text. -/
inductive EndsConnection : List Char → Prop where
  | connection (rest : List Char) : EndsConnection ("\n\nfigma.connect(".toList ++ rest)
  | ending : EndsConnection ['\n']

namespace EndsConnection

variable {rest : List Char} (follows : EndsConnection rest)
include follows

theorem closes : Closes rest := by
  cases follows with
  | connection rest => exact .connection rest
  | ending => exact .ending

theorem ends (offset waiting : Nat) :
    endStatement (.behind ⟨offset, rest⟩ waiting) = some ((), .behind ⟨offset, rest⟩ waiting) := by
  cases follows with
  | connection rest => rfl
  | ending => rfl

theorem noComma (offset waiting : Nat) :
    (State.behind ⟨offset, rest⟩ waiting).lexeme.token ≠ .mark "," := by
  cases follows with
  | connection rest => exact (by decide : Token.word "figma" false ≠ .mark ",")
  | ending => exact (by decide : Token.finished ≠ .mark ",")

end EndsConnection

/-- A connection is no declaration, and nothing else that starts with a word of its own. -/
theorem statementRule_of_figma (r : Rules) (newline : Bool) (previous offset waiting : Nat)
    (text : List Char) :
    statementRule r .module .outermost
      (.at newline previous ⟨offset, "figma.connect(".toList ++ text⟩ waiting) =
      expressionStatement r .module
        (.at newline previous ⟨offset, "figma.connect(".toList ++ text⟩ waiting) := rfl

section Connect

variable {ι : Type} {xs : List ι} (nonempty : xs ≠ []) (text : ι → List Char)
  (Q : Source → Expr → ι → Prop) (each : ∀ x ∈ xs, Reads (text x) (Q · · x))

theorem connectText_eq : callText "figma" ["connect"] (xs.map text) =
    "figma.connect(".toList ++ joined [' '] [')'] (xs.map text) := rfl

include nonempty each in
theorem statement_of_connect {depth : Nat}
    (enough : 8 * (callText "figma" ["connect"] (xs.map text)).length ≤ depth + 4)
    {rest : List Char} (follows : EndsConnection rest) (newline : Bool)
    (previous offset waiting : Nat) :
    ∃ span e, (rules (depth + 6)).statement .module .outermost (.at newline previous
        ⟨offset, callText "figma" ["connect"] (xs.map text) ++ rest⟩ waiting) =
        some (.expression span e, .behind ⟨offset +
          Text.byteSize (callText "figma" ["connect"] (xs.map text)), rest⟩ waiting) ∧
      ∀ source : Source, source.GoesOn offset (callText "figma" ["connect"] (xs.map text) ++ rest) →
        ReadsCall "figma" ["connect"] text Q xs source e := by
  obtain ⟨e, operand, meaning⟩ := operand_of_call (by decide : IsOperandName "figma")
    (by decide : ∀ name ∈ ["connect"], Text.isIdentifier name = true) nonempty text Q each enough
    newline previous offset waiting follows.closes
  have ends := follows.ends (offset + Text.byteSize (callText "figma" ["connect"] (xs.map text)))
    waiting
  have noComma := follows.noComma
    (offset + Text.byteSize (callText "figma" ["connect"] (xs.map text))) waiting
  have stops := follows.closes.stops
    (offset + Text.byteSize (callText "figma" ["connect"] (xs.map text)))
    (offset + Text.byteSize (callText "figma" ["connect"] (xs.map text))) waiting
  generalize offset + Text.byteSize (callText "figma" ["connect"] (xs.map text)) = stop
    at operand ends noComma stops ⊢
  rw [connectText_eq, List.append_assoc] at operand meaning ⊢
  generalize joined [' '] [')'] (xs.map text) ++ rest = text' at operand meaning ⊢
  refine ⟨⟨offset, stop⟩, e, ?_, meaning⟩
  have start : (State.at newline previous ⟨offset, "figma.connect(".toList ++ text'⟩
      waiting).lexeme.start = offset := rfl
  have token : (State.at newline previous ⟨offset, "figma.connect(".toList ++ text'⟩
      waiting).lexeme.token = .word "figma" false := rfl
  have statement := statementRule_of_figma (rules (depth + 5)) newline previous offset waiting text'
  generalize State.at newline previous ⟨offset, "figma.connect(".toList ++ text'⟩ waiting = s
    at operand start token statement ⊢
  have opens : NotAt openers s := by
    have found : plainText s.lexeme.token = some "figma" := by
      rw [token]
      rfl
    exact notAt_of_plainText openers found (by decide)
  have operators : NotAt operatorOpeners s := opens.of_subset (List.subset_append_left _ _)
  have arrows : NotAt arrowOpeners s := opens.of_subset (List.subset_append_right _ _)
  have public_ : s.lexeme.token ≠ .privateName := by
    rw [token]
    rintro ⟨⟩
  have unary : unaryRule (rules (depth + 1)) .module s = some (e, .behind ⟨stop, rest⟩ waiting) :=
    unaryRule_of_operand (r := rules (depth + 1)) operators operand stops
  have value : (rules (depth + 4)).assignment .module true s =
      some (e, .behind ⟨stop, rest⟩ waiting) :=
    value_of_unary rfl (arrowFunction?_of_notAt true arrows) public_ unary stops
  have comma : (rules (depth + 5)).comma .module s = some (e, .behind ⟨stop, rest⟩ waiting) :=
    comma_of_value rfl value stops noComma
  change statementRule (rules (depth + 5)) .module .outermost s = _
  rw [statement, expressionStatement_of_comma rfl comma ends, start]
  rfl

end Connect
end DesignLink.Script

namespace DesignLink

open Script Declaration

/-- The text of a value, and what is read for it. -/
structure Piece where
  text : List Char
  meaning : Source → Expr → Prop

namespace NewConnection

def attributes (c : NewConnection) : List String :=
  (Dictionary.keys c.props).filter Text.isIdentifier

def printAttribute (name : String) : String := name ++ "=\x7bprops." ++ name ++ "\x7d"

theorem toList_attributes : ∀ {names : List String}, names ≠ [] →
    ' ' :: (String.intercalate " " (names.map printAttribute)).toList = attributesText names
  | [name], _ => by
    simp [printAttribute, attributesText, attributeText]
  | name :: other :: names, _ => by
    have later := toList_attributes (List.cons_ne_nil other names)
    have shape : attributesText (name :: other :: names) =
        ' ' :: (attributeText name ++ attributesText (other :: names)) := by
      simp [attributesText]
    rw [shape, ← later]
    simp [printAttribute, attributeText, String.toList_intercalate]

theorem toList_sample (c : NewConnection) : c.sample.toList = sampleText c.shown c.attributes := by
  change (if (c.attributes.map printAttribute).isEmpty then "() => <" ++ c.shown ++ " />"
    else "(props) => <" ++ c.shown ++ " " ++
      String.intercalate " " (c.attributes.map printAttribute) ++ " />").toList = _
  rw [List.isEmpty_map, sampleText, elementText]
  split
  case isTrue empty =>
    rw [List.isEmpty_iff.mp empty]
    simp [attributesText]
  case isFalse nonempty =>
    have nonempty' : c.attributes ≠ [] := by simpa using nonempty
    rw [← toList_attributes nonempty']
    simp

/-! The settings of a connection. -/

def settings (c : NewConnection) : List (String × Piece) := [
  ("props", ⟨(c.props.print 2).toList, ReadsProps c.props⟩),
  ("example", ⟨c.sample.toList, fun source e => source.textOf e.span = c.sample⟩)]

def settingsText (c : NewConnection) : List Char :=
  '\x7b' :: (['\n', ' ', ' '] ++ Parser.joined ['\n', ' ', ' '] [',', '\n', '\x7d']
    (c.settings.map fun setting => setting.1.toList ++ ':' :: ' ' :: setting.2.text))

def ReadsMembers (c : NewConnection) (source : Source) (members : List Member) : Prop :=
  List.Forall₂ (fun member (setting : String × Piece) => ∃ span span' value,
    member = .field span (.name span' setting.1) false value ∧ setting.2.meaning source value)
    members c.settings

def ReadsSettings (c : NewConnection) (source : Source) (e : Expr) : Prop :=
  ∃ span members, e = .object span members ∧ ReadsMembers c source members

/-- A connection whose written form can be read: its names can be names of a module, and its mapping
can be given by a declaration. -/
structure IsPrintable (c : NewConnection) : Prop where
  component : ∀ name ∈ c.component, IsModuleName name
  shown : IsModuleName c.shown
  isDeclarable : c.props.IsDeclarable
  allFinite : AllFinite c.props.literals = true
  standAlone : SnippetsStandAlone c.props.literals

variable {c : NewConnection} (isPrintable : c.IsPrintable)
include isPrintable

theorem reads_sample : Reads c.sample.toList fun source e => source.textOf e.span = c.sample := by
  have isWord : Parser.isName bodyContext c.shown = true := by
    have isName := isPrintable.shown.2
    simp only [Parser.isName, Bool.and_eq_true] at isName ⊢
    exact ⟨⟨isName.1.1, rfl⟩, rfl⟩
  have areNames : ∀ name ∈ c.attributes, Text.isIdentifier name = true := fun name member =>
    (List.mem_filter.mp member).2
  have reads := Script.reads_sample isPrintable.shown.1 isWord areNames
  rw [← toList_sample, String.ofList_toList] at reads
  exact reads

theorem reads_settings : Reads c.settingsText c.ReadsSettings := by
  have isGap : IsGap ['\n', ' ', ' '] := by simp [IsGap]
  have ends : Parser.ListTail "\x7d" [',', '\n', '\x7d'] :=
    listTail_commaBrace (by simp [IsGap] : IsGap ['\n'])
  have each : ∀ setting ∈ c.settings, Text.isIdentifier setting.1 = true ∧
      Reads setting.2.text setting.2.meaning := by
    intro setting member
    simp only [settings, List.mem_cons, List.not_mem_nil, or_false] at member
    rcases member with rfl | rfl
    · exact ⟨(by decide : Text.isIdentifier "props" = true),
        reads_print isPrintable.isDeclarable isPrintable.standAlone 2⟩
    · exact ⟨(by decide : Text.isIdentifier "example" = true), reads_sample isPrintable⟩
  have object := reads_object isGap ends (by decide)
    (fun setting : String × Piece => setting.1.toList ++ ':' :: ' ' :: setting.2.text)
    (fun source member setting => ∃ span span' value,
      member = .field span (.name span' setting.1) false value ∧ setting.2.meaning source value)
    (List.cons_ne_nil _ _ : c.settings ≠ []) (by
    intro setting member depth enough
    rw [List.length_append, List.length_cons, List.length_cons] at enough
    obtain ⟨isName, reads⟩ := each setting member
    apply (Reads.member (readsKey_name isName) reads _ (by omega)).imp
    rintro source _ ⟨span, _, value, rfl, ⟨span', rfl⟩, meaning⟩
    exact ⟨span, span', value, rfl, meaning⟩)
  exact object

omit isPrintable in
theorem takeSettings {source : Source} {members : List Member} (before : Connection)
    (finite : AllFinite c.props.literals = true)
    (reads : ReadsMembers c source members) :
    members.foldlM (takeSetting source) before =
      .ok { before with props := c.props, sample := some c.sample } := by
  cases reads with
  | cons first rest =>
    cases rest with
    | cons second last =>
      cases last
      obtain ⟨span, span', _, rfl, ⟨span'', members, rfl, props⟩⟩ := first
      obtain ⟨span₂, span₂', value, rfl, text⟩ := second
      rw [if_pos finite, toOption_eq_some] at props
      have taken : takeSetting source before (.field span (.name span' "props") false
          (.object span'' members)) = .ok { before with props := c.props } := by
        change (do return { before with props := ← propsOf source members } :
          Except Problem Connection) = _
        rw [props]
        rfl
      have taken' : takeSetting source { before with props := c.props }
          (.field span₂ (.name span₂' "example") false value) =
          .ok { before with props := c.props, sample := some c.sample } := by
        change (.ok { before with props := c.props, sample := some (source.textOf value.span) } :
          Except Problem Connection) = _
        rw [show source.textOf value.span = c.sample from text]
      have last : ([.field span₂ (.name span₂' "example") false value] : List Member).foldlM
          (takeSetting source) { before with props := c.props } =
          .ok { before with props := c.props, sample := some c.sample } := by
        rw [List.foldlM_cons, taken']
        rfl
      change ([.field span (.name span' "props") false (.object span'' members),
        .field span₂ (.name span₂' "example") false value] : List Member).foldlM
          (takeSetting source) before = _
      rw [List.foldlM_cons, taken]
      exact last

/-! The call of a connection. -/

/-- The arguments of the call: the component if the file imports it, the node and the settings. -/
def arguments (c : NewConnection) : List Piece :=
  (c.component.map fun name => ⟨name.toList, ReadsName name⟩).toList ++ [
    ⟨quotedChars '"' c.node, fun _ e => ∃ span, e = .string span c.node⟩,
    ⟨c.settingsText, c.ReadsSettings⟩]

omit isPrintable in
theorem arguments_ne_nil (c : NewConnection) : c.arguments ≠ [] := by
  rw [arguments]
  exact List.append_ne_nil_of_right_ne_nil _ (List.cons_ne_nil _ _)

def connectText (c : NewConnection) : List Char :=
  callText "figma" ["connect"] (c.arguments.map Piece.text)

omit isPrintable in
theorem toList_settings (c : NewConnection) : c.settingsText =
    ("\x7b\n  props: " ++ PropMapping.print 2 c.props ++ ",\n  example: " ++ c.sample ++
      ",\n\x7d").toList := by
  simp [settingsText, settings, Parser.joined]

omit isPrintable in
theorem toList_print (c : NewConnection) : c.print.toList = c.connectText ++ ['\n'] := by
  have parts : c.arguments.map Piece.text =
      (c.component.map String.toList).toList ++ [quotedChars '"' c.node, c.settingsText] := by
    rw [arguments]
    cases c.component <;> rfl
  have layout : c.print = "figma.connect(" ++ (c.component.map (· ++ ", ")).getD "" ++
      Text.quoted c.node ++ ", \x7b\n  props: " ++ PropMapping.print 2 c.props ++
        ",\n  example: " ++ c.sample ++ ",\n\x7d)\n" := rfl
  rw [connectText, parts, toList_settings, layout]
  generalize PropMapping.print 2 c.props = props
  generalize c.sample = sample
  rw [callText, argumentsText]
  cases c.component with
  | none =>
    simp [toList_quoted, Parser.joined, pathText, membersText]
  | some name =>
    simp [toList_quoted, Parser.joined, pathText, membersText]

theorem reads_arguments : ∀ argument ∈ c.arguments, Reads argument.text argument.meaning := by
  intro argument member
  rcases List.mem_append.mp member with first | rest
  · cases component : c.component with
    | none =>
      rw [component] at first
      cases first
    | some name =>
      rw [component] at first
      obtain rfl := List.mem_singleton.mp first
      exact reads_name (isPrintable.component name component)
  · simp only [List.mem_cons, List.not_mem_nil, or_false] at rest
    rcases rest with rfl | rfl
    · exact reads_quoted (.inl rfl) c.node
    · exact reads_settings isPrintable

omit isPrintable in
theorem takeArguments {source : Source} {items : List Item}
    (reads : List.Forall₂ (fun item (piece : Piece) =>
      ∃ e, item = .value e ∧ piece.meaning source e) items c.arguments) :
    ∃ members, items.foldlM (takeArgument source) ⟨none, none, []⟩ =
        .ok ⟨c.component, some c.node, members⟩ ∧
      ReadsMembers c source members := by
  rw [arguments] at reads
  cases component : c.component with
  | none =>
    rw [component] at reads
    cases reads with
    | cons node rest =>
      cases rest with
      | cons settings last =>
        cases last
        obtain ⟨_, rfl, ⟨span, rfl⟩⟩ := node
        obtain ⟨_, rfl, ⟨span', members, rfl, meaning⟩⟩ := settings
        exact ⟨members, rfl, meaning⟩
  | some name =>
    rw [component] at reads
    cases reads with
    | cons first rest =>
      cases rest with
      | cons node rest =>
        cases rest with
        | cons settings last =>
          cases last
          obtain ⟨_, rfl, ⟨span'', rfl, text⟩⟩ := first
          obtain ⟨_, rfl, ⟨span, rfl⟩⟩ := node
          obtain ⟨_, rfl, ⟨span', members, rfl, meaning⟩⟩ := settings
          refine ⟨members, ?_, meaning⟩
          rw [← text]
          rfl

omit isPrintable in
/-- What a connection declares is what the new connection says. -/
structure Declares (found : Connection) (c : NewConnection) : Prop where
  node : found.node = c.node
  component : found.component = c.component
  props : found.props = c.props
  sample : found.sample = some c.sample
  variant : found.variant = none
  imports : found.imports = []

omit isPrintable in
/-- What is read for the call of a connection: the only call in it, which declares the connection. -/
def ReadsConnection (c : NewConnection) (source : Source) (e : Expr) : Prop :=
  callsInExpr source e = [e] ∧
    ∃ found, connectionOfCall source e = .ok found ∧ Declares found c

omit isPrintable in
theorem readsConnection_of_call (finite : AllFinite c.props.literals = true) {source : Source}
    {e : Expr} (read : ReadsCall "figma" ["connect"] Piece.text (fun source e piece =>
      piece.meaning source e) c.arguments source e) : ReadsConnection c source e := by
  obtain ⟨span, callee, items, rfl, text, reads⟩ := read
  obtain ⟨members, taken, readsMembers⟩ := takeArguments reads
  constructor
  case left =>
    have isConnect_ : isConnect source span = true := by
      rw [isConnect, text, String.toList_ofList, List.isPrefixOf_iff_prefix]
      exact ⟨argumentsText (c.arguments.map Piece.text), rfl⟩
    rw [callsInExpr, if_pos isConnect_]
  case right =>
    have bare := takeSettings ⟨c.node, c.component, source.location span.start, [], none, none, []⟩
      finite readsMembers
    have found : connectionOfCall source (.call span callee [] items) = .ok ⟨c.node, c.component,
        source.location span.start, c.props, some c.sample, none, []⟩ := by
      rw [connectionOfCall, connectionOf, taken]
      exact bare
    exact ⟨_, found, ⟨rfl, rfl, rfl, rfl, rfl, rfl⟩⟩

end NewConnection
end DesignLink
