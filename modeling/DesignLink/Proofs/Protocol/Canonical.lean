import DesignLink.Proofs.Mapping.Stable
import DesignLink.Protocol.Exchange

/-!
Documents of the protocol in their written form: however a document is given, what is read of it is
read again of what is written for it.
-/

namespace DesignLink

open Wire

/-! Settings and components. -/

theorem Ecosystem.stable : Stable read toJson 0 := stable_tag fun e => by cases e <;> rfl

theorem Settings.stable : Stable read toJson 0 := by
  have react : Kept Ecosystem.read (Ecosystem.toJson .react) .react 0 := kept_tag rfl 0
  have parser := Record.stable_defaulted Ecosystem.stable "parser" react
  have text (name : String) : (Record.optional name Reader.text).Stable (Json.given name .string) 0 :=
    Record.stable_optional stable_text name fun _ => nofun
  have fields := parser.both
    ((text "parserCommand").both ((text "label").both (text "language") (by decide)) (by decide))
    (by decide)
  refine Record.Stable.read (fields.map fun (ecosystem, command, label, language) => ?_)
    "CodeConnectConfig" (Nat.zero_le _)
  simp only [List.append_assoc]

theorem Component.stable : Stable read toJson 0 := by
  have text (name : String) : (Record.optional name Reader.text).Stable (Json.given name .string) 0 :=
    Record.stable_optional stable_text name fun _ => nofun
  have empty (name : String) : (Record.defaulted name "" Reader.text).Stable
      (fun text => [(name, .string text)]) 0 :=
    Record.stable_defaulted stable_text name (.text "" 0)
  have fields := (Record.stable_required stable_text "figmaNodeUrl").both
    ((empty "id").both ((empty "name").both ((text "normalizedName").both ((text "type").both
      (Record.stable_optional stable_entries "componentPropertyDefinitions" fun _ => nofun)
      (by decide)) (by decide)) (by decide)) (by decide)) (by decide)
  refine Record.Stable.read
    (fields.map fun (nodeUrl, id, name, normalizedName, nodeType, definitions) => ?_)
    "ComponentDescriptor" (Nat.zero_le _)
  simp only [List.append_assoc, List.cons_append, List.nil_append]

/-! Links. -/

theorem Signature.stable : Stable read toJson 0 := stable_dictionary stable_text (Nat.zero_le _)

theorem Signature.stable_field : field.Stable (Json.given "typeSignature" toJson) 0 :=
  Record.stable_optionalAs Signature.stable "typeSignature" ["reactTypeSignature"] fun _ => nofun

theorem PropMapping.stable_field : (Record.optional "propMapping" read).Stable
    (Json.given "propMapping" toJson) 0 :=
  Record.stable_optional PropMapping.stable "propMapping" fun _ => nofun

theorem Link.stable : Stable read toJson 0 := by
  have fields := (Record.stable_required stable_text "sourceExport").both
    (PropMapping.stable_field.both (Signature.stable_field.both
      (Record.stable_required Component.stable "component") (by decide)) (by decide)) (by decide)
  refine Record.Stable.read (fields.map fun (sourceExport, props, signature, component) => ?_)
    "FigmaConnection" (Nat.zero_le _)
  simp only [List.append_assoc]

theorem Pending.stable : Stable read toJson 0 := by
  have sourceExport := Record.stable_defaulted stable_text "sourceExport" (.text "default" 0)
  have fields := (Record.stable_required stable_text "filepath").both
    (sourceExport.both ((Record.stable_required Component.stable "component").both
      (PropMapping.stable_field.both Signature.stable_field (by decide)) (by decide)) (by decide))
    (by decide)
  refine Record.Stable.read
    (fields.map fun (filepath, sourceExport, component, props, signature) => ?_)
    "PendingConnection" (Nat.zero_le _)
  simp only [List.cons_append, List.nil_append]

/-! Messages and responses. -/

theorem Message.stable : Stable read toJson 0 := by
  have level : Stable Level.read (fun level => .string level.tag) 0 :=
    stable_tag fun level => by cases level <;> rfl
  have fields := (Record.stable_required level "level").both
    (Record.stable_requiredAs stable_text "text" ["message"]) (by decide)
  exact Record.Stable.read (fields.map fun _ => rfl) "ParserMessage" (Nat.zero_le _)

theorem CreateResponse.stable : Stable read toJson 0 := by
  have file : Stable ((Record.required "filePath" Reader.text).read "CreatedFile")
      (fun path => .object [("filePath", .string path)]) 0 :=
    (Record.stable_required stable_text "filePath").read "CreatedFile" (Nat.zero_le _)
  have files : Stable (Reader.list ((Record.required "filePath" Reader.text).read "CreatedFile"))
      (fun paths => .list (paths.map fun path => .object [("filePath", .string path)])) 0 :=
    stable_list file (Nat.zero_le _)
  have messages : Stable (Reader.list Message.read)
      (fun messages => .list (messages.map Message.toJson)) 0 :=
    stable_list Message.stable (Nat.zero_le _)
  have fields := (Record.stable_required files "createdFiles").both
    (Record.stable_required messages "messages") (by decide)
  exact Record.Stable.read (fields.map fun _ => rfl) "CreateResponsePayload" (Nat.zero_le _)

/-! Published documents. -/

namespace Published

theorem stable_line : Stable readLine (fun line => .object [("line", .integer line)]) 0 :=
  (Record.stable_required stable_word32 "line").read "SourceLine" (Nat.zero_le _)

def dataMembers (data : Option PropMapping × List String) : List (String × Json) :=
  Json.given "props" PropMapping.toJson data.1 ++
    if data.2.isEmpty then [] else [("imports", .list (data.2.map .string))]

theorem stable_data : Stable readData (fun data => .object (dataMembers data)) 0 := by
  have texts : Stable (Reader.list Reader.text) (fun texts => .list (texts.map .string)) 0 :=
    stable_list stable_text (Nat.zero_le _)
  have imports : (Record.defaulted "imports" [] (Reader.list Reader.text)).Stable
      (fun imports => if imports.isEmpty then [] else [("imports", .list (imports.map .string))])
      0 :=
    Record.stable_omitted texts "imports" fun
      | [] => .inr ⟨rfl, rfl⟩
      | _ :: _ => .inl ⟨nofun, rfl⟩
  have fields := (Record.stable_optional PropMapping.stable "props" fun _ => nofun).both imports
    (by decide)
  exact fields.read "TemplateData" (Nat.zero_le _)

theorem stable : Stable read toJson 2 := by
  have line : Kept readLine (.object [("line", .integer (0 : Nat))]) 0 1 :=
    Record.KeptIn.read (.given (.word32 (by decide) 0)) "SourceLine"
  have data : Kept readData (.object (dataMembers (none, []))) (none, []) 1 :=
    stable_data (.object [] none) trivial .settled (none, []) 1 rfl (Nat.le_refl 1) (Nat.zero_le _)
  have text (name : String) := Record.stable_required stable_text name
  have fields := (text "figmaNode").both
    ((Record.stable_optional stable_text "component" fun _ => nofun).both
      ((Record.stable_optional ValueMapping.stable "variant" fun _ => nofun).both
        ((text "source").both ((Record.stable_defaulted stable_line "sourceLocation" line).both
          ((text "template").both ((Record.stable_defaulted stable_data "templateData" data).both
            ((text "language").both (text "label") (by decide)) (by decide)) (by decide))
          (by decide)) (by decide)) (by decide)) (by decide)) (by decide)
  refine Record.Stable.read
    (fields.map fun (node, component, variant, source, line, template, data, language, label) => ?_)
    "CodeConnectJson" (by decide)
  simp only [dataMembers, List.append_assoc, List.cons_append, List.nil_append]

end Published

/-! Requests to parse, and their responses. -/

theorem RequestMode.stable_field : field.Stable (fun mode => [("mode", mode.toJson)]) 0 := by
  have mode : Stable (Tagged.tag [("PARSE", parse), ("CREATE", create)]) toJson 0 :=
    stable_tag fun mode => by cases mode <;> rfl
  exact Record.stable_required mode "mode"

theorem ParseOptions.stable : Stable read toJson 0 := by
  have flag (name : String) : (Record.defaulted name false Reader.flag).Stable
      (fun value => [(name, .boolean value)]) 0 :=
    Record.stable_defaulted stable_flag name (.flag false 0)
  have fields := (flag "autoAddImports").both (flag "verbose") (by decide)
  exact Record.Stable.read (fields.map fun _ => rfl) "ParseOptions" (Nat.zero_le _)

theorem ParseRequest.stable : Stable read toJson 2 := by
  have options : Kept ParseOptions.read (ParseOptions.toJson ⟨false, false⟩) ⟨false, false⟩ 1 :=
    ParseOptions.stable (.object [] none) trivial .settled ⟨false, false⟩ 1 rfl (Nat.le_refl 1)
      (Nat.zero_le _)
  have paths : Stable (Reader.list Reader.text) (fun texts => .list (texts.map .string)) 0 :=
    stable_list stable_text (Nat.zero_le _)
  have fields := RequestMode.stable_field.both ((Record.stable_required paths "paths").both
    ((Record.stable_defaulted ParseOptions.stable "options" options).both
      (Record.stable_required Settings.stable "config") (by decide)) (by decide)) (by decide)
  exact Record.Stable.read (fields.map fun _ => rfl) "ParseRequestPayload" (by decide)

theorem ParseResponse.stable : Stable read toJson 4 := by
  have documents : Stable (Reader.list Published.read)
      (fun documents => .list (documents.map Published.toJson)) 3 :=
    stable_list Published.stable (by decide)
  have messages : Stable (Reader.list Message.read)
      (fun messages => .list (messages.map Message.toJson)) 0 :=
    stable_list Message.stable (Nat.zero_le _)
  have fields := (Record.stable_required documents "docs").both
    (Record.stable_required messages "messages") (by decide)
  exact Record.Stable.read (fields.map fun _ => rfl) "ParseResponsePayload" (by decide)

/-! Requests to create. -/

theorem SingleRequest.stable : Stable read toJson 0 := by
  have source := Record.stable_optional stable_text "sourceFilepath" fun _ => nofun
  have fields := RequestMode.stable_field.both
    ((Record.stable_required stable_text "destinationDir").both
      (source.both ((Record.stable_required Component.stable "component").both
        (Record.stable_required Settings.stable "config") (by decide)) (by decide)) (by decide))
    (by decide)
  refine Record.Stable.read
    (fields.map fun (mode, destination, source, component, settings) => ?_)
    "CreateRequestPayload" (Nat.zero_le _)
  simp only [List.cons_append, List.nil_append]

theorem MultiRequest.stable : Stable read toJson 0 := by
  have text (name : String) := Record.stable_required stable_text name
  have links : Stable (Reader.list Link.read) (fun links => .list (links.map Link.toJson)) 0 :=
    stable_list Link.stable (Nat.zero_le _)
  have fields := RequestMode.stable_field.both ((text "destinationDir").both
    ((text "sourceFilepath").both ((text "normalizedName").both
      ((Record.stable_required links "figmaConnections").both
        (Record.stable_required Settings.stable "config") (by decide)) (by decide)) (by decide))
      (by decide)) (by decide)
  exact Record.Stable.read (fields.map fun _ => rfl) "CreateRequestPayloadMulti" (Nat.zero_le _)

namespace CreateRequest

theorem multi_of_single (r : SingleRequest) (mode : Mode) :
    (MultiRequest.read mode (scanned r.toJson)).toOption = none := by
  rw [Option.eq_none_iff_forall_ne_some]
  intro multi same
  obtain ⟨inner, -, ⟨members, shape, found⟩ | ⟨items, shape, -⟩⟩ :=
    (Record.read_eq_ok_iff _ _ _ _ _).mp (toOption_eq_some.mp same)
  case inr => cases shape
  rw [SingleRequest.toJson, scanned, scannedMembers_eq] at shape
  have named : members = writtenMembers _ := (keyed_injective (Doc.object.inj shape).1).symm
  have missing : (Record.required "normalizedName" Reader.text).ofMembers inner members = none := by
    have parts : partsUnder ["normalizedName"] members = [] := by
      rw [named]
      cases r.source <;> simp [partsUnder, writtenMembers, Json.given]
    rw [Record.required, Record.requiredAs, Record.ofMembers_field, parts]
    rfl
  rw [Record.ofMembers_map, Record.ofMembers_both (by decide), Record.ofMembers_both (by decide),
    Record.ofMembers_both (by decide), Record.ofMembers_both (by decide), missing] at found
  simp at found

/-- A request for several links stays one, and so does a request for a single component. -/
theorem stable : Stable read toJson 0 := by
  intro doc inRange
  have multis : StableAt (fun mode doc => (MultiRequest.read mode doc).map multi) toJson 0 doc :=
    (MultiRequest.stable doc inRange).map fun _ => rfl
  have singles : StableAt (fun mode doc => (SingleRequest.read mode doc).map single) toJson 0 doc :=
    (SingleRequest.stable doc inRange).map fun _ => rfl
  refine stableAt_firstOf multis singles (fun request ok => ?_) "CreatePayload"
  obtain ⟨r, -, rfl⟩ := exists_of_map ok
  rw [toOption_map, toJson, multi_of_single]
  rfl

end CreateRequest

/-! Texts. -/

/-- What is read of a text is read of its own written form, if its finite numbers are. -/
def Wire.Reader.ReadsAgain {α : Type} (read : Reader α) (toJson : α → Json) : Prop :=
  ∀ (text : String) (a : α), Reader.ofText read text = .ok a → (toJson a).Survives →
    Reader.ofWholeText read (toJson a).compact = .ok a

theorem Wire.Stable.readsAgain {α : Type} {read : Reader α} {toJson : α → Json} {slack : Nat}
    (stable : Stable read toJson slack) (fits : slack ≤ 127) : Reader.ReadsAgain read toJson := by
  intro text a ok survives
  have inRange := Doc.inRange_ofText text.toList .endInString
  have kept := stable _ inRange (.stream Mode.depthLimit) a 127 ok (Nat.le_refl 127) fits
  have allows : (Mode.stream Mode.depthLimit).Allows (toJson a).depth :=
    Nat.lt_succ_of_le kept.shallow
  rw [Reader.ofWholeText_compact]
  exact kept.returns survives _ allows

/-- Every document of the protocol that is accepted, however it is given, stands for a value whose
written form is accepted as the same value. -/
theorem protocol_readsAgain :
    Reader.ReadsAgain Pending.read Pending.toJson ∧
      Reader.ReadsAgain CreateRequest.read CreateRequest.toJson ∧
      Reader.ReadsAgain ParseRequest.read ParseRequest.toJson ∧
      Reader.ReadsAgain ParseResponse.read ParseResponse.toJson ∧
      Reader.ReadsAgain CreateResponse.read CreateResponse.toJson ∧
      Reader.ReadsAgain Published.read Published.toJson :=
  ⟨Pending.stable.readsAgain (by decide), CreateRequest.stable.readsAgain (by decide),
    ParseRequest.stable.readsAgain (by decide), ParseResponse.stable.readsAgain (by decide),
    CreateResponse.stable.readsAgain (by decide), Published.stable.readsAgain (by decide)⟩

/-- A request for a single component that is given as a list, with a repeated key in it. -/
def listedRequest : String :=
  "[\"CREATE\", \"out\", null, \x7b\"figmaNodeUrl\": \"1:2\", \"extra\": [], " ++
    "\"componentPropertyDefinitions\": \x7b\"a\": 1, \"a\": 0.5\x7d\x7d, \x7b\x7d]"

def writtenRequest : String :=
  "\x7b\"mode\":\"CREATE\",\"destinationDir\":\"out\",\"component\":\x7b\"figmaNodeUrl\":\"1:2\"," ++
    "\"id\":\"\",\"name\":\"\",\"componentPropertyDefinitions\":\x7b\"a\":0.5\x7d\x7d," ++
    "\"config\":\x7b\"parser\":\"react\"\x7d\x7d"

theorem protocol_readsAgain_single : ∃ r, Reader.ofText CreateRequest.read listedRequest = .ok r ∧
    r.toJson.compact = writtenRequest ∧ r.toJson.Survives ∧
    Reader.ofWholeText CreateRequest.read writtenRequest = .ok r := by
  have parts : (Reader.ofText CreateRequest.read listedRequest).toOption.map (fun r =>
      (r.toJson.reals, r.toJson.compact)) =
      some ([.ofDecimal false 5 (-1)], writtenRequest) := by
    decide +kernel
  have readsBack : (Number.ofDecimal false 5 (-1)).ReadsBack := by
    rw [Number.readsBack_iff]
    decide +kernel
  obtain ⟨r, read, same⟩ := Option.map_eq_some_iff.mp parts
  obtain ⟨reals, written⟩ := Prod.mk.inj same
  have read := toOption_eq_some.mp read
  have survives : r.toJson.Survives := by
    intro value member _
    rw [reals, List.mem_singleton] at member
    rw [member]
    exact readsBack
  refine ⟨r, read, written, survives, ?_⟩
  rw [← written]
  exact protocol_readsAgain.2.1 listedRequest r read survives

end DesignLink
