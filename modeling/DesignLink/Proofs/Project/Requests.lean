import DesignLink.Proofs.Mapping.Derived
import DesignLink.Proofs.Project.ConnectionFile
import DesignLink.Proofs.Text.Words

/-!
The files of requests: what is read from a file is what the request asked for.
-/

namespace DesignLink

open Script Declaration

/-! Names of components are names of a module. -/

/-- A word that means something to the language or to an import is no name of a component. -/
theorem pascal_notMem (name : String) :
    Text.pascal name ∉ Parser.reserved ++ ["yield", "await", "type", "defer", "source"] :=
  Text.pascal_notMem_of_small (by decide) name

theorem isIdentifier_pascal (name : String) : Text.isIdentifier (Text.pascal name) = true := by
  obtain ⟨c, rest, shape, starts, alphanum⟩ := Text.exists_pascal name
  have first : (c.isAlpha || c = '_' || c = '$') = true := by
    rcases starts with upper | rfl
    · simp [Text.isAlpha_of_isUpper upper]
    · rfl
  have others : (rest.all fun c => c.isAlphanum || c = '_' || c = '$') = true := by
    rw [List.all_eq_true] at alphanum ⊢
    intro c member
    simp [alphanum c member]
  rw [Text.isIdentifier, shape]
  exact Bool.and_eq_true_iff.mpr ⟨first, others⟩

theorem isModuleName_pascal (name : String) : IsModuleName (Text.pascal name) := by
  have others := pascal_notMem name
  simp only [List.mem_append, List.mem_cons, not_or] at others
  refine ⟨isIdentifier_pascal name, ?_⟩
  rw [Parser.isName, List.contains_eq_mem, decide_eq_false others.1,
    beq_eq_false_iff_ne.mpr others.2.1, beq_eq_false_iff_ne.mpr others.2.2.1]
  rfl

theorem isDefaultName_pascal (name : String) : IsDefaultName (Text.pascal name) where
  isName := isModuleName_pascal name
  noKind := by
    intro member
    apply pascal_notMem name
    simp only [List.mem_append, List.mem_cons] at member ⊢
    exact .inr (.inr (.inr member))

/-! Files of single components. -/

namespace SingleRequest

theorem isPrintable_connection (r : SingleRequest)
    (unnamed : r.component.normalizedName = none) : r.connection.IsPrintable where
  component := by
    rintro _ ⟨⟩
  shown := by
    change IsModuleName r.fileName
    rw [fileName, unnamed]
    exact isModuleName_pascal r.component.name
  isDeclarable := (isPlain_derivedProps r.component).isDeclarable
  allFinite := (isPlain_derivedProps r.component).allFinite
  standAlone := (isPlain_derivedProps r.component).snippetsStandAlone

/-- The file of a component without a given name is read as the one connection that it was written
from, with nothing added. -/
theorem readConnections_single [Diagnoses] (r : SingleRequest)
    (unnamed : r.component.normalizedName = none) (file : String) :
    ∃ found, readConnections file r.fileText = .ok [.ok found] ∧
      found.node = r.component.nodeUrl ∧ found.component = none ∧
      found.props = r.component.derivedProps ∧ found.sample = some r.connection.sample ∧
      found.variant = none ∧ found.imports = [] := by
  have isPrintable := r.isPrintable_connection unnamed
  have noImports : ∀ line ∈ ([] : List String), IsImport line.toList := by simp
  have arePrintable : ∀ c ∈ [r.connection], c.IsPrintable := by simpa using isPrintable
  obtain ⟨connections, read, declare⟩ := readConnections_connectionFileText noImports
    (List.cons_ne_nil r.connection []) arePrintable file
  cases declare with
  | cons first rest =>
    cases rest
    exact ⟨_, read, first.node, first.component, first.props, first.sample, first.variant,
      first.imports⟩

/-- A slider whose node and properties hold quotes, line breaks and repeated names. -/
def slider : SingleRequest where
  mode := .create
  destination := "src"
  source := none
  component := ⟨"https://design/file?node=\"1\"\n2", "1:2", "2nd slider", none, none, some [
    ("Is \"on\"?#1:2", .object [("type", .string "BOOLEAN")]),
    ("size", .object [("type", .string "VARIANT"),
      ("variantOptions", .list [.string "XL", .string "it's", .string "xL"])]),
    ("is on", .object [("type", .string "TEXT")])]⟩
  settings := .standard

theorem readConnections_single_slider : slider.component.normalizedName = none ∧
    ∃ found, readConnections "Slider.figma.tsx" slider.fileText = .ok [.ok found] ∧
      found.node = "https://design/file?node=\"1\"\n2" ∧ found.component = none ∧
      found.props = [("isOn", .boolean "Is \"on\"?#1:2" none),
        ("size", .enum "size" [("XL", .literal (.string "xL")), ("it's", .literal (.string "itS")),
          ("xL", .literal (.string "xL"))])] ∧
      found.sample = some "(props) => <_2ndSlider isOn=\x7bprops.isOn\x7d size=\x7bprops.size\x7d />" ∧
      found.variant = none ∧ found.imports = [] :=
  ⟨rfl, readConnections_single slider rfl "Slider.figma.tsx"⟩

end SingleRequest

/-! The import of a file. -/

theorem toList_fromText {specifier : String} (plain : Text.escape '"' specifier = specifier) :
    (" from \"" ++ specifier ++ "\"").toList = fromText specifier := by
  have same : Text.escapeChars '"' specifier.toList = specifier.toList := by
    rw [← String.toList_ofList (l := Text.escapeChars '"' specifier.toList)]
    exact congrArg String.toList plain
  rw [fromText, quotedChars, same]
  simp

theorem toList_namesText {names : List String} :
    ("\x7b " ++ String.intercalate ", " names ++ " \x7d").toList = namesText names := by
  rw [namesText, ← Parser.intercalate_append]
  simp [String.toList_intercalate]

theorem isImport_importLine {defaultName : Option String}
    (isDefault : ∀ name ∈ defaultName, IsDefaultName name) {named : List String}
    (areNames : ∀ name ∈ named, IsModuleName name) {specifier : String}
    (plain : Text.escape '"' specifier = specifier) :
    ∀ line ∈ importLine defaultName named specifier, IsImport line.toList := by
  have ends := toList_fromText plain
  have braced := @toList_namesText named
  intro line member
  cases defaultName with
  | none =>
    cases named with
    | nil => cases member
    | cons name names =>
      obtain rfl : "import " ++ ("\x7b " ++ String.intercalate ", " (name :: names) ++ " \x7d") ++
          " from \"" ++ specifier ++ "\"" = line := Option.some.inj member
      have isImport := isImport_names (List.cons_ne_nil name names) areNames specifier
      rw [← ends, ← braced] at isImport
      simpa using isImport
  | some default_ =>
    have isDefault := isDefault default_ rfl
    cases named with
    | nil =>
      obtain rfl : "import " ++ default_ ++ " from \"" ++ specifier ++ "\"" = line :=
        Option.some.inj member
      have isImport := isImport_default isDefault specifier
      rw [← ends] at isImport
      simpa using isImport
    | cons name names =>
      obtain rfl : "import " ++ (default_ ++ ", " ++ ("\x7b " ++
          String.intercalate ", " (name :: names) ++ " \x7d")) ++ " from \"" ++ specifier ++ "\"" =
          line := Option.some.inj member
      have isImport := isImport_both isDefault (List.cons_ne_nil name names) areNames specifier
      rw [← ends, ← braced] at isImport
      simpa using isImport

/-! Files of several links. -/

namespace Link

/-- A link whose connection can be written: its export can be a name of a module, and a mapping that
it carries can be given by a declaration. -/
structure IsWritable (l : Link) : Prop where
  isName : l.sourceExport ≠ "default" → Text.isIdentifier l.sourceExport = true →
    Parser.isName .module l.sourceExport = true
  isDeclarable : ∀ props ∈ l.props, props.IsDeclarable
  allFinite : ∀ props ∈ l.props, AllFinite props.literals = true
  standAlone : ∀ props ∈ l.props, SnippetsStandAlone props.literals

variable {l : Link} {defaultName : String}

theorem isModuleName_importedName (isWritable : l.IsWritable) (isName : IsModuleName defaultName) :
    ∀ name ∈ l.importedName defaultName, IsModuleName name := by
  intro name member
  rw [importedName] at member
  split at member
  case isTrue =>
    obtain rfl := Option.some.inj member
    exact isName
  case isFalse notDefault =>
    split at member
    case isTrue isIdentifier =>
      obtain rfl := Option.some.inj member
      exact ⟨isIdentifier, isWritable.isName notDefault isIdentifier⟩
    case isFalse => cases member

theorem isPrintable_connection (isWritable : l.IsWritable) (isName : IsModuleName defaultName) :
    (l.connection defaultName).IsPrintable := by
  have imported := isModuleName_importedName isWritable isName
  have isPlain := isPlain_derivedProps l.component
  have shown : IsModuleName ((l.importedName defaultName).getD defaultName) := by
    cases found : l.importedName defaultName with
    | none => exact isName
    | some name => exact imported name found
  have mapping : (l.props.getD l.component.derivedProps).IsDeclarable ∧
      AllFinite (l.props.getD l.component.derivedProps).literals = true ∧
      SnippetsStandAlone (l.props.getD l.component.derivedProps).literals := by
    cases given : l.props with
    | none => exact ⟨isPlain.isDeclarable, isPlain.allFinite, isPlain.snippetsStandAlone⟩
    | some props =>
      exact ⟨isWritable.isDeclarable props given, isWritable.allFinite props given,
        isWritable.standAlone props given⟩
  exact ⟨imported, shown, mapping.1, mapping.2.1, mapping.2.2⟩

end Link

namespace MultiRequest

def importPath (r : MultiRequest) (directory : String) : String :=
  Path.importSpecifier (Path.join directory r.destination) (Path.join directory r.source)

/-- A request whose file can be written: so can its links, and the path of an import has no
characters that strings escape. -/
structure IsWritable (r : MultiRequest) (directory : String) : Prop where
  links : ∀ l ∈ r.links, l.IsWritable
  path : (∃ l ∈ r.links, (l.importedName r.name).isSome = true) →
    Text.escape '"' (r.importPath directory) = r.importPath directory

variable {r : MultiRequest}

theorem mem_namedImports {name : String} (member : name ∈ r.namedImports) :
    ∃ l ∈ r.links, l.importedName r.name = some name := by
  rw [namedImports, List.mem_eraseDups, List.mem_filter, Bool.and_eq_true, decide_eq_true_eq]
    at member
  obtain ⟨l, among, rfl⟩ := List.mem_map.mp member.1
  refine ⟨l, among, ?_⟩
  rw [Link.importedName, if_neg member.2.1, if_pos member.2.2]

theorem mem_defaultImport {name : String} (member : name ∈ r.defaultImport) :
    name = r.name ∧ ∃ l ∈ r.links, l.importedName r.name = some name := by
  rw [defaultImport] at member
  split at member
  case isTrue any =>
    obtain rfl := Option.some.inj member
    obtain ⟨l, among, isDefault⟩ := List.any_eq_true.mp any
    refine ⟨rfl, l, among, ?_⟩
    rw [Link.importedName, if_pos (of_decide_eq_true isDefault)]
  case isFalse => cases member

theorem exists_importedName {line specifier : String}
    (member : line ∈ importLine r.defaultImport r.namedImports specifier) :
    ∃ l ∈ r.links, (l.importedName r.name).isSome = true := by
  cases default_ : r.defaultImport with
  | some name =>
    obtain ⟨-, l, among, imported⟩ := mem_defaultImport (Option.mem_def.mpr default_)
    exact ⟨l, among, by rw [imported]; rfl⟩
  | none =>
    cases named : r.namedImports with
    | nil =>
      rw [default_, named] at member
      cases member
    | cons name names =>
      have first : name ∈ r.namedImports := by simp [named]
      obtain ⟨l, among, imported⟩ := mem_namedImports first
      exact ⟨l, among, by rw [imported]; rfl⟩

/-- The file of a request that can be written is read as the connections of its links. -/
theorem declares_fileText [Diagnoses] {directory : String} (isWritable : r.IsWritable directory)
    (nonempty : r.links ≠ []) (isDefault : IsDefaultName r.name) (file : String) :
    ∃ found, readConnections file (r.fileText directory) = .ok (found.map .ok) ∧
      List.Forall₂ NewConnection.Declares found (r.links.map (·.connection r.name)) := by
  have areImports : ∀ line ∈ (importLine r.defaultImport r.namedImports
      (r.importPath directory)).toList, IsImport line.toList := by
    intro line member
    rw [Option.mem_toList] at member
    have plain := isWritable.path (exists_importedName member)
    refine isImport_importLine ?_ ?_ plain line member
    · intro name default_
      rw [(mem_defaultImport default_).1]
      exact isDefault
    · intro name named
      obtain ⟨l, among, imported⟩ := mem_namedImports named
      exact Link.isModuleName_importedName (isWritable.links l among) isDefault.isName name imported
  have arePrintable : ∀ c ∈ r.links.map (·.connection r.name), c.IsPrintable := by
    intro c member
    obtain ⟨l, among, rfl⟩ := List.mem_map.mp member
    exact Link.isPrintable_connection (isWritable.links l among) isDefault.isName
  have nonempty' : r.links.map (·.connection r.name) ≠ [] := by simpa using nonempty
  exact readConnections_connectionFileText areImports nonempty' arePrintable file

end MultiRequest

/-! Groups of pending links. -/

/-- A request as groups hold it: it has links, and it is named like a component. -/
structure MultiRequest.IsGrouped (r : MultiRequest) : Prop where
  nonempty : r.links ≠ []
  isDefault : IsDefaultName r.name

def Groups.AreMulti (groups : Groups) : Prop :=
  ∀ entry ∈ groups, ∃ r, entry.2 = .multi r ∧ r.IsGrouped

theorem Groups.AreMulti.append {groups : Groups} (areMulti : groups.AreMulti) (p : Pending)
    (settings : Settings) (outDir : Option String) :
    (groups.append p settings outDir).AreMulti := by
  rw [Groups.append]
  split
  case h_1 request found =>
    obtain ⟨r, multi, isGrouped⟩ := areMulti _ (mem_of_get? found)
    obtain rfl : request = r := CreateRequest.multi.inj multi
    intro entry' member
    rcases mem_put member with before | rfl
    · exact areMulti entry' before
    · exact ⟨_, rfl, by simp, isGrouped.isDefault⟩
  case h_2 => exact areMulti
  case h_3 =>
    intro entry member
    rcases mem_put member with before | rfl
    · exact areMulti entry before
    · exact ⟨_, rfl, by simp [Pending.multiRequest], isDefaultName_pascal _⟩

/-- Grouping links of an ecosystem with several exports a file gives requests for several links. -/
theorem groupPending_multi (pending : List Pending) {settings : Settings}
    (multi : settings.ecosystem.isMultiExport = true) (outDir : Option String) :
    ∀ request ∈ groupPending pending settings outDir, ∃ r, request = .multi r ∧ r.IsGrouped := by
  have run : ∀ groups : Groups, groups.AreMulti → (pending.foldl (fun (groups : Groups) p =>
      if settings.ecosystem.isMultiExport then groups.append p settings outDir
      else groups.replace p settings outDir) groups).AreMulti := by
    induction pending with
    | nil => exact fun _ areMulti => areMulti
    | cons p pending ih =>
      intro groups areMulti
      apply ih
      simp only [multi, if_true]
      exact areMulti.append p settings outDir
  intro request member
  obtain ⟨entry, among, rfl⟩ := List.mem_map.mp member
  exact run [] (fun _ absurd_ => nomatch absurd_) entry among

/-- The file of grouped links that can be written is read as one connection for each of them, in
their order. -/
theorem readConnections_grouped [Diagnoses] (pending : List Pending) {settings : Settings}
    (native : settings.ecosystem = .react ∨ settings.ecosystem = .html) (outDir : Option String)
    {request : CreateRequest} (member : request ∈ groupPending pending settings outDir)
    (directory file : String) :
    ∃ r, request = .multi r ∧ (r.IsWritable directory →
      ∃ found, readConnections file (r.fileText directory) = .ok (found.map .ok) ∧
        List.Forall₂ (fun (c : Connection) (l : Link) =>
          c.node = l.component.nodeUrl ∧
          c.component = (if l.sourceExport = "default" then some r.name
            else if Text.isIdentifier l.sourceExport then some l.sourceExport else none) ∧
          c.props = l.props.getD l.component.derivedProps) found r.links) := by
  have multi : settings.ecosystem.isMultiExport = true := by
    rcases native with react | html
    · rw [react]
      rfl
    · rw [html]
      rfl
  obtain ⟨r, same, isGrouped⟩ := groupPending_multi pending multi outDir request member
  refine ⟨r, same, fun isWritable => ?_⟩
  obtain ⟨found, read, declare⟩ := MultiRequest.declares_fileText isWritable isGrouped.nonempty
    isGrouped.isDefault file
  refine ⟨found, read, ?_⟩
  rw [List.forall₂_map_right_iff] at declare
  apply declare.imp
  intro c l declares
  exact ⟨declares.node, declares.component, declares.props⟩

/-- A mapping of one variant. -/
def sizeProps : PropMapping := [("size", .enum "Size" [("Large", .literal (.string "lg"))])]

theorem isPlain_sizeProps : IsPlain sizeProps where
  isDeclarable := by
    simp [sizeProps, PropMapping.IsDeclarable, DistinctKeys, Dictionary.keys, PropsDeclarable,
      Helper.IsDeclarable, ValuesDeclarable]
  areTexts := by
    simp [sizeProps, AreTexts, PropMapping.literals, literalsOfProps, Helper.literals,
      literalsOfValues]

def buttonLinks : List Pending :=
  let node (url : String) : Component := ⟨url, "", "", none, none, some [
    ("Label#1:2", .object [("type", .string "TEXT")])]⟩
  [⟨"src/ui/button.tsx", "default", node "https://design/1", none, none⟩,
    ⟨"src/ui/button.tsx", "IconButton", node "https://design/2", some sizeProps, none⟩,
    ⟨"src/ui/button.tsx", "not a name", node "https://design/3", none, none⟩]

def buttons : MultiRequest :=
  ⟨.create, "src/ui", "src/ui/button.tsx", "Button", buttonLinks.map Pending.link, .standard⟩

theorem isWritable_buttons : buttons.IsWritable "project" where
  links := by
    have areNames : ∀ l ∈ buttons.links, l.sourceExport ≠ "default" →
        Text.isIdentifier l.sourceExport = true → Parser.isName .module l.sourceExport = true := by
      decide
    have given : ∀ l ∈ buttons.links, ∀ props ∈ l.props, props = sizeProps := by
      simp [buttons, buttonLinks, Pending.link]
    intro l member
    refine ⟨areNames l member, ?_, ?_, ?_⟩
    all_goals
      intro props carried
      rw [given l member props carried]
    · exact isPlain_sizeProps.isDeclarable
    · exact isPlain_sizeProps.allFinite
    · exact isPlain_sizeProps.snippetsStandAlone
  path := fun _ => by decide +kernel

theorem readConnections_grouped_buttons : CreateRequest.multi buttons ∈
    groupPending buttonLinks .standard none ∧ buttons.IsWritable "project" ∧
      ∃ a b c, readConnections "Button.figma.tsx" (buttons.fileText "project") =
        .ok [.ok a, .ok b, .ok c] ∧
        (a.node = "https://design/1" ∧ a.component = some "Button" ∧
          a.props = [("label", .string "Label#1:2")]) ∧
        (b.node = "https://design/2" ∧ b.component = some "IconButton" ∧
          b.props = sizeProps) ∧
        c.node = "https://design/3" ∧ c.component = none ∧
          c.props = [("label", .string "Label#1:2")] := by
  have member : CreateRequest.multi buttons ∈ groupPending buttonLinks .standard none :=
    List.mem_singleton.mpr rfl
  obtain ⟨r, same, reads⟩ := readConnections_grouped buttonLinks (.inl rfl) none member "project"
    "Button.figma.tsx"
  obtain rfl := CreateRequest.multi.inj same
  obtain ⟨found, read, each⟩ := reads isWritable_buttons
  refine ⟨member, isWritable_buttons, ?_⟩
  cases each with
  | cons first rest =>
    cases rest with
    | cons second rest =>
      cases rest with
      | cons third rest =>
        cases rest
        exact ⟨_, _, _, read, first, second, third⟩

/-- A link whose mapping is a document of an enum without values. -/
def emptyEnum : Pending :=
  ⟨"b.tsx", "b-1", ⟨"1:2", "", "", none, none, none⟩,
    some [("size", .enum "Size" [])], none⟩

def enumNames? : PropMapping → Option (String × String)
  | [(key, .enum name [])] => some (key, name)
  | _ => none

theorem eq_of_enumNames? {props : PropMapping} {key name : String}
    (names : enumNames? props = some (key, name)) : props = [(key, .enum name [])] := by
  unfold enumNames? at names
  split at names
  case h_1 =>
    cases names
    rfl
  case h_2 => cases names

theorem emptyEnum_decodes :
    ∃ text, Wire.Reader.ofText PropMapping.read text = .ok [("size", .enum "Size" [])] := by
  refine ⟨"\x7b\"size\":\x7b\"kind\":\"enum\",\"args\":\x7b\"figmaPropName\":\"Size\"," ++
    "\"valueMapping\":\x7b\x7d\x7d\x7d\x7d", ?_⟩
  have names : (Wire.Reader.ofText PropMapping.read
      ("\x7b\"size\":\x7b\"kind\":\"enum\",\"args\":\x7b\"figmaPropName\":\"Size\"," ++
        "\"valueMapping\":\x7b\x7d\x7d\x7d\x7d")).toOption.bind enumNames? =
      some ("size", "Size") := by
    decide +kernel
  obtain ⟨props, read, same⟩ := Option.bind_eq_some_iff.mp names
  rw [toOption_eq_some.mp read, eq_of_enumNames? same]

/-- A declaration can not give every mapping of a document: an enum needs a value. -/
theorem readConnections_grouped_emptyEnum :
    ¬ ∀ (pending : List Pending),
      (∀ p ∈ pending, ∀ props ∈ p.props,
        ∃ text, Wire.Reader.ofText PropMapping.read text = .ok props) →
      ∀ (settings : Settings), (settings.ecosystem = .react ∨ settings.ecosystem = .html) →
      ∀ (outDir : Option String), ∀ request ∈ groupPending pending settings outDir,
      ∀ directory file : String, ∃ r : MultiRequest, request = .multi r ∧
        ∃ found : List Connection,
          readConnections file (r.fileText directory) = .ok (found.map .ok) := by
  intro every
  have decodes : ∀ p ∈ [emptyEnum], ∀ props ∈ p.props,
      ∃ text, Wire.Reader.ofText PropMapping.read text = .ok props := by
    intro p member props carried
    obtain rfl := List.mem_singleton.mp member
    obtain rfl : [("size", .enum "Size" [])] = props := Option.some.inj carried
    exact emptyEnum_decodes
  have member : CreateRequest.multi (emptyEnum.multiRequest .standard none) ∈
      groupPending [emptyEnum] .standard none := List.mem_singleton.mpr rfl
  have broken : (readConnections "Button.figma.tsx"
      ((emptyEnum.multiRequest .standard none).fileText "")).toOption.map
        (fun found => found.all fun c => c.toOption.isSome) = some false := by
    decide +kernel
  obtain ⟨r, same, found, read⟩ := every [emptyEnum] decodes .standard (.inl rfl) none _ member
    "" "Button.figma.tsx"
  obtain rfl := CreateRequest.multi.inj same
  rw [read] at broken
  simp [Except.toOption] at broken

end DesignLink
