import DesignLink.Proofs.Project.Grouping
import DesignLink.Proofs.Project.Requests

/-!
The names that a new file imports, as its text gives them: words of the lines in front. They bind
each name once unless the default export, a named export or the helper share one.
-/

namespace DesignLink

/-! Words of lines. -/

/-- Whether a word of code may hold the character. -/
def isWordPart (c : Char) : Bool := c.isAlphanum || c = '_' || c = '$'

def words (text : List Char) : List (List Char) :=
  (text.splitOnP fun c => !isWordPart c).filter (· ≠ [])

def importLines (text : List Char) : List (List Char) :=
  (text.splitOn '\n').takeWhile fun line => "import ".toList.isPrefixOf line

/-- The names that an import binds: the words between `import` and `from`, as long as it gives none
of them another name. -/
def importedWords (line : List Char) : List String :=
  ((words (line.takeWhile (· ≠ '"'))).drop 1).dropLast.map String.ofList

def boundNames (text : String) : List String := (importLines text.toList).flatMap importedWords

/-- A text that is one word. -/
structure IsWord (text : List Char) : Prop where
  nonempty : text ≠ []
  areParts : ∀ c ∈ text, isWordPart c = true

theorem words_nil : words [] = [] := by
  simp [words, List.splitOnP_nil]

theorem words_append {c : Char} (separates : isWordPart c = false) (front back : List Char) :
    words (front ++ c :: back) = words front ++ words back := by
  rw [words, List.splitOnP_append_cons front back (by simp [separates]), List.filter_append]
  rfl

theorem words_cons {c : Char} (separates : isWordPart c = false) (rest : List Char) :
    words (c :: rest) = words rest := by
  simpa [words_nil] using words_append separates [] rest

theorem IsWord.words {text : List Char} (isWord : IsWord text) : words text = [text] := by
  have whole : text.splitOnP (fun c => !isWordPart c) = [text] :=
    List.splitOnP_eq_singleton fun c member => by simp [isWord.areParts c member]
  rw [DesignLink.words, whole]
  simp [isWord.nonempty]

theorem isWord_of_isIdentifier {name : String} (isName : Text.isIdentifier name = true) :
    IsWord name.toList := by
  unfold Text.isIdentifier at isName
  split at isName
  case h_1 => cases isName
  case h_2 c rest shape =>
    rw [Bool.and_eq_true, List.all_eq_true] at isName
    rw [shape]
    refine ⟨List.cons_ne_nil c rest, List.forall_mem_cons.mpr ⟨?_, isName.2⟩⟩
    have first := isName.1
    simp only [Bool.or_eq_true, isWordPart, Char.isAlphanum] at first ⊢
    tauto

theorem words_intercalate {names : List (List Char)} (areWords : ∀ name ∈ names, IsWord name) :
    words ([',', ' '].intercalate names) = names := by
  induction names with
  | nil => simp [words_nil]
  | cons name rest ih =>
    obtain ⟨isWord, others⟩ := List.forall_mem_cons.mp areWords
    by_cases last : rest = []
    · subst last
      simpa using isWord.words
    · rw [List.intercalate_cons_of_ne_nil last, List.append_assoc, List.cons_append,
        words_append (by decide), List.singleton_append, words_cons (by decide), isWord.words,
        ih others]
      rfl

theorem mem_intercalate_names {names : List (List Char)} {c : Char}
    (member : c ∈ [',', ' '].intercalate names) :
    c = ',' ∨ c = ' ' ∨ ∃ name ∈ names, c ∈ name := by
  induction names with
  | nil => cases member
  | cons name rest ih =>
    by_cases last : rest = []
    · subst last
      exact .inr (.inr ⟨name, List.mem_cons_self, by simpa using member⟩)
    · rw [List.intercalate_cons_of_ne_nil last] at member
      simp only [List.mem_append, List.mem_cons, List.not_mem_nil, or_false] at member
      rcases member with (inside | comma | blank) | later
      · exact .inr (.inr ⟨name, List.mem_cons_self, inside⟩)
      · exact .inl comma
      · exact .inr (.inl blank)
      · rcases ih later with comma | blank | ⟨other, among, inside⟩
        · exact .inl comma
        · exact .inr (.inl blank)
        · exact .inr (.inr ⟨other, List.mem_cons_of_mem name among, inside⟩)

/-! The words of imports. -/

/-- What an import says between `import` and `from`: words and marks between them. -/
structure IsClause (clause : List Char) (names : List (List Char)) : Prop where
  words : words clause = names
  noMark : '"' ∉ clause ∧ '\n' ∉ clause

theorem IsWord.isClause {name : List Char} (isWord : IsWord name) : IsClause name [name] where
  words := isWord.words
  noMark := by
    constructor
    · exact fun member => absurd (isWord.areParts _ member) (by decide)
    · exact fun member => absurd (isWord.areParts _ member) (by decide)

theorem isClause_namesText {names : List (List Char)} (areWords : ∀ name ∈ names, IsWord name) :
    IsClause ("\x7b ".toList ++ ([',', ' '].intercalate names ++ " \x7d".toList)) names := by
  have opening : "\x7b ".toList = ['\x7b', ' '] := by decide
  have closing : " \x7d".toList = [' ', '\x7d'] := by decide
  rw [opening, closing]
  have other {c : Char} (noPart : isWordPart c = false) (noComma : c ≠ ',') (noBlank : c ≠ ' ')
      (noBrace : c ≠ '\x7b' ∧ c ≠ '\x7d') :
      c ∉ ['\x7b', ' '] ++ ([',', ' '].intercalate names ++ [' ', '\x7d']) := by
    have noName : c ∉ [',', ' '].intercalate names := by
      intro member
      rcases mem_intercalate_names member with rfl | rfl | ⟨name, own, inside⟩
      · exact noComma rfl
      · exact noBlank rfl
      · rw [(areWords name own).areParts c inside] at noPart
        cases noPart
    simp only [List.mem_append, List.mem_cons, List.not_mem_nil, or_false, noName, noBlank, noBrace]
    exact not_false
  refine ⟨?_, other (by decide) (by decide) (by decide) (by decide),
    other (by decide) (by decide) (by decide) (by decide)⟩
  rw [List.cons_append, words_cons (by decide), List.singleton_append, words_cons (by decide),
    words_append (by decide), words_cons (by decide), words_nil, List.append_nil,
    words_intercalate areWords]

theorem IsClause.both {clause : List Char} {name : List Char} {names : List (List Char)}
    (isWord : IsWord name) (isClause : IsClause clause names) :
    IsClause (name ++ (", ".toList ++ clause)) (name :: names) where
  words := by
    have comma : ", ".toList = [',', ' '] := by decide
    rw [comma, List.cons_append, words_append (by decide), List.singleton_append,
      words_cons (by decide), isWord.words, isClause.words]
    rfl
  noMark := by
    have comma : '"' ∉ ", ".toList ∧ '\n' ∉ ", ".toList := by decide
    simp only [List.mem_append, not_or]
    exact ⟨⟨isWord.isClause.noMark.1, comma.1, isClause.noMark.1⟩,
      isWord.isClause.noMark.2, comma.2, isClause.noMark.2⟩

def lineText (clause path : List Char) : List Char :=
  "import ".toList ++ (clause ++ (" from \"".toList ++ (path ++ ['"'])))

theorem lineText_eq (clause path : List Char) : lineText clause path =
    "import ".toList ++ (clause ++ (" from \"".toList ++ (path ++ ['"']))) := rfl

theorem takeWhile_noQuote {front : List Char} (noQuote : '"' ∉ front) (rest : List Char) :
    (front ++ '"' :: rest).takeWhile (· ≠ '"') = front := by
  have passes : ∀ c ∈ front, decide (c ≠ '"') = true :=
    fun c member => decide_eq_true fun same => noQuote (same ▸ member)
  rw [List.takeWhile_append_of_pos passes]
  simp

theorem IsClause.importedWords {clause : List Char} {names : List (List Char)}
    (isClause : IsClause clause names) (path : List Char) :
    importedWords (lineText clause path) = names.map String.ofList := by
  have text : lineText clause path =
      ("import".toList ++ ' ' :: (clause ++ ' ' :: ("from".toList ++ ' ' :: []))) ++
        '"' :: (path ++ ['"']) := by
    rw [lineText_eq]
    simp
  have noQuote : '"' ∉ "import".toList ++ ' ' :: (clause ++ ' ' :: ("from".toList ++ ' ' :: [])) := by
    have others : '"' ∉ "import".toList ∧ '"' ∉ "from".toList ∧ '"' ≠ ' ' := by decide
    simp only [List.mem_append, List.mem_cons, List.not_mem_nil, or_false, others, false_or]
    exact isClause.noMark.1
  have isWord {text : String} (isName : Text.isIdentifier text = true) :
      DesignLink.words text.toList = [text.toList] := (isWord_of_isIdentifier isName).words
  rw [DesignLink.importedWords, text, takeWhile_noQuote noQuote, words_append (by decide),
    words_append (by decide), words_append (by decide), words_nil, List.append_nil, isClause.words,
    isWord (by decide : Text.isIdentifier "import" = true),
    isWord (by decide : Text.isIdentifier "from" = true), List.singleton_append, List.drop_one,
    List.tail_cons, List.dropLast_concat]

theorem IsClause.importLines {clause path : List Char} {names : List (List Char)}
    (isClause : IsClause clause names) (oneLine : '\n' ∉ path) (rest : List Char) :
    importLines (lineText clause path ++ '\n' :: rest) =
      lineText clause path :: importLines rest := by
  have noBreak : '\n' ∉ lineText clause path := by
    have others : '\n' ∉ "import ".toList ∧ '\n' ∉ " from \"".toList ∧ '\n' ∉ ['"'] := by decide
    rw [lineText_eq]
    simp only [List.mem_append, others, isClause.noMark.2, oneLine, or_self, not_false_eq_true]
  have isImport : "import ".toList.isPrefixOf (lineText clause path) = true := by
    rw [List.isPrefixOf_iff_prefix, lineText_eq]
    exact List.prefix_append _ _
  rw [DesignLink.importLines, List.splitOn_append_cons_self, List.splitOn_eq_singleton noBreak,
    List.singleton_append, List.takeWhile_cons_of_pos isImport]
  rfl

theorem importLines_blank (rest : List Char) : importLines ('\n' :: rest) = [] := by
  have split := List.splitOn_append_cons_self [] rest (a := '\n')
  rw [List.nil_append] at split
  rw [importLines, split]
  rfl

theorem importLines_nil : importLines [] = [] := by decide

/-! The imports of new files. -/

theorem exists_lineText {defaultName : Option String} {named : List String} {specifier line : String}
    (isDefault : ∀ name ∈ defaultName, IsWord name.toList)
    (areWords : ∀ name ∈ named, IsWord name.toList)
    (member : line ∈ importLine defaultName named specifier) :
    ∃ clause, IsClause clause ((defaultName.toList ++ named).map String.toList) ∧
      line.toList = lineText clause specifier.toList := by
  have braced : ("\x7b " ++ String.intercalate ", " named ++ " \x7d").toList =
      "\x7b ".toList ++ ([',', ' '].intercalate (named.map String.toList) ++ " \x7d".toList) := by
    have comma : ", ".toList = [',', ' '] := by decide
    simp only [String.toList_append, String.toList_intercalate, comma, List.append_assoc]
  have isClause := @isClause_namesText (named.map String.toList) (by simpa using areWords)
  rw [← braced] at isClause
  have whole (clause : String) : ("import " ++ clause ++ " from \"" ++ specifier ++ "\"").toList =
      lineText clause.toList specifier.toList := by
    have quote : "\"".toList = ['"'] := by decide
    rw [lineText_eq]
    simp only [String.toList_append, quote, List.append_assoc]
  cases defaultName with
  | none =>
    cases named with
    | nil => cases member
    | cons name names =>
      obtain rfl := Option.some.inj member
      exact ⟨_, isClause, whole _⟩
  | some default_ =>
    have isWord := isDefault default_ rfl
    cases named with
    | nil =>
      obtain rfl := Option.some.inj member
      exact ⟨_, isWord.isClause, whole _⟩
    | cons name names =>
      obtain rfl := Option.some.inj member
      refine ⟨_, isClause.both isWord, ?_⟩
      have both := whole (default_ ++ ", " ++ ("\x7b " ++ String.intercalate ", " (name :: names) ++
        " \x7d"))
      simp only [String.toList_append, List.append_assoc] at both ⊢
      exact both

theorem importLine_eq_none_iff {defaultName : Option String} {named : List String}
    {specifier : String} : importLine defaultName named specifier = none ↔
      defaultName = none ∧ named = [] := by
  cases defaultName <;> cases named <;> simp [importLine]

theorem libraryImport_eq :
    libraryImport = lineText "figma".toList "@figma/code-connect".toList := by
  decide

theorem exists_connectionsText (connections : List NewConnection) :
    ∃ rest, connectionsText connections = '\n' :: rest ∧ importLines rest = [] := by
  cases connections with
  | nil => exact ⟨[], rfl, importLines_nil⟩
  | cons c rest => exact ⟨_, rfl, importLines_blank _⟩

namespace MultiRequest

variable {r : MultiRequest} {directory : String}

/-- The names that the imports of the new file are to bind: the helper, the default export and the
named ones. -/
def boundByImports (r : MultiRequest) : List String :=
  "figma" :: (r.defaultImport.toList ++ r.namedImports)

/-- Two of the imports bind one name: a link exports something under the name of the helper, or the
default export has that name, or that of another export. -/
inductive Clashes (r : MultiRequest) : Prop where
  | helper (l : Link) (among : l ∈ r.links) (same : l.sourceExport = "figma")
  | helperDefault (l : Link) (among : l ∈ r.links) (isDefault : l.sourceExport = "default")
    (same : r.name = "figma")
  | exported (l other : Link) (among : l ∈ r.links) (isDefault : l.sourceExport = "default")
    (among' : other ∈ r.links) (named : other.sourceExport ≠ "default")
    (isName : Text.isIdentifier r.name = true) (same : other.sourceExport = r.name)

theorem mem_namedImports_iff {name : String} : name ∈ r.namedImports ↔
    name ≠ "default" ∧ Text.isIdentifier name = true ∧ ∃ l ∈ r.links, l.sourceExport = name := by
  rw [namedImports, List.mem_eraseDups, List.mem_filter, List.mem_map, Bool.and_eq_true,
    decide_eq_true_eq]
  tauto

theorem defaultImport_eq_some_iff {name : String} : r.defaultImport = some name ↔
    r.name = name ∧ ∃ l ∈ r.links, l.sourceExport = "default" := by
  rw [defaultImport, ite_eq_iff]
  simp [and_comm]

/-- The helper is imported by its own name alone: no link exports something under it, and the file
is not named so. -/
theorem notMem_imports_iff : "figma" ∉ r.defaultImport.toList ++ r.namedImports ↔
    (∀ l ∈ r.links, l.sourceExport ≠ "figma") ∧
      (r.name = "figma" → ∀ l ∈ r.links, l.sourceExport ≠ "default") := by
  have isName : "figma" ≠ "default" ∧ Text.isIdentifier "figma" = true := by decide
  rw [List.mem_append, Option.mem_toList, defaultImport_eq_some_iff, mem_namedImports_iff, not_or,
    and_iff_right isName.1, and_iff_right isName.2]
  simp only [not_and, not_exists]
  exact And.comm

theorem mem_both_iff {name : String} : r.defaultImport = some name ∧ name ∈ r.namedImports ↔
    r.name = name ∧ Text.isIdentifier r.name = true ∧
      (∃ l ∈ r.links, l.sourceExport = "default") ∧
        ∃ l ∈ r.links, l.sourceExport ≠ "default" ∧ l.sourceExport = r.name := by
  rw [defaultImport_eq_some_iff, mem_namedImports_iff]
  constructor
  · rintro ⟨⟨rfl, isDefault⟩, other, isName, l, among, same⟩
    exact ⟨rfl, isName, isDefault, l, among, same ▸ other, same⟩
  · rintro ⟨rfl, isName, isDefault, l, among, other, same⟩
    exact ⟨⟨rfl, isDefault⟩, same ▸ other, isName, l, among, same⟩

theorem nodup_boundByImports_iff (r : MultiRequest) :
    r.boundByImports.Nodup ↔ ¬ r.Clashes := by
  have once : r.defaultImport.toList.Nodup := by
    cases r.defaultImport with
    | none => exact List.nodup_nil
    | some name => simp
  have once' : r.namedImports.Nodup := nodup_eraseDups _
  have apart : (∀ name ∈ r.defaultImport.toList, ∀ other ∈ r.namedImports, name ≠ other) ↔
      ∀ name, ¬ (r.defaultImport = some name ∧ name ∈ r.namedImports) := by
    constructor
    · rintro differ name ⟨isDefault, named⟩
      exact differ name (Option.mem_toList.mpr isDefault) name named rfl
    · rintro none_ name isDefault _ named rfl
      exact none_ name ⟨Option.mem_toList.mp isDefault, named⟩
  rw [boundByImports, List.nodup_cons, notMem_imports_iff, List.nodup_append, apart,
    and_iff_right once, and_iff_right once']
  simp only [mem_both_iff]
  constructor
  · rintro ⟨⟨noHelper, noDefault⟩, apart⟩ clash
    cases clash with
    | helper l among same => exact noHelper l among same
    | helperDefault l among isDefault same => exact noDefault same l among isDefault
    | exported l other among isDefault among' named isName same =>
      exact apart r.name ⟨rfl, isName, ⟨l, among, isDefault⟩, other, among', named, same⟩
  · intro noClash
    refine ⟨⟨fun l among same => noClash (.helper l among same),
      fun same l among isDefault => noClash (.helperDefault l among isDefault same)⟩, ?_⟩
    rintro name ⟨-, isName, ⟨l, among, isDefault⟩, other, among', named, same⟩
    exact noClash (.exported l other among isDefault among' named isName same)

theorem boundNames_fileText (isName : ∀ name ∈ r.defaultImport, Text.isIdentifier name = true)
    (oneLine : '\n' ∉ (r.importPath directory).toList) :
    boundNames (r.fileText directory) = r.boundByImports := by
  have isDefault : ∀ name ∈ r.defaultImport, IsWord name.toList :=
    fun name member => isWord_of_isIdentifier (isName name member)
  have areWords : ∀ name ∈ r.namedImports, IsWord name.toList :=
    fun name member => isWord_of_isIdentifier (mem_namedImports_iff.mp member).2.1
  have helper : IsClause "figma".toList ["figma".toList] :=
    (isWord_of_isIdentifier (by decide)).isClause
  obtain ⟨rest, calls, noImport⟩ := exists_connectionsText (r.links.map (·.connection r.name))
  have text : (r.fileText directory).toList = libraryImport ++
      (importsText ((importLine r.defaultImport r.namedImports
        (r.importPath directory)).toList.map String.toList) ++ '\n' :: rest) := by
    rw [← calls]
    exact toList_connectionFileText _ _
  rw [boundNames, text, libraryImport_eq, boundByImports]
  cases imports : importLine r.defaultImport r.namedImports (r.importPath directory) with
  | none =>
    obtain ⟨noDefault, noNamed⟩ := importLine_eq_none_iff.mp imports
    rw [noDefault, noNamed]
    change (importLines (lineText _ _ ++ '\n' :: rest)).flatMap importedWords = _
    rw [helper.importLines (by decide), noImport, List.flatMap_singleton, helper.importedWords]
    rfl
  | some line =>
    obtain ⟨clause, isClause, same⟩ := exists_lineText isDefault areWords
      (Option.mem_def.mpr imports)
    have shape : importsText ((some line).toList.map String.toList) ++ '\n' :: rest =
        '\n' :: (lineText clause (r.importPath directory).toList ++ '\n' :: rest) := by
      rw [Option.toList_some, List.map_singleton, same]
      simp [importsText]
    rw [shape, helper.importLines (by decide), isClause.importLines oneLine, noImport,
      List.flatMap_cons, List.flatMap_singleton, helper.importedWords, isClause.importedWords]
    simp

/-- The imports of a new file bind each name once exactly if nothing but the helper is named
`figma` and no other export has the name under which the default export is imported. They are the
words of the imports in its text, where the name is an identifier and the path is one line. -/
theorem imports_bind_once_iff (r : MultiRequest) (directory : String) :
    (r.boundByImports.Nodup ↔ ¬ r.Clashes) ∧
      ((∀ name ∈ r.defaultImport, Text.isIdentifier name = true) →
        '\n' ∉ (r.importPath directory).toList →
        boundNames (r.fileText directory) = r.boundByImports) :=
  ⟨r.nodup_boundByImports_iff, boundNames_fileText⟩

theorem imports_bind_once_iff_buttons : ¬ buttons.Clashes ∧
    (∀ name ∈ buttons.defaultImport, Text.isIdentifier name = true) ∧
      '\n' ∉ (buttons.importPath "project").toList ∧
      boundNames (buttons.fileText "project") = ["figma", "Button", "IconButton"] := by
  have apart : buttons.boundByImports.Nodup := by decide
  have isName : ∀ name ∈ buttons.defaultImport, Text.isIdentifier name = true := by decide
  have oneLine : '\n' ∉ (buttons.importPath "project").toList := by decide +kernel
  obtain ⟨once, same⟩ := imports_bind_once_iff buttons "project"
  refine ⟨once.mp apart, isName, oneLine, ?_⟩
  rw [same isName oneLine]
  decide

/-- The request for a default export and a named one that has the name of their file. -/
def twoButtons : MultiRequest :=
  let node (url : String) : Component := ⟨url, "", "", none, none, none⟩
  ⟨.create, "src", "src/Button.tsx", "Button", [⟨"default", none, none, node "https://design/1"⟩,
    ⟨"Button", none, none, node "https://design/2"⟩], .standard⟩

/-- The default export is imported under the name of its file, whatever else the file exports. -/
theorem imports_bind_twice :
    ¬ ∀ (r : MultiRequest) (directory : String), (boundNames (r.fileText directory)).Nodup := by
  intro every
  have once := every twoButtons "project"
  have isName : ∀ name ∈ twoButtons.defaultImport, Text.isIdentifier name = true := by decide
  have oneLine : '\n' ∉ (twoButtons.importPath "project").toList := by decide +kernel
  rw [boundNames_fileText isName oneLine] at once
  have twice : ¬ twoButtons.boundByImports.Nodup := by decide
  exact twice once

end MultiRequest

end DesignLink
