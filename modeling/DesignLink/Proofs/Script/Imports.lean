import DesignLink.Proofs.Script.Statements

/-!
Imports in their text: the default export of a module, names in braces, or both.
-/

namespace DesignLink.Script
open DesignLink.Script.Parser DesignLink.Script.Grammar

/-- What may stand behind an import: the next one, or a connection behind an empty line. -/
inductive EndsImport : List Char → Prop where
  | next (rest : List Char) : EndsImport ("\nimport ".toList ++ rest)
  | connection (rest : List Char) : EndsImport ("\n\nfigma.connect(".toList ++ rest)

variable {r : Rules} {rest : List Char}

theorem EndsImport.ends (follows : EndsImport rest) (offset waiting : Nat) :
    importAttributes r (.behind ⟨offset, rest⟩ waiting) = some ((), .behind ⟨offset, rest⟩ waiting) ∧
      endStatement (.behind ⟨offset, rest⟩ waiting) =
        some ((), .behind ⟨offset, rest⟩ waiting) := by
  cases follows with
  | next rest => exact ⟨rfl, rfl⟩
  | connection rest => exact ⟨rfl, rfl⟩

def fromText (specifier : String) : List Char := " from ".toList ++ quotedChars '"' specifier

theorem fromModule_of_specifier (specifier : String) (follows : EndsImport rest)
    (offset waiting : Nat) :
    fromModule r (.behind ⟨offset, fromText specifier ++ rest⟩ waiting) =
      some ((), .behind ⟨offset + Text.byteSize (fromText specifier), rest⟩ waiting) := by
  have size : offset + Text.byteSize (fromText specifier) =
      offset + 6 + Text.byteSize (quotedChars '"' specifier) := by
    simp only [fromText, Text.byteSize_append, show Text.byteSize " from ".toList = 6 from rfl]
    omega
  have starts : StartsToken (quotedChars '"' specifier ++ rest) := fun _ _ => rfl
  have word : expect "from" (.behind ⟨offset, fromText specifier ++ rest⟩ waiting) =
      some ((), .facing (offset + 5) ⟨offset + 6, quotedChars '"' specifier ++ rest⟩ waiting) := by
    rw [← State.behind_blank starts]
    rfl
  have string : moduleString
      (.facing (offset + 5) ⟨offset + 6, quotedChars '"' specifier ++ rest⟩ waiting) =
      some ((), .behind ⟨offset + 6 + Text.byteSize (quotedChars '"' specifier), rest⟩
        waiting) := by
    rw [State.facing, Lexeme.next_quoted (.inl rfl)]
    rfl
  obtain ⟨plain, ends⟩ := follows.ends (r := r)
    (offset + 6 + Text.byteSize (quotedChars '"' specifier)) waiting
  rw [size]
  simp only [fromModule, bind_apply, word, string, plain, ends, Option.bind_some]

/-! Imported names. -/

theorem importSpecifier_of_name {name : String} (isName : IsModuleName name)
    (follows : EndsName rest) (previous offset waiting : Nat)
    (close : plainText (State.behind ⟨offset + Text.byteSize name.toList, rest⟩
      waiting).lexeme.token = some "," ∨
      plainText (State.behind ⟨offset + Text.byteSize name.toList, rest⟩
      waiting).lexeme.token = some "\x7d") :
    maybeType (importSpecifier .module)
      (.facing previous ⟨offset, name.toList ++ rest⟩ waiting) =
      some ((), .behind ⟨offset + Text.byteSize name.toList, rest⟩ waiting) := by
  have word : moduleName .module (.facing previous ⟨offset, name.toList ++ rest⟩ waiting) =
      some (true, .behind ⟨offset + Text.byteSize name.toList, rest⟩ waiting) := by
    rw [State.facing, Lexeme.next_name isName.1 follows, ← isName.2]
    rfl
  generalize State.behind ⟨offset + Text.byteSize name.toList, rest⟩ waiting = s at close word ⊢
  have noAlias : eat "as" s = some (false, s) := by
    rcases close with comma | brace
    · exact (notAt_of_plainText ["as"] comma (by decide)).eat (by decide)
    · exact (notAt_of_plainText ["as"] brace (by decide)).eat (by decide)
  have closed : atAny [",", "\x7d"] s = some (true, s) := by
    rcases close with comma | brace
    · simp [atAny, comma]
    · simp [atAny, brace]
  have specifier : importSpecifier .module
      (.facing previous ⟨offset, name.toList ++ rest⟩ waiting) = some ((), s) := by
    simp only [importSpecifier, bind_apply, word, noAlias, closed, Option.bind_some,
      Bool.false_eq_true, if_false, require, if_true, pure_apply]
  rw [maybeType, orElse, specifier]

theorem opened_name {name : String} (isName : Text.isIdentifier name = true)
    (follows : EndsName rest) (previous offset waiting : Nat) :
    at? "\x7d" (.facing previous ⟨offset, name.toList ++ rest⟩ waiting) =
      some (false, .facing previous ⟨offset, name.toList ++ rest⟩ waiting) := by
  have other := ne_of_isIdentifier isName (by decide : Text.isIdentifier "\x7d" = false)
  have found : plainText (State.facing previous ⟨offset, name.toList ++ rest⟩
      waiting).lexeme.token = some name := by
    rw [State.facing, Lexeme.next_name isName follows]
    rfl
  exact (notAt_of_plainText ["\x7d"] found (by simpa using other)).at? (by decide)

theorem listRun_names (rest : List Char) (waiting : Nat) :
    ∀ (names : List String), names ≠ [] → (∀ name ∈ names, IsModuleName name) →
      ∀ previous offset, ∃ parts s, parts.length = names.length ∧
        ListRun "\x7d" (maybeType (importSpecifier .module)) (.facing previous
          ⟨offset, joined [' '] ([' ', '\x7d'] ++ rest) (names.map String.toList)⟩ waiting)
          parts s ∧
        expect "\x7d" s = some ((), .behind ⟨offset +
          Text.byteSize (joined [' '] [' ', '\x7d'] (names.map String.toList)), rest⟩ waiting)
  | [], nonempty, _, _, _ => absurd rfl nonempty
  | [name], _, areNames, previous, offset => by
    have isName := areNames name (by simp)
    have follows : EndsName ([' ', '\x7d'] ++ rest) := by
      rintro c ⟨⟩
      decide
    have read := importSpecifier_of_name isName follows previous offset waiting (.inr rfl)
    have opened := opened_name isName.1 follows previous offset waiting
    have size : offset + Text.byteSize (joined [' '] [' ', '\x7d'] ([name].map String.toList)) =
        offset + Text.byteSize name.toList + 2 := by
      rw [List.map_singleton, joined, Text.byteSize_append, ← Nat.add_assoc]
      rfl
    rw [size]
    exact ⟨_, _, rfl, .last opened read rfl rfl, rfl⟩
  | name :: other :: names, _, areNames, previous, offset => by
    have isName := areNames name (by simp)
    have starts : StartsToken (joined [' '] ([' ', '\x7d'] ++ rest)
        ((other :: names).map String.toList)) := by
      apply startsToken_joined (by simp)
      intro text member
      obtain ⟨name', among, rfl⟩ := List.mem_map.mp member
      exact startsToken_of_isIdentifier (areNames name' (by simp [among])).1
    have shape : joined [' '] ([' ', '\x7d'] ++ rest) ((name :: other :: names).map String.toList) =
        name.toList ++ ',' :: ' ' ::
          joined [' '] ([' ', '\x7d'] ++ rest) ((other :: names).map String.toList) := rfl
    have size : offset + Text.byteSize (joined [' '] [' ', '\x7d']
        ((name :: other :: names).map String.toList)) =
        offset + Text.byteSize name.toList + 2 + Text.byteSize (joined [' '] [' ', '\x7d']
          ((other :: names).map String.toList)) := by
      have shape : joined [' '] [' ', '\x7d'] ((name :: other :: names).map String.toList) =
          name.toList ++ ',' :: ' ' ::
            joined [' '] [' ', '\x7d'] ((other :: names).map String.toList) := rfl
      rw [shape]
      simp only [Text.byteSize_append, Text.byteSize_cons, show (',' : Char).utf8Size = 1 from rfl,
        show (' ' : Char).utf8Size = 1 from rfl]
      omega
    obtain ⟨parts, s, same, run, closing⟩ := listRun_names rest waiting (other :: names) (by simp)
      (fun name' member => areNames name' (by simp [List.mem_cons.mp member]))
      (offset + Text.byteSize name.toList + 1) (offset + Text.byteSize name.toList + 2)
    rw [shape, size]
    generalize joined [' '] ([' ', '\x7d'] ++ rest) ((other :: names).map String.toList) = more
      at starts run
    have follows : EndsName (',' :: ' ' :: more) := by
      rintro c ⟨⟩
      decide
    have read := importSpecifier_of_name isName follows previous offset waiting (.inl rfl)
    have opened := opened_name isName.1 follows previous offset waiting
    have comma : eat "," (.behind ⟨offset + Text.byteSize name.toList, ',' :: ' ' :: more⟩ waiting) =
        some (true, .behind ⟨offset + Text.byteSize name.toList + 1, ' ' :: more⟩ waiting) := rfl
    rw [State.behind_blank starts] at comma
    exact ⟨() :: parts, s, by rw [List.length_cons, same]; rfl, .more opened read comma run, closing⟩
def namesText (names : List String) : List Char :=
  '\x7b' :: ' ' :: joined [' '] [' ', '\x7d'] (names.map String.toList)

theorem importSpecifiers_of_names {names : List String} (nonempty : names ≠ [])
    (areNames : ∀ name ∈ names, IsModuleName name) (rest : List Char) {depth : Nat}
    (enough : names.length < depth) (previous offset waiting : Nat) :
    importSpecifiers (rules depth) .module
      (.facing previous ⟨offset, namesText names ++ rest⟩ waiting) =
      some ((), .behind ⟨offset + Text.byteSize (namesText names), rest⟩ waiting) := by
  obtain ⟨parts, s, same, run, closing⟩ := listRun_names rest waiting names nonempty areNames
    (offset + 1) (offset + 2)
  have list := run.listUntil (by rw [bound_rules, same]; exact enough :
    parts.length < (rules depth).bound)
  have starts : StartsToken (joined [' '] ([' ', '\x7d'] ++ rest) (names.map String.toList)) := by
    apply startsToken_joined (by simpa using nonempty)
    intro text member
    obtain ⟨name, among, rfl⟩ := List.mem_map.mp member
    exact startsToken_of_isIdentifier (areNames name among).1
  have opening : expect "\x7b" (.facing previous ⟨offset, namesText names ++ rest⟩ waiting) =
      some ((), .behind ⟨offset + 1,
        ' ' :: (joined [' '] [' ', '\x7d'] (names.map String.toList) ++ rest)⟩ waiting) := rfl
  rw [joined_append, State.behind_blank starts] at opening
  have size : offset + Text.byteSize (namesText names) =
      offset + 2 + Text.byteSize (joined [' '] [' ', '\x7d'] (names.map String.toList)) := by
    simp only [namesText, Text.byteSize_cons, show ('\x7b' : Char).utf8Size = 1 from rfl,
      show (' ' : Char).utf8Size = 1 from rfl]
    omega
  rw [size]
  simp only [importSpecifiers, bind_apply, opening, list, closing, Option.bind_some]

theorem importDeclaration_of_names {names : List String} (nonempty : names ≠ [])
    (areNames : ∀ name ∈ names, IsModuleName name) (specifier : String) {depth : Nat}
    (enough : names.length < depth) (follows : EndsImport rest) (newline : Bool)
    (previous offset waiting : Nat) :
    importDeclaration (rules depth) .module (.at newline previous ⟨offset, "import ".toList ++
      (namesText names ++ (fromText specifier ++ rest))⟩ waiting) =
      some ([], .behind ⟨offset + 7 + Text.byteSize (namesText names) +
        Text.byteSize (fromText specifier), rest⟩ waiting) := by
  have specifiers := importSpecifiers_of_names nonempty areNames (fromText specifier ++ rest)
    enough (offset + 6) (offset + 7) waiting
  have ends := fromModule_of_specifier (r := rules depth) specifier follows
    (offset + 7 + Text.byteSize (namesText names)) waiting
  have read : importDeclaration (rules depth) .module (.at newline previous
      ⟨offset, "import ".toList ++ (namesText names ++ (fromText specifier ++ rest))⟩ waiting) =
      (importSpecifiers (rules depth) .module (.facing (offset + 6)
        ⟨offset + 7, namesText names ++ (fromText specifier ++ rest)⟩ waiting)).bind fun read =>
          (fromModule (rules depth) read.2).bind fun ended => some ([], ended.2) := rfl
  rw [read, specifiers, Option.bind_some, ends]
  rfl

/-! The default import. -/

/-- A name that the default export of a module may be imported under: no word that says what is
imported. -/
structure IsDefaultName (name : String) : Prop where
  isName : IsModuleName name
  noKind : name ∉ ["type", "defer", "source"]

theorem importDeclaration_of_name {name : String} (isDefault : IsDefaultName name)
    (follows : EndsName rest) (newline : Bool) (previous offset waiting : Nat) :
    importDeclaration r .module (.at newline previous ⟨offset, "import ".toList ++
      (name.toList ++ rest)⟩ waiting) =
      (do
        if ← at? "=" then return ← importAlias r .module
        if ← eat "," then
          if ← at? "*" then importNamespace .module else importSpecifiers r .module
        fromModule r
        return []) (.behind ⟨offset + 7 + Text.byteSize name.toList, rest⟩ waiting) := by
  have starts := startsToken_of_isIdentifier isDefault.isName.1 rest
  have here : State.facing (offset + 6) ⟨offset + 7, name.toList ++ rest⟩ waiting =
      ⟨⟨.word name false, false, offset + 7, name.toList ++ rest,
        offset + 7 + Text.byteSize name.toList, rest⟩, offset + 6, waiting⟩ := by
    rw [State.facing, Lexeme.next_name isDefault.isName.1 follows]
  have word : expect "import" (.at newline previous
      ⟨offset, "import ".toList ++ (name.toList ++ rest)⟩ waiting) =
      some ((), .behind ⟨offset + 6, ' ' :: (name.toList ++ rest)⟩ waiting) := rfl
  rw [State.behind_blank starts] at word
  generalize State.facing (offset + 6) ⟨offset + 7, name.toList ++ rest⟩ waiting = s at here word
  have notAt : NotAt ["type", "defer", "source", "*", "\x7b"] s := by
    have isName := isDefault.isName.1
    have noStar := ne_of_isIdentifier isName (by decide : Text.isIdentifier "*" = false)
    have noBrace := ne_of_isIdentifier isName (by decide : Text.isIdentifier "\x7b" = false)
    have noKind := isDefault.noKind
    apply notAt_of_plainText _ (by rw [here]; rfl)
    simp only [List.mem_cons, List.not_mem_nil, or_false, not_or] at noKind ⊢
    exact ⟨noKind.1, noKind.2.1, noKind.2.2, noStar, noBrace⟩
  have noWord {text : String} (among : text ∈ ["type", "defer", "source", "*", "\x7b"]) :
      expect text s = none := by
    simp only [expect, bind_apply, notAt.at? among, Option.bind_some, Bool.false_eq_true, if_false,
      fail]
  have noType : atImportType .module s = some (false, s) := by
    simp only [atImportType, wouldRead, bind_apply, noWord (by decide : "type" ∈ _),
      Option.bind_none, Option.isSome_none]
  have noDefer : wouldRead (do expect "defer"; expect "*") s = some (false, s) := by
    simp only [wouldRead, bind_apply, noWord (by decide : "defer" ∈ _), Option.bind_none,
      Option.isSome_none]
  have noSource : wouldRead (do expect "source"; let _ ← Parser.name .module; expect "from") s =
      some (false, s) := by
    simp only [wouldRead, bind_apply, noWord (by decide : "source" ∈ _), Option.bind_none,
      Option.isSome_none]
  have noStar : at? "*" s = some (false, s) := notAt.at? (by decide)
  have noBrace : at? "\x7b" s = some (false, s) := notAt.at? (by decide)
  have named : Parser.name .module s =
      some (name, .behind ⟨offset + 7 + Text.byteSize name.toList, rest⟩ waiting) := by
    rw [here]
    simp only [Parser.name, bind_apply, nameHere?, isDefault.isName.2, if_true,
      Option.bind_some]
    rfl
  have token : Parser.token s = some (.word name false, s) := by
    rw [here]
    rfl
  simp only [importDeclaration, bind_apply, word, token, noType, noDefer, noSource, noStar, noBrace,
    named, Option.bind_some, Bool.false_eq_true, if_false]

theorem importDeclaration_of_default {name : String} (isDefault : IsDefaultName name)
    (specifier : String) (follows : EndsImport rest) (newline : Bool)
    (previous offset waiting : Nat) :
    importDeclaration r .module (.at newline previous ⟨offset, "import ".toList ++
      (name.toList ++ (fromText specifier ++ rest))⟩ waiting) =
      some ([], .behind ⟨offset + 7 + Text.byteSize name.toList +
        Text.byteSize (fromText specifier), rest⟩ waiting) := by
  have endsName : EndsName (fromText specifier ++ rest) := by
    rintro c ⟨⟩
    decide
  have ends := fromModule_of_specifier (r := r) specifier follows
    (offset + 7 + Text.byteSize name.toList) waiting
  rw [importDeclaration_of_name isDefault endsName]
  change (fromModule r (.behind ⟨offset + 7 + Text.byteSize name.toList,
    fromText specifier ++ rest⟩ waiting)).bind (fun ended => some ([], ended.2)) = _
  rw [ends]
  rfl

theorem importDeclaration_of_both {name : String} (isDefault : IsDefaultName name)
    {names : List String} (nonempty : names ≠ []) (areNames : ∀ name ∈ names, IsModuleName name)
    (specifier : String) {depth : Nat} (enough : names.length < depth) (follows : EndsImport rest)
    (newline : Bool) (previous offset waiting : Nat) :
    importDeclaration (rules depth) .module (.at newline previous ⟨offset, "import ".toList ++
      (name.toList ++ (", ".toList ++ (namesText names ++ (fromText specifier ++ rest))))⟩
      waiting) =
      some ([], .behind ⟨offset + 9 + Text.byteSize name.toList + Text.byteSize (namesText names) +
        Text.byteSize (fromText specifier), rest⟩ waiting) := by
  have endsName : EndsName (", ".toList ++ (namesText names ++ (fromText specifier ++ rest))) := by
    rintro c ⟨⟩
    decide
  have place : offset + 9 + Text.byteSize name.toList =
      offset + 7 + Text.byteSize name.toList + 2 := by omega
  rw [importDeclaration_of_name isDefault endsName, place]
  generalize offset + 7 + Text.byteSize name.toList = offset
  have specifiers := importSpecifiers_of_names nonempty areNames (fromText specifier ++ rest)
    enough (offset + 1) (offset + 2) waiting
  have ends := fromModule_of_specifier (r := rules depth) specifier follows
    (offset + 2 + Text.byteSize (namesText names)) waiting
  change (importSpecifiers (rules depth) .module (.facing (offset + 1)
    ⟨offset + 2, namesText names ++ (fromText specifier ++ rest)⟩ waiting)).bind (fun read =>
      (fromModule (rules depth) read.2).bind fun ended => some ([], ended.2)) = _
  rw [specifiers, Option.bind_some, ends]
  rfl

theorem statementRule_of_import {s s' : State} {parts : List Expr}
    (noKeyword : keywordStatement? r .module s = some (none, s))
    (noImport : atImportExpression s = some (false, s)) (marks : NotAt ["@"] s)
    (atImport : at? "import" s = some (true, s))
    (imported : importDeclaration r .module s = some (parts, s')) :
    statementRule r .module .outermost s = some (.other parts, s') := by
  have context : ({ Context.module with allowsIn := true, decorates := false } : Context) =
      .module := rfl
  have alone : (StatementPlace.outermost == StatementPlace.alone) = false := rfl
  have outermost : (StatementPlace.outermost == StatementPlace.outermost) = true := rfl
  obtain ⟨isLonely, lonely⟩ := exists_atLonelyDeclaration .module s
  have noDecorator := marks.at? (by decide : "@" ∈ _)
  simp only [statementRule, bind_apply, context, noKeyword, noImport, alone, lonely, noDecorator,
    atImport, outermost, require, pure_apply, imported, Option.bind_some, Bool.false_and,
    Bool.false_eq_true, if_false, if_true]

/-- The text is read as an import statement. -/
structure IsImport (text : List Char) : Prop where
  starts : ∃ more, text = "import ".toList ++ more
  read : ∀ {rest : List Char}, EndsImport rest → ∀ depth, text.length < depth →
    ∀ newline previous offset waiting,
      (rules (depth + 1)).statement .module .outermost
        (.at newline previous ⟨offset, text ++ rest⟩ waiting) =
        some (.other [], .behind ⟨offset + Text.byteSize text, rest⟩ waiting)

theorem atImportExpression_of_name {name : String} (isName : Text.isIdentifier name = true)
    (follows : EndsName rest) (newline : Bool) (previous offset waiting : Nat) :
    atImportExpression
      (.at newline previous ⟨offset, "import ".toList ++ (name.toList ++ rest)⟩ waiting) =
      some (false,
        .at newline previous ⟨offset, "import ".toList ++ (name.toList ++ rest)⟩ waiting) := by
  have starts := startsToken_of_isIdentifier isName rest
  have noPoint := ne_of_isIdentifier isName (by decide : Text.isIdentifier "." = false)
  have noCall := ne_of_isIdentifier isName (by decide : Text.isIdentifier "(" = false)
  have found : plainText (State.facing (offset + 6) ⟨offset + 7, name.toList ++ rest⟩
      waiting).lexeme.token = some name := by
    rw [State.facing, Lexeme.next_name isName follows]
    rfl
  have word : expect "import" (.at newline previous
      ⟨offset, "import ".toList ++ (name.toList ++ rest)⟩ waiting) =
      some ((), .behind ⟨offset + 6, ' ' :: (name.toList ++ rest)⟩ waiting) := rfl
  have noMark := (notAt_of_plainText ["(", "."] found (by simp [noPoint, noCall])).atAny
    fun _ member => member
  rw [State.behind_blank starts] at word
  simp only [atImportExpression, wouldRead, bind_apply, word, noMark, Option.bind_some, require,
    Bool.false_eq_true, if_false, fail, Option.isSome_none]

theorem isImport_names {names : List String} (nonempty : names ≠ [])
    (areNames : ∀ name ∈ names, IsModuleName name) (specifier : String) :
    IsImport ("import ".toList ++ (namesText names ++ fromText specifier)) := by
  refine ⟨⟨_, rfl⟩, ?_⟩
  intro rest follows depth enough newline previous offset waiting
  have few : names.length ≤ (namesText names).length := by
    have joined_ := length_le_joined [' '] (by decide : 1 ≤ [' ', '\x7d'].length) String.toList names
    simp only [namesText, List.length_cons]
    omega
  have size : offset + Text.byteSize ("import ".toList ++ (namesText names ++ fromText specifier)) =
      offset + 7 + Text.byteSize (namesText names) + Text.byteSize (fromText specifier) := by
    simp only [Text.byteSize_append, show Text.byteSize "import ".toList = 7 from rfl]
    omega
  rw [List.length_append, List.length_append] at enough
  rw [size, List.append_assoc, List.append_assoc]
  exact statementRule_of_import rfl rfl
    (by decide : ∀ text ∈ ["@"], plainText (.word "import" false) ≠ some text) rfl
    (importDeclaration_of_names nonempty areNames specifier (by omega) follows newline previous
      offset waiting)

theorem isImport_default {name : String} (isDefault : IsDefaultName name) (specifier : String) :
    IsImport ("import ".toList ++ (name.toList ++ fromText specifier)) := by
  refine ⟨⟨_, rfl⟩, ?_⟩
  intro rest follows depth _ newline previous offset waiting
  have size : offset + Text.byteSize ("import ".toList ++ (name.toList ++ fromText specifier)) =
      offset + 7 + Text.byteSize name.toList + Text.byteSize (fromText specifier) := by
    simp only [Text.byteSize_append, show Text.byteSize "import ".toList = 7 from rfl]
    omega
  have endsName : EndsName (fromText specifier ++ rest) := by
    rintro c ⟨⟩
    decide
  rw [size, List.append_assoc, List.append_assoc]
  exact statementRule_of_import rfl
    (atImportExpression_of_name isDefault.isName.1 endsName newline previous offset waiting)
    (by decide : ∀ text ∈ ["@"], plainText (.word "import" false) ≠ some text) rfl
    (importDeclaration_of_default isDefault specifier follows newline previous offset waiting)

theorem isImport_both {name : String} (isDefault : IsDefaultName name) {names : List String}
    (nonempty : names ≠ []) (areNames : ∀ name ∈ names, IsModuleName name) (specifier : String) :
    IsImport ("import ".toList ++
      (name.toList ++ (", ".toList ++ (namesText names ++ fromText specifier)))) := by
  refine ⟨⟨_, rfl⟩, ?_⟩
  intro rest follows depth enough newline previous offset waiting
  have few : names.length ≤ (namesText names).length := by
    have joined_ := length_le_joined [' '] (by decide : 1 ≤ [' ', '\x7d'].length) String.toList names
    simp only [namesText, List.length_cons]
    omega
  have size : offset + Text.byteSize ("import ".toList ++
      (name.toList ++ (", ".toList ++ (namesText names ++ fromText specifier)))) =
      offset + 9 + Text.byteSize name.toList + Text.byteSize (namesText names) +
        Text.byteSize (fromText specifier) := by
    simp only [Text.byteSize_append, show Text.byteSize "import ".toList = 7 from rfl,
      show Text.byteSize ", ".toList = 2 from rfl]
    omega
  have endsName : EndsName (", ".toList ++ (namesText names ++ (fromText specifier ++ rest))) := by
    rintro c ⟨⟩
    decide
  simp only [List.length_append] at enough
  rw [size]
  simp only [List.append_assoc]
  exact statementRule_of_import rfl
    (atImportExpression_of_name isDefault.isName.1 endsName newline previous offset waiting)
    (by decide : ∀ text ∈ ["@"], plainText (.word "import" false) ≠ some text) rfl
    (importDeclaration_of_both isDefault nonempty areNames specifier (by omega) follows newline
      previous offset waiting)

end DesignLink.Script
