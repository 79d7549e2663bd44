import DesignLink.Proofs.Script.Modules

/-!
Declarations in their text: a constant with its value, and the default export of a module.
-/

namespace DesignLink.Script

open DesignLink.Script.Parser DesignLink.Script.Grammar

variable {r : Rules} {s s' : State} {parts : List Expr}

theorem exists_atLonelyDeclaration (c : Context) (s : State) :
    ∃ isLonely, atLonelyDeclaration c s = some (isLonely, s) := ⟨_, rfl⟩

theorem statementRule_of_declaration
    (noKeyword : keywordStatement? r .module s = some (none, s))
    (noImport : atImportExpression s = some (false, s)) (marks : NotAt ["@", "import", "export"] s)
    (declared : declaration? r .module 3 s = some (some parts, s')) :
    statementRule r .module .outermost s = some (.other parts, s') := by
  have context : ({ Context.module with allowsIn := true, decorates := false } : Context) =
      .module := rfl
  have alone : (StatementPlace.outermost == StatementPlace.alone) = false := rfl
  obtain ⟨isLonely, lonely⟩ := exists_atLonelyDeclaration .module s
  have noDecorator := marks.at? (by decide : "@" ∈ _)
  have noImport' := marks.at? (by decide : "import" ∈ _)
  have noExport := marks.at? (by decide : "export" ∈ _)
  simp only [statementRule, bind_apply, context, noKeyword, noImport, alone, lonely, noDecorator,
    noImport',
    noExport, declared, Option.bind_some, Bool.false_and, Bool.false_eq_true, if_false]
  rfl

theorem statementRule_of_export
    (noKeyword : keywordStatement? r .module s = some (none, s))
    (noImport : atImportExpression s = some (false, s)) (marks : NotAt ["@", "import"] s)
    (atExport : at? "export" s = some (true, s))
    (exported : exportDeclaration r .module s = some (parts, s')) :
    statementRule r .module .outermost s = some (.other parts, s') := by
  have context : ({ Context.module with allowsIn := true, decorates := false } : Context) =
      .module := rfl
  have alone : (StatementPlace.outermost == StatementPlace.alone) = false := rfl
  have outermost : (StatementPlace.outermost == StatementPlace.outermost) = true := rfl
  obtain ⟨isLonely, lonely⟩ := exists_atLonelyDeclaration .module s
  have noDecorator := marks.at? (by decide : "@" ∈ _)
  have noImport' := marks.at? (by decide : "import" ∈ _)
  simp only [statementRule, bind_apply, context, noKeyword, noImport, alone, lonely, noDecorator,
    noImport',
    atExport, outermost, require, pure_apply, exported, Option.bind_some, Bool.false_and,
    Bool.false_eq_true, if_false, if_true]

/-! Constants. -/

theorem variableParts_of_value {depth : Nat} {target value : State} {e : Expr}
    (named : (rules (depth + 1)).target .module s = some ([], target))
    (noPattern : NotAt ["\x7b", "["] s) (sameLine : target.lexeme.newline = false)
    (noMark : NotAt ["!", ":"] target) (equals : eat "=" target = some (true, value))
    (read : (rules (depth + 1)).assignment .module true value = some (e, s'))
    (noComma : at? "," s' = some (false, s')) (ends : endStatement s' = some ((), s')) :
    variableParts (rules (depth + 1)) .module true s = some ([e], s') := by
  have isName : atAny ["\x7b", "["] s = some (false, s) := noPattern.atAny (by decide)
  have onLine : onNewLine target = some (false, target) := by rw [onNewLine, sameLine]
  have noAssertion : eat "!" target = some (false, target) := noMark.eat (by decide)
  have noType : annotation (rules (depth + 1)) .module target = some ([], target) := by
    have noColon : eat ":" target = some (false, target) := noMark.eat (by decide)
    simp [ annotation, bind_apply, noColon, pure_apply]
  have given : initializer (rules (depth + 1)) .module target = some ([e], s') := by
    simp [initializer, bind_apply, equals, Rules.value, read, map_apply]
  have declared : declarator (rules (depth + 1)) .module true s =
      some (⟨[e], true, false⟩, s') := by
    simp only [declarator, bind_apply, isName, named, onLine, noAssertion, noType, given,
      Option.bind_some, Bool.false_eq_true, if_false]
    rfl
  have more : collectWhile (rules (depth + 1)).bound (at? ",")
      (do advance; declarator (rules (depth + 1)) .module true) s' = some ([], s') := by
    apply iterate_done (Nat.succ_pos depth)
    simp [bind_apply, noComma, pure_apply]
  have hasValue : [Declarator.mk [e] true false].all (fun d => d.hasValue || d.isFree) = true := rfl
  simp only [variableParts, declarators, separated, bind_apply, declared, more, Option.bind_some,
    pure_apply, require, hasValue, if_true, ends]
  rfl

/-- What may follow a statement without a semicolon. -/
structure EndsStatement (rest : List Char) : Prop where
  closes : Closes rest
  ends : ∀ offset waiting, endStatement (.behind ⟨offset, rest⟩ waiting) =
    some ((), .behind ⟨offset, rest⟩ waiting)
  noComma : ∀ offset waiting, at? "," (.behind ⟨offset, rest⟩ waiting) =
    some (false, .behind ⟨offset, rest⟩ waiting)

theorem endsStatement_constant (rest : List Char) : EndsStatement ("\n\nconst ".toList ++ rest) :=
  ⟨.constant rest, fun _ _ => rfl, fun _ _ => rfl⟩

theorem endsStatement_declaration (rest : List Char) :
    EndsStatement ("\n\nexport ".toList ++ rest) :=
  ⟨.declaration rest, fun _ _ => rfl, fun _ _ => rfl⟩

theorem endsStatement_ending : EndsStatement ['\n'] := ⟨.ending, fun _ _ => rfl, fun _ _ => rfl⟩

def constantNames : List String := ["figma", "props"]

def constantText (name : String) : List Char := ("const " ++ name ++ " = ").toList

theorem declaration?_of_constant {name : String} (isConstant : name ∈ constantNames) (r : Rules)
    (newline : Bool) (previous offset waiting : Nat) (more : List Char) :
    declaration? r .module 3 (.at newline previous ⟨offset, constantText name ++ more⟩ waiting) =
      (variableParts r .module true (.behind ⟨offset + 5, (constantText name).drop 5 ++ more⟩
        waiting)).bind fun found => some (some found.1, found.2) := by
  simp only [constantNames, List.mem_cons, List.not_mem_nil, or_false] at isConstant
  rcases isConstant with rfl | rfl <;> rfl

theorem statement_of_constant {name : String} (isConstant : name ∈ constantNames)
    {text rest : List Char} {Q : Source → Expr → Prop} (reads : Reads text Q)
    (follows : EndsStatement rest) (depth : Nat) (enough : 8 * text.length ≤ depth + 1)
    (newline : Bool) (previous offset waiting : Nat) :
    ∃ e, (rules (depth + 2)).statement .module .outermost
      (.at newline previous ⟨offset, constantText name ++ (text ++ rest)⟩ waiting) =
      some (.other [e], .behind ⟨offset + 14 + Text.byteSize text, rest⟩ waiting) := by
  obtain ⟨e, read, -⟩ := reads.read (depth + 1) (offset + 13) (offset + 14) waiting rest enough
    follows.closes
  rw [← State.behind_blank (reads.starts rest)] at read
  have declared := declaration?_of_constant isConstant (rules (depth + 1)) newline previous offset
    waiting (text ++ rest)
  simp only [constantNames, List.mem_cons, List.not_mem_nil, or_false] at isConstant
  refine ⟨e, ?_⟩
  have variable_ : variableParts (rules (depth + 1)) .module true
      (.behind ⟨offset + 5, (constantText name).drop 5 ++ (text ++ rest)⟩ waiting) =
      some ([e], .behind ⟨offset + 14 + Text.byteSize text, rest⟩ waiting) := by
    have noComma := follows.noComma (offset + 14 + Text.byteSize text) waiting
    have ends := follows.ends (offset + 14 + Text.byteSize text) waiting
    rcases isConstant with rfl | rfl
    · exact variableParts_of_value rfl
        (by decide : ∀ text ∈ ["\x7b", "["], plainText (.word "figma" false) ≠ some text) rfl
        (by decide : ∀ text ∈ ["!", ":"], plainText (.mark "=") ≠ some text) rfl read noComma ends
    · exact variableParts_of_value rfl
        (by decide : ∀ text ∈ ["\x7b", "["], plainText (.word "props" false) ≠ some text) rfl
        (by decide : ∀ text ∈ ["!", ":"], plainText (.mark "=") ≠ some text) rfl read noComma ends
  rw [variable_] at declared
  have noMark : ∀ text ∈ ["@", "import", "export"], plainText (.word "const" false) ≠ some text := by
    decide
  rcases isConstant with rfl | rfl
  · exact statementRule_of_declaration rfl rfl noMark declared
  · exact statementRule_of_declaration rfl rfl noMark declared

/-! The default export. -/

theorem readsPart_shorthand (depth : Nat) :
    ReadsPart (objectMember (rules depth) .module) "\x7d" false "props".toList
      fun _ _ => True where
  starts _ := fun _ _ => rfl
  opened previous offset waiting rest closes := by cases closes <;> rfl
  read previous offset waiting rest closes := by
    refine ⟨.field ⟨offset, offset + 5⟩ (.name ⟨offset, offset + 5⟩ "props") false
      (.identifier ⟨offset, offset + 5⟩ "props"), ?_, fun _ _ => trivial⟩
    cases closes <;> rfl

theorem statement_of_default {text rest : List Char} {Q : Source → Expr → Prop}
    (reads : Reads ('\x7b' :: text) Q) (follows : EndsStatement rest) (depth : Nat)
    (enough : 8 * ('\x7b' :: text).length ≤ depth + 1) (newline : Bool)
    (previous offset waiting : Nat) :
    ∃ e, (rules (depth + 2)).statement .module .outermost
      (.at newline previous ⟨offset, "export default ".toList ++ ('\x7b' :: text ++ rest)⟩ waiting) =
      some (.other [e], .behind ⟨offset + 15 + Text.byteSize ('\x7b' :: text), rest⟩ waiting) := by
  obtain ⟨e, read, -⟩ := reads.read (depth + 1) (offset + 14) (offset + 15) waiting rest enough
    follows.closes
  rw [← State.behind_blank (reads.starts rest)] at read
  have ends := follows.ends (offset + 15 + Text.byteSize ('\x7b' :: text)) waiting
  have exported : exportDeclaration (rules (depth + 1)) .module
      (.at newline previous ⟨offset, "export default ".toList ++ ('\x7b' :: text ++ rest)⟩ waiting) =
      ((rules (depth + 1)).assignment .module true
        (.behind ⟨offset + 14, ' ' :: ('\x7b' :: text ++ rest)⟩ waiting)).bind
        fun found => (endStatement found.2).bind fun ended => some ([found.1], ended.2) := rfl
  rw [read, Option.bind_some, ends] at exported
  refine ⟨e, ?_⟩
  exact statementRule_of_export rfl rfl
    (by decide : ∀ text ∈ ["@", "import"], plainText (.word "export" false) ≠ some text) rfl
    exported

end DesignLink.Script
