import DesignLink.Proofs.Layout.Operators
import DesignLink.Script.Statements

/-!
Statements and declarations give the expressions in them in the order of the text, if the rules that
they lead back to do.
-/

namespace DesignLink.Script.Grammar

open DesignLink.Script.Parser

theorem since_given {s : State} {p : Parser (List Expr)} (goes : Lays p id) :
    Since s [] (do return some (← p)) (Option.getD · []) :=
  .read goes fun _ => .done rfl

/-! What stands in a module without expressions. -/

section Silent

variable (r : Rules) (c : Context)

theorem silent_atLet : Silent (atLet c) := silent_wouldRead _

theorem silent_atUsing : Silent (atUsing c) := silent_wouldRead _

theorem silent_atAsyncFunction : Silent atAsyncFunction := silent_wouldRead _

theorem silent_atWordBeforeName (word : String) : Silent (atWordBeforeName c word) :=
  silent_wouldRead _

theorem silent_moduleString : Silent moduleString := by
  unfold moduleString
  refine .of_since fun s => .pass silent_token fun token => ?_
  split
  · exact .last silent_advance
  · exact .fail

theorem silent_importAttributes : Silent (importAttributes r) := by
  unfold importAttributes
  refine .of_since fun s => .pass (silent_at? _) fun _ => .pass (silent_at? _) fun _ => ?_
  refine .pass silent_onNewLine fun _ => .ite ?_ (.done rfl)
  refine .pass silent_advance fun _ => .pass (silent_expect _) fun _ => ?_
  refine .pass (silent_listUntil _ _ ?entry) fun _ => .last (silent_expect _)
  refine .of_since fun s => .pass silent_token fun token => ?_
  split
  case h_3 => exact .fail
  all_goals
    refine .pass silent_advance fun _ => .pass (silent_expect _) fun _ => ?_
    exact .last silent_moduleString

theorem silent_moduleName : Silent (moduleName c) := by
  unfold moduleName
  refine .of_since fun s => .pass silent_token fun token => ?_
  split
  case h_3 => exact .fail
  all_goals exact .pass silent_advance fun _ => .done rfl

theorem silent_importSpecifier : Silent (importSpecifier c) := by
  unfold importSpecifier
  refine .of_since fun s => .pass (silent_moduleName _) fun _ => .pass (silent_eat _) fun _ => ?_
  refine .ite (.pass (silent_name _) fun _ => ?_) (.pass (silent_require _) fun _ => ?_)
  all_goals exact .pass (silent_atAny _) fun _ => .last (silent_require _)

theorem silent_exportSpecifier : Silent (exportSpecifier c) := by
  unfold exportSpecifier
  refine .of_since fun s => .pass (silent_moduleName _) fun _ => .pass (silent_eat _) fun _ => ?_
  refine .ite (.pass (silent_moduleName _) fun _ => ?_) ?_
  all_goals
    exact .pass (silent_atAny _) fun _ => .pass (silent_require _) fun _ => .done rfl

theorem silent_maybeType {α : Type} {specifier : Parser α} (silent : Silent specifier) :
    Silent (maybeType specifier) :=
  lays_orElse silent (.of_since fun _ => .pass (silent_expect _) fun _ => .last silent)

theorem silent_importSpecifiers : Silent (importSpecifiers r c) := by
  unfold importSpecifiers
  refine .of_since fun s => .pass (silent_expect _) fun _ => ?_
  refine .pass (silent_listUntil _ _ (silent_maybeType (silent_importSpecifier _))) fun _ => ?_
  exact .last (silent_expect _)

theorem silent_importNamespace : Silent (importNamespace c) := by
  unfold importNamespace
  refine .of_since fun s => .pass (silent_expect _) fun _ => .pass (silent_expect _) fun _ => ?_
  exact .pass (silent_name _) fun _ => .done rfl

theorem silent_fromModule : Silent (fromModule r) := by
  unfold fromModule
  refine .of_since fun s => .pass (silent_expect _) fun _ => .pass silent_moduleString fun _ => ?_
  exact .pass (silent_importAttributes r) fun _ => .last silent_endStatement

theorem lays_importAlias : Lays (importAlias r c) id := by
  unfold importAlias
  refine .of_since fun s => .pass (silent_expect _) fun _ => .pass (silent_wouldRead _) fun _ => ?_
  refine .ite (.pass silent_advance fun _ => .pass silent_advance fun _ => ?_) ?_
  · refine .pass silent_moduleString fun _ => .pass (silent_expect _) fun _ => ?_
    exact .pass silent_endStatement fun _ => .done rfl
  · exact .pass (silent_qualifiedName r c) fun _ => .pass silent_endStatement fun _ => .done rfl

theorem lays_importDeclaration : Lays (importDeclaration r c) id := by
  unfold importDeclaration
  refine .of_since fun s => .pass (silent_expect _) fun _ => .pass silent_token fun token => ?_
  split
  case h_1 =>
    refine .pass silent_advance fun _ => .pass (silent_importAttributes r) fun _ => ?_
    exact .pass silent_endStatement fun _ => .done rfl
  case h_2 =>
    refine .pass (silent_wouldRead _) fun _ => .ite (.pass silent_advance fun _ => ?_) <|
      .pass (silent_wouldRead _) fun _ => .ite (.pass silent_advance fun _ => ?_) <|
      .pass (silent_wouldRead _) fun _ => .ite (.pass silent_advance fun _ => ?_) ?_
    all_goals
      have end_ (s : State) : Since s [] (do fromModule r; return []) (id : List Expr → _) :=
        .pass (silent_fromModule r) fun _ => .done rfl
      refine .pass (silent_at? _) fun _ => .ite ?_ (.pass (silent_at? _) fun _ => .ite ?_ ?_)
      · exact .pass (silent_importNamespace c) fun _ => end_ s
      · exact .pass (silent_importSpecifiers r c) fun _ => end_ s
      refine .pass (silent_name _) fun _ => .pass (silent_at? _) fun _ => .ite ?_ ?_
      · exact .last (lays_importAlias r c)
      refine .pass (silent_eat _) fun _ => .ite (.pass (silent_at? _) fun _ => .ite ?_ ?_) (end_ s)
      · exact .pass (silent_importNamespace c) fun _ => end_ s
      · exact .pass (silent_importSpecifiers r c) fun _ => end_ s

theorem lays_exportNames : Lays (exportNames r c) id := by
  unfold exportNames
  refine .of_since fun s => .pass (silent_expect _) fun _ => ?_
  refine .pass (silent_listUntil _ _ (silent_maybeType (silent_exportSpecifier c))) fun _ => ?_
  refine .pass (silent_expect _) fun _ => .pass (silent_at? _) fun _ => .ite ?_ ?_
  · exact .pass (silent_fromModule r) fun _ => .done rfl
  · exact .pass (silent_require _) fun _ => .pass silent_endStatement fun _ => .done rfl

theorem lays_exportAll : Lays (exportAll r c) id := by
  unfold exportAll
  refine .of_since fun s => .pass (silent_expect _) fun _ => .pass (silent_eat _) fun _ => ?_
  refine .ite (.pass (silent_moduleName _) fun _ => ?_) ?_
  all_goals exact .pass (silent_fromModule r) fun _ => .done rfl

theorem lays_jump : Lays (jump c) id := by
  unfold jump
  refine .of_since fun s => .pass silent_advance fun _ => .pass silent_canEndStatement fun _ => ?_
  refine .pass (silent_atName _) fun _ => .ite (.pass silent_advance fun _ => ?_) ?_
  all_goals exact .pass silent_endStatement fun _ => .done rfl

end Silent

variable {r : Rules} (orderly : r.Orderly) (c : Context)
include orderly

/-! Variables. -/

theorem lays_declarator (isConst : Bool) : Lays (declarator r c isConst) Declarator.parts := by
  unfold declarator
  refine .of_since fun s => .pass (silent_atAny _) fun _ => .read (orderly.target _) fun _ => ?_
  refine .pass silent_onNewLine fun _ => .ite (.give ?_) (.pass (silent_eat _) fun _ => ?_)
  all_goals
    refine .read (lays_annotated orderly _) fun _ => .read (lays_initializer orderly _) fun _ => ?_
    exact .pass (silent_require _) fun _ => .done rfl

theorem lays_declarators (isConst : Bool) : Lays (declarators r c isConst) declaratorParts := by
  unfold declarators
  have separate := lays_separated r.bound "," (lays_declarator orderly c isConst)
  refine .of_since fun s => .lastAs separate fun found => ?_
  rw [declaratorParts, List.nil_append, List.flatMap_def]

theorem lays_variableParts (isConst : Bool) : Lays (variableParts r c isConst) id := by
  unfold variableParts
  refine .of_since fun s => .read (lays_declarators orderly _ _) fun _ => ?_
  exact .pass (silent_require _) fun _ => .pass silent_endStatement fun _ => .done rfl

/-! Statements with a word of their own. -/

theorem lays_block (place : StatementPlace) : Lays (block r c place) id := by
  unfold block
  refine .of_since fun s => .pass (silent_expect _) fun _ => ?_
  refine .read (lays_statementsUntilBrace orderly _ _) fun _ => ?_
  exact .pass (silent_expect _) fun _ => .done (by simp [statementParts_eq])

theorem lays_condition : Lays (condition r c) ([·]) := by
  unfold condition
  refine .of_since fun s => .pass (silent_expect _) fun _ => .read (orderly.comma _) fun _ => ?_
  exact .pass (silent_expect _) fun _ => .done rfl

theorem lays_governed : Lays (governed r c) id := by
  unfold governed
  exact .of_since fun s => .read (orderly.statement _ _) fun _ => .done rfl

theorem since_loopOver (s : State) (head : List Expr) :
    Since s head (loopOver r c head) id := by
  unfold loopOver
  refine .pass (silent_eat _) fun _ => .ite (.read (lays_value orderly _) fun _ => ?_)
    (.pass (silent_expect _) fun _ => .read (orderly.comma _) fun _ => ?_)
  all_goals
    refine .pass (silent_expect _) fun _ => .read (lays_governed orderly _) fun _ => ?_
    exact .done (by simp)

theorem since_loopCounting (s : State) (head : List Expr) :
    Since s head (loopCounting r c head) id := by
  unfold loopCounting
  refine .pass (silent_expect _) fun _ => .pass (silent_at? _) fun _ => ?_
  refine .ite (.give ?_) (.read (orderly.comma _) fun _ => .give ?_)
  all_goals
    refine .pass (silent_expect _) fun _ => .pass (silent_at? _) fun _ => ?_
    refine .ite (.give ?_) (.read (orderly.comma _) fun _ => .give ?_)
    all_goals
      refine .pass (silent_expect _) fun _ => .read (lays_governed orderly _) fun _ => ?_
      exact .done (by simp)

theorem lays_loopDeclaring (isConst : Bool) : Lays (loopDeclaring r c isConst) id := by
  unfold loopDeclaring
  refine .of_since fun s => .read (lays_declarators orderly _ _) fun found => ?_
  refine .pass (silent_atAny _) fun _ => .ite ?_ ?_
  · exact .pass (silent_require _) fun _ => since_loopOver orderly c s _
  · exact .pass (silent_require _) fun _ => since_loopCounting orderly c s _

theorem lays_forStatement : Lays (forStatement r c) id := by
  unfold forStatement
  refine .of_since fun s => .pass (silent_expect _) fun _ => ?_
  refine .ite (.pass (silent_eat _) fun _ => ?_) (.give ?_)
  all_goals
    refine .pass (silent_expect _) fun _ => .pass (silent_at? _) fun _ => .ite ?_ ?_
    · exact .pass (silent_require _) fun _ => since_loopCounting orderly c s []
    refine .pass (silent_eat _) fun _ => .ite (.last (lays_loopDeclaring orderly _ _)) ?_
    refine .pass (silent_eat _) fun _ => .ite (.last (lays_loopDeclaring orderly _ _)) ?_
    refine .pass (silent_atLet _) fun _ => .ite ?_ (.pass (silent_atUsing _) fun _ => .ite ?_ ?_)
    · exact .pass silent_advance fun _ => .last (lays_loopDeclaring orderly _ _)
    · refine .pass (silent_eat _) fun _ => .pass silent_advance fun _ => ?_
      exact .last (lays_loopDeclaring orderly _ _)
    refine .read (orderly.comma _) fun head => .pass (silent_atAny _) fun _ => .ite ?_ ?_
    · split
      case h_1 => exact .fail
      case h_2 => exact .pass (silent_settleWaiting _) fun _ => since_loopOver orderly c s [head]
    · exact since_loopCounting orderly c s [head]

theorem lays_switchCase : Lays (switchCase r c) id := by
  have more : Silent (do
      return !(← atAny ["case", "default", "\x7d"]) && !((← token) == .finished)) :=
    .of_since fun s => .pass (silent_atAny _) fun _ => .pass silent_token fun _ => .done rfl
  unfold switchCase
  refine .of_since fun s => .pass (silent_eat _) fun _ => .ite (.give ?_)
    (.pass (silent_expect _) fun _ => .read (orderly.comma _) fun _ => .give ?_)
  all_goals
    refine .pass (silent_expect _) fun _ => ?_
    refine .read (lays_collectWhile _ more (orderly.statement _ _)) fun _ => ?_
    exact .done (by simp [statementParts_eq])

theorem lays_switchStatement : Lays (switchStatement r c) id := by
  unfold switchStatement
  refine .of_since fun s => .pass (silent_expect _) fun _ => ?_
  refine .read (lays_condition orderly _) fun _ => .pass (silent_expect _) fun _ => ?_
  refine .read (lays_collectWhile _ silent_notClosed (lays_switchCase orderly _)) fun _ => ?_
  exact .pass (silent_expect _) fun _ => .done (by simp)

theorem lays_tryStatement : Lays (tryStatement r c) id := by
  unfold tryStatement
  refine .of_since fun s => .pass (silent_expect _) fun _ => ?_
  refine .read (lays_block orderly _ _) fun _ => ?_
  refine .pass (silent_eat _) fun _ => .ite (.pass (silent_eat _) fun _ => .ite
    (.read (orderly.target _) fun _ => .read (lays_annotated orderly _) fun _ =>
      .pass (silent_expect _) fun _ => .give <| .read (lays_block orderly _ _) fun _ => .give ?_)
    (.give <| .read (lays_block orderly _ _) fun _ => .give ?_)) (.give ?_)
  all_goals
    refine .pass (silent_eat _) fun _ => ?_
    refine .ite (.read (lays_block orderly _ _) fun _ => ?_) (.give ?_)
    all_goals exact .pass (silent_require _) fun _ => .done (by simp)

theorem lays_ifStatement : Lays (ifStatement r c) id := by
  unfold ifStatement
  refine .of_since fun s => .pass (silent_expect _) fun _ => ?_
  refine .read (lays_condition orderly _) fun _ => .read (lays_governed orderly _) fun _ => ?_
  refine .pass (silent_eat _) fun _ => ?_
  exact .ite (.read (lays_governed orderly _) fun _ => .done rfl) (.give (.done (by simp)))

theorem lays_whileStatement : Lays (whileStatement r c) id := by
  unfold whileStatement
  refine .of_since fun s => .pass (silent_expect _) fun _ => ?_
  exact .read (lays_condition orderly _) fun _ => .read (lays_governed orderly _) fun _ => .done rfl

theorem lays_doStatement : Lays (doStatement r c) id := by
  unfold doStatement
  refine .of_since fun s => .pass (silent_expect _) fun _ => ?_
  refine .read (lays_governed orderly _) fun _ => .pass (silent_expect _) fun _ => ?_
  exact .read (lays_condition orderly _) fun _ => .pass (silent_eat _) fun _ => .done rfl

theorem lays_returnStatement : Lays (returnStatement r c) id := by
  unfold returnStatement
  refine .of_since fun s => .pass (silent_require _) fun _ => .pass (silent_expect _) fun _ => ?_
  refine .pass silent_canEndStatement fun _ => ?_
  refine .ite (.give ?_) (.read (orderly.comma _) fun _ => .give ?_)
  all_goals exact .pass silent_endStatement fun _ => .done rfl

theorem lays_throwStatement : Lays (throwStatement r c) id := by
  unfold throwStatement
  refine .of_since fun s => .pass (silent_expect _) fun _ => .pass silent_onNewLine fun _ => ?_
  refine .pass (silent_require _) fun _ => .read (orderly.comma _) fun _ => ?_
  exact .pass silent_endStatement fun _ => .done rfl

/-! Declarations of types. -/

theorem lays_typeAlias : Lays (typeAlias r c) id := by
  unfold typeAlias
  refine .of_since fun s => .pass (silent_expect _) fun _ => .pass (silent_name _) fun _ => ?_
  refine .read (lays_typeParameters orderly _) fun _ => .pass (silent_expect _) fun _ => ?_
  exact .read (orderly.type _) fun _ => .pass silent_endStatement fun _ => .done rfl

theorem lays_interfaceDeclaration : Lays (interfaceDeclaration r c) id := by
  have parent : Lays (do qualifiedName r c; optionalTypeArguments r c) id :=
    .of_since fun s => .pass (silent_qualifiedName _ _) fun _ =>
      .last (lays_optionalTypeArguments orderly _)
  unfold interfaceDeclaration
  refine .of_since fun s => .pass (silent_expect _) fun _ => .pass (silent_name _) fun _ => ?_
  refine .read (lays_typeParameters orderly _) fun _ => .pass (silent_eat _) fun _ => ?_
  refine .ite (.read (lays_separated _ _ parent) fun _ => .give ?_) (.give ?_)
  all_goals exact .read (lays_typeMembers orderly _) fun _ => .done (by simp)

theorem lays_enumMember : Lays (enumMember r c) id := by
  unfold enumMember
  refine .of_since fun s => .pass silent_token fun token => ?_
  split
  case h_1 | h_2 => exact .pass silent_advance fun _ => .last (lays_initializer orderly _)
  case h_3 =>
    refine .pass (silent_expect _) fun _ => .pass silent_token fun token => ?_
    split
    case h_3 => exact .fail
    all_goals
      refine .pass silent_advance fun _ => .pass (silent_expect _) fun _ => ?_
      exact .last (lays_initializer orderly _)

theorem lays_enumDeclaration : Lays (enumDeclaration r c) id := by
  unfold enumDeclaration
  refine .of_since fun s => .pass (silent_expect _) fun _ => .pass (silent_name _) fun _ => ?_
  refine .pass (silent_expect _) fun _ => ?_
  refine .read (lays_listUntil _ _ (lays_enumMember orderly _)) fun _ => ?_
  exact .pass (silent_expect _) fun _ => .done (by simp)

theorem lays_namespaceDeclaration : Lays (namespaceDeclaration r c) id := by
  have body : Lays (namespaceBody r c) id := lays_block orderly _ _
  unfold namespaceDeclaration
  refine .of_since fun s => .pass (silent_eat _) fun _ => .ite (.last body) ?_
  refine .pass silent_advance fun _ => .pass silent_token fun token => ?_
  split
  · refine .pass silent_advance fun _ => .pass (silent_at? _) fun _ => .ite (.last body) ?_
    exact .pass silent_endStatement fun _ => .done rfl
  · exact .pass (silent_qualifiedName _ _) fun _ => .last body

theorem lays_declaration? (depth : Nat) : Lays (declaration? r c depth) (Option.getD · []) := by
  induction depth generalizing c with
  | zero => exact .of_since fun _ => .done rfl
  | succ depth ih =>
    unfold declaration?
    refine .of_since fun s => .pass (silent_wouldRead _) fun _ => .ite ?_ ?_
    · exact .pass silent_advance fun _ => .last (ih _)
    refine .pass (silent_eat _) fun _ => .ite (since_given (lays_variableParts orderly _ _)) ?_
    refine .pass (silent_at? _) fun _ => .ite ?_ ?_
    · refine .pass silent_advance fun _ => .pass (silent_at? _) fun _ => .ite ?_ ?_
      · exact since_given (lays_enumDeclaration orderly _)
      · exact since_given (lays_variableParts orderly _ _)
    refine .pass (silent_atLet _) fun _ => .ite ?_ ?_
    · exact .pass silent_advance fun _ => since_given (lays_variableParts orderly _ _)
    refine .pass (silent_atUsing _) fun _ => .ite ?_ ?_
    · refine .pass (silent_eat _) fun _ => .pass silent_advance fun _ => ?_
      exact since_given (lays_variableParts orderly _ _)
    refine .pass (silent_at? _) fun _ => .pass silent_atAsyncFunction fun _ => .ite ?_ ?_
    · exact since_given (lays_functionParts orderly _ _ _)
    refine .pass (silent_at? _) fun _ => .ite (since_given (lays_classParts orderly _ _)) ?_
    refine .pass (silent_wouldRead _) fun _ => .ite ?_ ?_
    · exact .pass silent_advance fun _ => since_given (lays_classParts orderly _ _)
    refine .pass (silent_atWordBeforeName _ _) fun _ => .ite ?_ ?_
    · exact since_given (lays_typeAlias orderly _)
    refine .pass (silent_atWordBeforeName _ _) fun _ => .ite ?_ ?_
    · exact since_given (lays_interfaceDeclaration orderly _)
    refine .pass (silent_at? _) fun _ => .ite (since_given (lays_enumDeclaration orderly _)) ?_
    refine .pass (silent_wouldRead _) fun _ => .ite ?_ (.done rfl)
    exact since_given (lays_namespaceDeclaration orderly _)

/-! What binds modules together, and statements as a whole. -/

theorem lays_exportDefault : Lays (exportDefault r c) id := by
  unfold exportDefault
  refine .of_since fun s => .pass (silent_expect _) fun _ => .pass (silent_at? _) fun _ => ?_
  refine .pass silent_atAsyncFunction fun _ => .ite (.last (lays_functionParts orderly _ _ _)) ?_
  refine .pass (silent_atAny _) fun _ => .ite ?_ ?_
  · refine .read (lays_decorators orderly _) fun _ => .pass (silent_eat _) fun _ => ?_
    exact .read (lays_classParts orderly _ _) fun _ => .done rfl
  refine .pass (silent_wouldRead _) fun _ => .ite ?_ ?_
  · exact .pass silent_advance fun _ => .last (lays_classParts orderly _ _)
  refine .pass (silent_atWordBeforeName _ _) fun _ => .ite ?_ ?_
  · exact .last (lays_interfaceDeclaration orderly _)
  · exact .read (lays_value orderly _) fun _ => .pass silent_endStatement fun _ => .done rfl

theorem lays_exportDeclaration : Lays (exportDeclaration r c) id := by
  unfold exportDeclaration
  refine .of_since fun s => .pass (silent_expect _) fun _ => .pass (silent_at? _) fun _ => ?_
  refine .ite (.last (lays_exportDefault orderly _)) ?_
  refine .pass (silent_at? _) fun _ => .ite (.last (lays_exportAll r c)) ?_
  refine .pass (silent_at? _) fun _ => .ite (.last (lays_exportNames r c)) ?_
  refine .pass (silent_wouldRead _) fun _ => .ite ?_ ?_
  · refine .pass silent_advance fun _ => .pass (silent_at? _) fun _ => ?_
    exact .ite (.last (lays_exportAll r c)) (.last (lays_exportNames r c))
  refine .pass (silent_eat _) fun _ => .ite ?_ ?_
  · exact .read (lays_value orderly _) fun _ => .pass silent_endStatement fun _ => .done rfl
  refine .pass (silent_wouldRead _) fun _ => .ite ?_ ?_
  · refine .pass silent_advance fun _ => .pass silent_advance fun _ => ?_
    exact .pass (silent_name _) fun _ => .pass silent_endStatement fun _ => .done rfl
  refine .pass (silent_at? _) fun _ => .ite (.last (lays_importDeclaration r c)) ?_
  refine .read (lays_decorators orderly _) fun _ => ?_
  refine .read (lays_declaration? orderly _ _) fun found => ?_
  cases found with
  | some parts => exact .done rfl
  | none => exact .fail

theorem lays_decoratedClass (place : StatementPlace) : Lays (decoratedClass r c place) id := by
  unfold decoratedClass
  refine .of_since fun s => .read (lays_decorators orderly _) fun _ => ?_
  refine .pass (silent_at? _) fun _ => .ite ?_ ?_
  · refine .pass (silent_require _) fun _ => ?_
    exact .read (lays_exportDeclaration orderly _) fun _ => .done rfl
  · refine .pass (silent_eat _) fun _ => .pass (silent_eat _) fun _ => ?_
    exact .read (lays_classParts orderly _ _) fun _ => .done rfl

theorem lays_expressionStatement : Lays (expressionStatement r c) Statement.parts := by
  unfold expressionStatement
  refine .of_start fun s => .read (orderly.comma _) fun _ => .pass silent_endStatement fun _ => ?_
  exact .pass (silent_spanFrom _) fun _ => .done rfl

theorem lays_keywordStatement? : Lays (keywordStatement? r c) (Option.getD · []) := by
  unfold keywordStatement?
  refine .of_since fun s => .pass silent_token fun token => ?_
  split
  case h_1 => exact since_given (lays_block orderly _ _)
  case h_2 => exact .pass silent_advance fun _ => .done rfl
  case h_3 => exact since_given (lays_ifStatement orderly _)
  case h_4 => exact since_given (lays_forStatement orderly _)
  case h_5 => exact since_given (lays_whileStatement orderly _)
  case h_6 => exact since_given (lays_doStatement orderly _)
  case h_7 | h_8 => exact since_given (lays_jump c)
  case h_9 => exact since_given (lays_returnStatement orderly _)
  case h_10 => exact since_given (lays_switchStatement orderly _)
  case h_11 => exact since_given (lays_throwStatement orderly _)
  case h_12 => exact since_given (lays_tryStatement orderly _)
  case h_13 => exact .pass silent_advance fun _ => .pass silent_endStatement fun _ => .done rfl
  case h_14 =>
    refine .pass silent_advance fun _ => .read (lays_condition orderly _) fun _ => ?_
    exact .read (lays_governed orderly _) fun _ => .done rfl
  case h_15 => exact .done rfl

omit orderly in
theorem silent_atLonelyDeclaration : Silent (atLonelyDeclaration c) := by
  unfold atLonelyDeclaration
  refine .of_since fun s => .pass (silent_atAny _) fun _ => .pass (silent_atLet c) fun _ => ?_
  refine .pass (silent_atUsing c) fun _ => .pass silent_atAsyncFunction fun _ => ?_
  exact .pass (silent_wouldRead _) fun _ => .done rfl

theorem lays_statementRule (place : StatementPlace) :
    Lays (statementRule r c place) Statement.parts := by
  unfold statementRule
  refine .of_since fun s => .read (lays_keywordStatement? orderly _) fun found => ?_
  cases found with
  | some parts => exact .done rfl
  | none =>
    refine .pass (silent_wouldRead _) fun _ => .ite (.last (lays_expressionStatement orderly _)) ?_
    refine .pass (silent_atLonelyDeclaration _) fun _ => .ite .fail ?_
    refine .pass (silent_at? _) fun _ => .ite ?_ ?_
    · exact .read (lays_decoratedClass orderly _ _) fun _ => .done rfl
    refine .pass (silent_at? _) fun _ => .ite ?_ ?_
    · refine .pass (silent_require _) fun _ => ?_
      exact .read (lays_importDeclaration _ _) fun _ => .done rfl
    refine .pass (silent_at? _) fun _ => .ite ?_ ?_
    · refine .pass (silent_require _) fun _ => ?_
      exact .read (lays_exportDeclaration orderly _) fun _ => .done rfl
    refine .read (lays_declaration? orderly _ _) fun found => ?_
    cases found with
    | some parts => exact .done rfl
    | none =>
      refine .pass (silent_wouldRead _) fun _ => ?_
      refine .ite ?_ (.last (lays_expressionStatement orderly _))
      refine .pass silent_advance fun _ => .pass silent_advance fun _ => ?_
      exact .read (orderly.statement _ _) fun _ => .done rfl

end DesignLink.Script.Grammar
