import DesignLink.Script.Operators

/-!
Statements, declarations, and what binds modules together.
-/

namespace DesignLink.Script.Grammar

open DesignLink.Script.Parser

/-- One variable of a declaration, with the value it starts with. -/
structure Declarator where
  parts : List Expr
  hasValue : Bool
  /-- Whether it may stand without a value. -/
  isFree : Bool

def declarator (r : Rules) (c : Context) (isConst : Bool) : Parser Declarator := do
  let isPattern ← atAny ["\x7b", "["]
  let target ← r.target c
  let isDefinite ← if ← onNewLine then pure false else eat "!"
  let types ← annotation r c
  let value ← initializer r c
  let isFree := !isConst && !isPattern || c.ambient
  require !(isDefinite && !value.isEmpty)
  return ⟨target ++ types ++ value, !value.isEmpty, isFree⟩

/-- The variables of a declaration behind its keyword. -/
def declarators (r : Rules) (c : Context) (isConst : Bool) : Parser (List Declarator) :=
  separated r.bound "," (declarator r c isConst)

def declaratorParts (declarators : List Declarator) : List Expr :=
  (declarators.map Declarator.parts).flatten

/-- A declaration of variables behind its keyword. -/
def variableParts (r : Rules) (c : Context) (isConst : Bool) : Parser (List Expr) := do
  let found ← declarators r c isConst
  require (found.all fun d => d.hasValue || d.isFree)
  endStatement
  return declaratorParts found

/-- Whether `let` declares variables here. -/
def atLet (c : Context) : Parser Bool :=
  wouldRead do
    expect "let"
    require ((← atName c) || (← atAny ["\x7b", "["]))

/-- Whether `using`, with or without `await` before it, declares variables here. -/
def atUsing (c : Context) : Parser Bool :=
  wouldRead do
    let _ ← eat "await"
    expect "using"
    require !(← onNewLine)
    require ((← atName c) && !(← atAny ["in", "of", "instanceof"]))

def block (r : Rules) (c : Context) (place : StatementPlace) : Parser (List Expr) := do
  expect "\x7b"
  let statements ← statementsUntilBrace r c place
  expect "\x7d"
  return statementParts statements

/-- An expression in parentheses behind a keyword. -/
def condition (r : Rules) (c : Context) : Parser Expr := do
  expect "("
  let value ← r.comma c.withIn
  expect ")"
  return value

def governed (r : Rules) (c : Context) : Parser (List Expr) := do
  return (← r.statement c .alone).parts

/-- What follows the first part of a loop over something: the thing and the body. -/
def loopOver (r : Rules) (c : Context) (head : List Expr) : Parser (List Expr) := do
  let thing ← if ← eat "of" then r.value c.withIn else do
    expect "in"
    r.comma c.withIn
  expect ")"
  return head ++ thing :: (← governed r c)

def loopCounting (r : Rules) (c : Context) (head : List Expr) : Parser (List Expr) := do
  expect ";"
  let test ← if ← at? ";" then pure [] else do pure [← r.comma c.withIn]
  expect ";"
  let step ← if ← at? ")" then pure [] else do pure [← r.comma c.withIn]
  expect ")"
  return head ++ test ++ step ++ (← governed r c)

def loopDeclaring (r : Rules) (c : Context) (isConst : Bool) : Parser (List Expr) := do
  let found ← declarators r c.withoutIn isConst
  let parts := declaratorParts found
  if ← atAny ["of", "in"] then
    require (found.length == 1 && found.all fun d => !d.hasValue)
    loopOver r c parts
  else
    require (found.all fun d => d.hasValue || d.isFree)
    loopCounting r c parts

def forStatement (r : Rules) (c : Context) : Parser (List Expr) := do
  expect "for"
  let isAwait ← if c.awaits then eat "await" else pure false
  expect "("
  if ← at? ";" then
    require !isAwait
    loopCounting r c []
  else if ← eat "var" then loopDeclaring r c false
  else if ← eat "const" then loopDeclaring r c true
  else if ← atLet c then
    advance
    loopDeclaring r c false
  else if ← atUsing c then
    let _ ← eat "await"
    advance
    loopDeclaring r c true
  else
    let head ← r.comma c.withoutIn
    if ← atAny ["of", "in"] then
      match head.asPattern? with
      | none => fail
      | some settled =>
        settleWaiting settled
        loopOver r c [head]
    else loopCounting r c [head]

def switchCase (r : Rules) (c : Context) : Parser (List Expr) := do
  let test ←
    if ← eat "default" then pure []
    else do
      expect "case"
      pure [← r.comma c.withIn]
  expect ":"
  let statements ← collectWhile r.bound
    (do return !(← atAny ["case", "default", "\x7d"]) && !((← token) == .finished))
    (r.statement c .among)
  return test ++ statementParts statements

def switchStatement (r : Rules) (c : Context) : Parser (List Expr) := do
  expect "switch"
  let value ← condition r c
  expect "\x7b"
  let cases ← collectWhile r.bound (do return !(← at? "\x7d")) (switchCase r c)
  expect "\x7d"
  return value :: cases.flatten

def tryStatement (r : Rules) (c : Context) : Parser (List Expr) := do
  expect "try"
  let body ← block r c .among
  let handles ← eat "catch"
  let handler ←
    if handles then do
      let parameter ←
        if ← eat "(" then do
          let target ← r.target c
          let types ← annotation r c
          expect ")"
          pure (target ++ types)
        else pure []
      pure (parameter ++ (← block r c .among))
    else pure []
  let finishes ← eat "finally"
  let last ← if finishes then block r c .among else pure []
  require (handles || finishes)
  return body ++ handler ++ last

def ifStatement (r : Rules) (c : Context) : Parser (List Expr) := do
  expect "if"
  let test ← condition r c
  let yes ← governed r c
  let no ← if ← eat "else" then governed r c else pure []
  return test :: yes ++ no

def whileStatement (r : Rules) (c : Context) : Parser (List Expr) := do
  expect "while"
  let test ← condition r c
  return test :: (← governed r c)

def doStatement (r : Rules) (c : Context) : Parser (List Expr) := do
  expect "do"
  let body ← governed r c
  expect "while"
  let test ← condition r c
  let _ ← eat ";"
  return body ++ [test]

/-- `break` or `continue`, with a label on its line if there is one. -/
def jump (c : Context) : Parser (List Expr) := do
  advance
  if !(← canEndStatement) && (← atName c) then advance
  endStatement
  return []

def returnStatement (r : Rules) (c : Context) : Parser (List Expr) := do
  require c.returns
  expect "return"
  let value ← if ← canEndStatement then pure [] else do pure [← r.comma c.withIn]
  endStatement
  return value

def throwStatement (r : Rules) (c : Context) : Parser (List Expr) := do
  expect "throw"
  require !(← onNewLine)
  let value ← r.comma c.withIn
  endStatement
  return [value]

/-! Declarations of types. -/

def atWordBeforeName (c : Context) (word : String) : Parser Bool :=
  wouldRead do
    expect word
    require !(← onNewLine)
    require (← atName c)

def typeAlias (r : Rules) (c : Context) : Parser (List Expr) := do
  expect "type"
  let _ ← name c
  let parameters ← typeParameters r c
  expect "="
  let type ← r.type c
  endStatement
  return parameters ++ type

def interfaceDeclaration (r : Rules) (c : Context) : Parser (List Expr) := do
  expect "interface"
  let _ ← name c
  let parameters ← typeParameters r c
  let parents ←
    if ← eat "extends" then do
      let types ← separated r.bound "," do
        qualifiedName r c
        optionalTypeArguments r c
      pure types.flatten
    else pure []
  return parameters ++ parents ++ (← typeMembers r c)

def enumMember (r : Rules) (c : Context) : Parser (List Expr) := do
  match ← token with
  | .word _ _ | .string _ => advance
  | _ =>
    expect "["
    match ← token with
    | .string _ | .template true _ => advance
    | _ => fail
    expect "]"
  initializer r c.withIn

def enumDeclaration (r : Rules) (c : Context) : Parser (List Expr) := do
  expect "enum"
  let _ ← name c
  expect "\x7b"
  let parts ← listUntil r.bound "\x7d" (enumMember r c)
  expect "\x7d"
  return parts.flatten

def namespaceBody (r : Rules) (c : Context) : Parser (List Expr) :=
  block r { c with returns := false } .outermost

def namespaceDeclaration (r : Rules) (c : Context) : Parser (List Expr) := do
  if ← eat "global" then namespaceBody r c
  else
    advance
    match ← token with
    | .string _ =>
      advance
      if ← at? "\x7b" then namespaceBody r c
      else
        endStatement
        return []
    | _ =>
      qualifiedName r c
      namespaceBody r c

/-- Whether a namespace is declared here. -/
def atNamespace (c : Context) : Parser Bool :=
  wouldRead do
    if ← eat "global" then
      require !(← onNewLine)
      expect "\x7b"
    else
      let isModule ← at? "module"
      if isModule then advance else expect "namespace"
      require !(← onNewLine)
      match ← token with
      | .string _ => require isModule
      | _ => require (← atName c)

/-- Whether something declared without a value or body starts here. -/
def atDeclare (c : Context) : Parser Bool :=
  wouldRead do
    expect "declare"
    require !(← onNewLine)
    require ((← atAny ["var", "let", "const", "function", "class", "enum", "import"]) ||
      (← atWordBeforeName c "type") || (← atWordBeforeName c "interface") ||
      (← atNamespace c) || (← atAsyncFunction) || (← atUsing c) ||
      (← wouldRead (do expect "abstract"; expect "class")))

/-- A declaration that a module can export, if one starts here. -/
def declaration? (r : Rules) (c : Context) (depth : Nat) : Parser (Option (List Expr)) := do
  match depth with
  | 0 => return none
  | depth + 1 =>
    if ← atDeclare c then
      advance
      declaration? r { c with ambient := true } depth
    else if ← eat "var" then return some (← variableParts r c false)
    else if ← at? "const" then
      advance
      if ← at? "enum" then return some (← enumDeclaration r c)
      else return some (← variableParts r c true)
    else if ← atLet c then
      advance
      return some (← variableParts r c false)
    else if ← atUsing c then
      let _ ← eat "await"
      advance
      return some (← variableParts r c true)
    else if (← at? "function") || (← atAsyncFunction) then
      return some (← functionParts r c true true)
    else if ← at? "class" then return some (← classParts r c true)
    else if ← wouldRead (do expect "abstract"; require !(← onNewLine); expect "class") then
      advance
      return some (← classParts r c true)
    else if ← atWordBeforeName c "type" then return some (← typeAlias r c)
    else if ← atWordBeforeName c "interface" then return some (← interfaceDeclaration r c)
    else if ← at? "enum" then return some (← enumDeclaration r c)
    else if ← atNamespace c then return some (← namespaceDeclaration r c)
    else return none

/-! What binds modules together. -/

def moduleString : Parser Unit := do
  match ← token with
  | .string _ => advance
  | _ => fail

/-- How a module is to be loaded. -/
def importAttributes (r : Rules) : Parser Unit := do
  if (← at? "with") || ((← at? "assert") && !(← onNewLine)) then
    advance
    expect "\x7b"
    let _ ← listUntil r.bound "\x7d" do
      match ← token with
      | .word _ _ | .string _ => advance
      | _ => fail
      expect ":"
      moduleString
    expect "\x7d"

/-- Something exported or imported: a word or a string; tells whether it may be a name. -/
def moduleName (c : Context) : Parser Bool := do
  match ← token with
  | .word text _ =>
    advance
    return isName c text
  | .string _ =>
    advance
    return false
  | _ => fail

/-- One imported name, with the name it gets. -/
def importSpecifier (c : Context) : Parser Unit := do
  let isName ← moduleName c
  if ← eat "as" then
    let _ ← name c
    pure ()
  else require isName
  require (← atAny [",", "\x7d"])

/-- One exported name, with the name it gets; tells whether the first may be a name. -/
def exportSpecifier (c : Context) : Parser Bool := do
  let isName ← moduleName c
  if ← eat "as" then
    let _ ← moduleName c
    pure ()
  require (← atAny [",", "\x7d"])
  return isName

/-- A specifier with the word for types before it, or not. -/
def maybeType {α : Type} (specifier : Parser α) : Parser α :=
  orElse specifier do
    expect "type"
    specifier

def importSpecifiers (r : Rules) (c : Context) : Parser Unit := do
  expect "\x7b"
  let _ ← listUntil r.bound "\x7d" (maybeType (importSpecifier c))
  expect "\x7d"

def importNamespace (c : Context) : Parser Unit := do
  expect "*"
  expect "as"
  let _ ← name c

def atImportType (c : Context) : Parser Bool :=
  wouldRead do
    expect "type"
    if ← atAny ["\x7b", "*"] then return ()
    else if ← eat "from" then require (← atAny ["from", "="])
    else require (← atName c)

/-- The end of an import or export from another module. -/
def fromModule (r : Rules) : Parser Unit := do
  expect "from"
  moduleString
  importAttributes r
  endStatement

/-- Another name for something in a namespace or module. -/
def importAlias (r : Rules) (c : Context) : Parser (List Expr) := do
  expect "="
  if ← wouldRead (do expect "require"; expect "(") then
    advance
    advance
    moduleString
    expect ")"
  else qualifiedName r c
  endStatement
  return []

def importDeclaration (r : Rules) (c : Context) : Parser (List Expr) := do
  expect "import"
  match ← token with
  | .string _ =>
    advance
    importAttributes r
    endStatement
    return []
  | _ =>
    if ← atImportType c then advance
    else if ← wouldRead (do expect "defer"; expect "*") then advance
    else if ← wouldRead (do expect "source"; let _ ← name c; expect "from") then advance
    if ← at? "*" then importNamespace c
    else if ← at? "\x7b" then importSpecifiers r c
    else
      let _ ← name c
      if ← at? "=" then return ← importAlias r c
      if ← eat "," then
        if ← at? "*" then importNamespace c else importSpecifiers r c
    fromModule r
    return []

/-- What a module exports under no name. -/
def exportDefault (r : Rules) (c : Context) : Parser (List Expr) := do
  expect "default"
  if (← at? "function") || (← atAsyncFunction) then functionParts r c false true
  else if ← atAny ["class", "@"] then
    let decorators ← decorators r c
    let _ ← eat "abstract"
    return decorators ++ (← classParts r c false)
  else if ← wouldRead (do expect "abstract"; require !(← onNewLine); expect "class") then
    advance
    classParts r c false
  else if ← atWordBeforeName c "interface" then interfaceDeclaration r c
  else
    let value ← r.value c.withIn
    endStatement
    return [value]

/-- Names exported in braces. Without another module they must be names of this one. -/
def exportNames (r : Rules) (c : Context) : Parser (List Expr) := do
  expect "\x7b"
  let areNames ← listUntil r.bound "\x7d" (maybeType (exportSpecifier c))
  expect "\x7d"
  if ← at? "from" then fromModule r
  else
    require (areNames.all id)
    endStatement
  return []

def exportAll (r : Rules) (c : Context) : Parser (List Expr) := do
  expect "*"
  if ← eat "as" then
    let _ ← moduleName c
    pure ()
  fromModule r
  return []

def exportDeclaration (r : Rules) (c : Context) : Parser (List Expr) := do
  expect "export"
  if ← at? "default" then exportDefault r c
  else if ← at? "*" then exportAll r c
  else if ← at? "\x7b" then exportNames r c
  else if ← wouldRead (do expect "type"; require (← atAny ["*", "\x7b"])) then
    advance
    if ← at? "*" then exportAll r c else exportNames r c
  else if ← eat "=" then
    let value ← r.value c.withIn
    endStatement
    return [value]
  else if ← wouldRead (do expect "as"; expect "namespace") then
    advance
    advance
    let _ ← name c
    endStatement
    return []
  else if ← at? "import" then importDeclaration r c
  else
    let decorators ← decorators r c
    match ← declaration? r c 3 with
    | some parts => return decorators ++ parts
    | none => fail

def decoratedClass (r : Rules) (c : Context) (place : StatementPlace) : Parser (List Expr) := do
  let decorators ← decorators r c
  if ← at? "export" then
    require (place == .outermost)
    return decorators ++ (← exportDeclaration r c)
  else
    let _ ← eat "declare"
    let _ ← eat "abstract"
    return decorators ++ (← classParts r c true)

def atImportExpression : Parser Bool :=
  wouldRead do
    expect "import"
    require (← atAny ["(", "."])

def atLabel (c : Context) : Parser Bool :=
  wouldRead do
    let _ ← name c
    expect ":"

/-- Whether a declaration starts here that may not stand alone. -/
def atLonelyDeclaration (c : Context) : Parser Bool := do
  return (← atAny ["const", "class", "import", "export"]) || (← atLet c) || (← atUsing c) ||
    (← atAsyncFunction) || (← wouldRead (do expect "function"; expect "*"))

def expressionStatement (r : Rules) (c : Context) : Parser Statement := do
  let start ← start
  let value ← r.comma c.withIn
  endStatement
  return .expression (← spanFrom start) value

/-- A statement that starts with a mark or a word of its own, if one does. -/
def keywordStatement? (r : Rules) (c : Context) : Parser (Option (List Expr)) := do
  match plainText (← token) with
  | some "\x7b" => return some (← block r c .among)
  | some ";" =>
    advance
    return some []
  | some "if" => return some (← ifStatement r c)
  | some "for" => return some (← forStatement r c)
  | some "while" => return some (← whileStatement r c)
  | some "do" => return some (← doStatement r c)
  | some "break" | some "continue" => return some (← jump c)
  | some "return" => return some (← returnStatement r c)
  | some "switch" => return some (← switchStatement r c)
  | some "throw" => return some (← throwStatement r c)
  | some "try" => return some (← tryStatement r c)
  | some "debugger" =>
    advance
    endStatement
    return some []
  | some "with" =>
    advance
    let value ← condition r c
    return some (value :: (← governed r c))
  | _ => return none

def statementRule (r : Rules) (c : Context) (place : StatementPlace) : Parser Statement := do
  let c := { c with allowsIn := true, decorates := false }
  match ← keywordStatement? r c with
  | some parts => return .other parts
  | none =>
    if ← atImportExpression then expressionStatement r c
    else if place == .alone && (← atLonelyDeclaration c) then fail
    else if ← at? "@" then return .other (← decoratedClass r c place)
    else if ← at? "import" then
      require (place == .outermost)
      return .other (← importDeclaration r c)
    else if ← at? "export" then
      require (place == .outermost)
      return .other (← exportDeclaration r c)
    else
      match ← declaration? r c 3 with
      | some parts => return .other parts
      | none =>
        if ← atLabel c then
          advance
          advance
          return .other (← r.statement c .alone).parts
        else expressionStatement r c

end DesignLink.Script.Grammar
