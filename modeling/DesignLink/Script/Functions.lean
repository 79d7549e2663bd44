import DesignLink.Script.Types

/-!
Functions, arrow functions and methods.
-/

namespace DesignLink.Script.Grammar

open DesignLink.Script.Parser

/-- The directives in front of statements: strings that stand alone. Gives the statements behind
them, the first of which may have been read already. -/
def skipDirectives (r : Rules) (c : Context) (place : StatementPlace) :
    Parser (List Statement) :=
  iterate (fun _ => do
    match ← token with
    | .string _ =>
      let statement ← r.statement c place
      match statement with
      | .expression _ (.string _ _) => return .inl ()
      | _ => return .inr [statement]
    | _ => return .inr []) r.bound ()

def statementsUntilBrace (r : Rules) (c : Context) (place : StatementPlace) :
    Parser (List Statement) :=
  collectWhile r.bound
    (do return !(← at? "\x7d") && !((← token) == .finished)) (r.statement c place)

def statementParts (statements : List Statement) : List Expr :=
  (statements.map Statement.parts).flatten

def functionBody (r : Rules) (c : Context) : Parser (List Expr) := do
  expect "\x7b"
  let first ← skipDirectives r c .among
  let rest ← statementsUntilBrace r c .among
  expect "\x7d"
  return statementParts (first ++ rest)

def decorators (r : Rules) (c : Context) : Parser (List Expr) :=
  collectWhile r.bound (at? "@") do
    advance
    r.operand { c with decorates := true }

/-- How the parameters and the body of a function are given. -/
structure FunctionForm where
  isAsync : Bool
  isGenerator : Bool
  /-- Whether a declaration may stand in place of the body. -/
  allowsNoBody : Bool

/-- Parameters, result and body of a function. -/
def functionRest (r : Rules) (c : Context) (form : FunctionForm) :
    Parser (List (List Expr) × List Expr) := do
  let inner := c.ofFunction form.isAsync form.isGenerator
  let types ← typeParameters r c
  let parameters ← parameters r inner (decorators r c)
  let result ← resultAnnotation r c
  let body ←
    if ← at? "\x7b" then functionBody r inner
    else do
      require form.allowsNoBody
      endStatement
      pure []
  return (parameters, types ++ parameters.flatten ++ result ++ body)

def atAsyncFunction : Parser Bool :=
  wouldRead do
    expect "async"
    require !(← onNewLine)
    expect "function"

/-- A function with its keyword; the flags say whether it must have a name and a body. -/
def functionParts (r : Rules) (c : Context) (needsName allowsNoBody : Bool) :
    Parser (List Expr) := do
  let isAsync ← eat "async"
  expect "function"
  let isGenerator ← eat "*"
  let nameContext :=
    if allowsNoBody then c else { c with yields := isGenerator, awaits := isAsync }
  if ← atName nameContext then advance else require !needsName
  let (_, parts) ← functionRest r c ⟨isAsync, isGenerator, allowsNoBody⟩
  return parts

def functionExpression (r : Rules) (c : Context) : Parser Expr := do
  let start ← start
  let parts ← functionParts r c false false
  return .function (← spanFrom start) parts

def methodValue (r : Rules) (c : Context) (form : FunctionForm) :
    Parser (List (List Expr) × Expr) := do
  let start ← start
  let (parameters, parts) ← functionRest r c form
  return (parameters, .function (← spanFrom start) parts)

def arrowBody (r : Rules) (c : Context) (isAsync allowsResult : Bool) : Parser (List Expr) := do
  let inner := { c with yields := false, awaits := isAsync, decorates := false }
  if ← at? "\x7b" then functionBody r { inner with allowsIn := true, returns := true }
  else return [← r.assignment inner allowsResult]

def arrow : Parser Unit := do
  require !(← onNewLine)
  expect "=>"

/-- Whether parentheses or type parameters that start here belong to an arrow function. -/
inductive ArrowGuess where
  | no
  | maybe
  | yes
  deriving DecidableEq

/-- What an opening parenthesis, already passed, makes of itself and what follows. -/
def guessParameters (c : Context) : Parser ArrowGuess := do
  if ← eat ")" then
    if ← atAny [":", "=>", "\x7b"] then return .yes else return .no
  else if ← atAny ["[", "\x7b"] then return .maybe
  else if ← eat "..." then
    if (← atWord) || (← atAny ["[", "\x7b"]) then return .yes else return .no
  else if ← wouldRead (do
      require (← atAny (parameterModifiers ++ ["declare", "abstract", "static", "accessor"]))
      advance
      require (← atName c)
      require !(← at? "as")
      require !(← at? "satisfies")) then return .yes
  else if !((← atName c) || (← at? "this")) then return .no
  else
    advance
    if ← at? ":" then return .yes
    else if ← eat "?" then
      if ← atAny [":", ",", "=", ")"] then return .yes else return .no
    else if ← atAny [",", "=", ")"] then return .maybe
    else return .no

/-- What an opening angle, already passed, makes of itself: between markup and type parameters only
a comma, a default or a bound behind the first name decides. -/
def guessTypeParameters : Parser ArrowGuess := do
  let _ ← eat "const"
  if !(← atWord) then return .no
  else
    advance
    if ← atAny [",", "="] then return .maybe
    else if ← eat "extends" then
      if ← atAny ["=", ">", "/"] then return .no else return .maybe
    else return .no

def guessArrow (c : Context) : Parser ArrowGuess := do
  let guess ← peek do
    if ← eat "async" then require !(← onNewLine)
    if ← eat "(" then guessParameters c
    else
      expect "<"
      guessTypeParameters
  return guess.getD .no

/-- An arrow function with parentheses. Where no result may be given, one that has it must be
followed by a colon. -/
def parenthesizedArrow (r : Rules) (c : Context) (allowsResult : Bool) : Parser Expr := do
  let start ← start
  let isAsync ← eat "async"
  let types ← typeParameters r c
  let inner := { c with yields := false, awaits := isAsync }
  let parameters ← parameters r inner (pure [])
  let hasResult ← at? ":"
  let result ← resultAnnotation r c
  arrow
  let body ← arrowBody r c isAsync allowsResult
  require (allowsResult || !hasResult || (← at? ":"))
  return .function (← spanFrom start) (types ++ parameters.flatten ++ result ++ body)

def asyncArrow (r : Rules) (c : Context) (allowsResult : Bool) : Parser Expr := do
  let start ← start
  expect "async"
  require !(← onNewLine)
  require !(← at? "=>")
  let _ ← name { c with awaits := true }
  arrow
  let body ← arrowBody r c true allowsResult
  return .function (← spanFrom start) body

def arrowFunction? (r : Rules) (c : Context) (allowsResult : Bool) : Parser (Option Expr) := do
  if ← atAny ["(", "<", "async"] then
    match ← guessArrow c with
    | .yes => return some (← parenthesizedArrow r c true)
    | .maybe => attempt (parenthesizedArrow r c allowsResult)
    | .no => if ← at? "async" then attempt (asyncArrow r c allowsResult) else return none
  else return none

end DesignLink.Script.Grammar
