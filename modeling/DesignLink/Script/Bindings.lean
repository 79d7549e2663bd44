import DesignLink.Script.Rules

/-!
Names and patterns that are given values, keys of members, decorators and parameters.
-/

namespace DesignLink.Script.Grammar

open DesignLink.Script.Parser

/-- Whether the current token may stand behind a word that modifies a member. -/
def atMemberStart : Parser Bool := do
  match ← token with
  | .word _ _ | .string _ | .number _ | .bigNumber | .privateName => return true
  | _ => atAny ["[", "\x7b", "*", "..."]

/-- Whether the current word modifies the member behind it. -/
def modifies (sameLine : Bool) : Parser Bool :=
  wouldRead do
    let _ ← anyWord
    require !(sameLine && (← onNewLine))
    require (← atMemberStart)

/-- Moves over a word if it modifies the member behind it. -/
def eatModifier (text : String) (sameLine : Bool) : Parser Bool := do
  if (← at? text) && (← modifies sameLine) then
    advance
    return true
  else return false

def memberKey (r : Rules) (c : Context) : Parser (Key × Bool) := do
  let start ← start
  match ← token with
  | .word text _ =>
    advance
    return (.name (← spanFrom start) text, false)
  | .string value =>
    advance
    return (.expression (.string (← spanFrom start) value), false)
  | .number value =>
    advance
    return (.expression (.number (← spanFrom start) value), false)
  | .bigNumber =>
    advance
    return (.expression (.other (← spanFrom start) []), false)
  | _ =>
    expect "["
    let value ← r.value c.withIn
    expect "]"
    return (.expression value, true)

/-- A type behind a colon, if there is one. -/
def annotation (r : Rules) (c : Context) : Parser (List Expr) := do
  if ← eat ":" then r.type c else return []

/-- A value behind an equals sign, if there is one. -/
def initializer (r : Rules) (c : Context) : Parser (List Expr) := do
  if ← eat "=" then return [← r.value c] else return []

def patternMember (r : Rules) (c : Context) : Parser (List Expr) := do
  if ← eat "..." then
    let parts ← r.target c
    require (← at? "\x7d")
    return parts
  else
    let short ← nameHere? c
    let (key, computed) ← memberKey r c
    if ← eat ":" then
      let target ← r.target c
      return key.parts ++ target ++ (← initializer r c.withIn)
    else
      require (!computed && short.isSome)
      initializer r c.withIn

/-- An item of an array pattern; a comma in its place leaves it out. -/
def patternItem (r : Rules) (c : Context) : Parser (List Expr) := do
  if ← at? "," then return []
  else if ← eat "..." then
    let parts ← r.target c
    require (← at? "]")
    return parts
  else
    let target ← r.target c
    return target ++ (← initializer r c.withIn)

def targetRule (r : Rules) (c : Context) : Parser (List Expr) := do
  if ← eat "\x7b" then
    let parts ← listUntil r.bound "\x7d" (patternMember r c)
    expect "\x7d"
    return parts.flatten
  else if ← eat "[" then
    let parts ← listUntil r.bound "]" (patternItem r c)
    expect "]"
    return parts.flatten
  else
    let _ ← name c
    return []

/-- Words that make a parameter a property of its class. -/
def parameterModifiers : List String := ["public", "private", "protected", "readonly", "override"]

def eatParameterModifiers (r : Rules) (c : Context) : Parser Unit := do
  let _ ← collectWhile r.bound
    (do
      if ← atAny parameterModifiers then
        wouldRead do
          advance
          require !(← onNewLine)
          require ((← atName c) || (← atAny ["\x7b", "["]))
      else return false)
    advance
  return ()

/-- Moves over a colon-free mark of optional parts. -/
def eatOptional : Parser Unit := do
  let _ ← eat "?"
  return ()

/-- One parameter, given the parser of its decorators. -/
def parameter (r : Rules) (c : Context) (decorators : Parser (List Expr)) :
    Parser (List Expr) := do
  let decorators ← decorators
  eatParameterModifiers r c
  let isRest ← eat "..."
  let target ← if ← eat "this" then pure [] else r.target c
  eatOptional
  let types ← annotation r c
  let value ← initializer r c.withIn
  require (!isRest || (value.isEmpty && (← at? ")")))
  return decorators ++ target ++ types ++ value

def parameters (r : Rules) (c : Context) (decorators : Parser (List Expr)) :
    Parser (List (List Expr)) := do
  expect "("
  let parts ← listUntil r.bound ")" (parameter r c decorators)
  expect ")"
  return parts

end DesignLink.Script.Grammar
