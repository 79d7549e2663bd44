import DesignLink.Script.Functions

/-!
Literals with parts: objects, arrays, templates and regular expressions.
-/

namespace DesignLink.Script.Grammar

open DesignLink.Script.Parser

/-- A getter has no parameters, a setter exactly one. -/
def accessorFits (isGetter : Bool) (parameters : List (List Expr)) : Bool :=
  if isGetter then parameters.isEmpty else parameters.length == 1

/-- Whether the only parameter of a setter collects the rest, seen from its parenthesis. -/
def atRestParameter : Parser Bool :=
  wouldRead do
    expect "("
    expect "..."

/-- A getter or setter behind its word. -/
def accessor (r : Rules) (c : Context) (start : Nat) (isGetter : Bool) : Parser Member := do
  let (key, computed) ← memberKey r c
  require !(← atRestParameter)
  let (parameters, value) ← methodValue r c ⟨false, false, false⟩
  require (accessorFits isGetter parameters)
  return .field (← spanFrom start) key computed value

def objectMember (r : Rules) (c : Context) : Parser Member := do
  let start ← start
  if ← eat "..." then
    let value ← r.value c
    return .spread (← spanFrom start) value
  else if ← eatModifier "get" false then accessor r c start true
  else if ← eatModifier "set" false then accessor r c start false
  else
    let isAsync ← eatModifier "async" true
    let isGenerator ← eat "*"
    let nameStart ← Parser.start
    let short ← nameHere? c
    let (key, computed) ← memberKey r c
    if ← atAny ["(", "<"] then
      let (_, value) ← methodValue r c ⟨isAsync, isGenerator, false⟩
      return .field (← spanFrom start) key computed value
    else
      require !(isAsync || isGenerator)
      if ← eat ":" then
        let value ← r.value c
        return .field (← spanFrom start) key computed value
      else
        match short, computed with
        | some text, false =>
          let name := Expr.identifier (← spanFrom nameStart) text
          if ← eat "=" then
            let value ← r.value c
            addWaiting
            return .initialized (← spanFrom start) name value
          else return .field (← spanFrom start) key computed name
        | _, _ => fail

def objectLiteral (r : Rules) (c : Context) : Parser Expr := do
  let start ← start
  expect "\x7b"
  let members ← listUntil r.bound "\x7d" (objectMember r c.withIn)
  expect "\x7d"
  return .object (← spanFrom start) members

def arrayItem (r : Rules) (c : Context) : Parser Item := do
  let l ← lexeme
  if ← at? "," then return .hole ⟨l.start, l.stop⟩
  else if ← eat "..." then
    let value ← r.value c
    return .spread (← spanFrom l.start) value
  else return .value (← r.value c)

def arrayLiteral (r : Rules) (c : Context) : Parser Expr := do
  let start ← start
  expect "["
  let items ← listUntil r.bound "]" (arrayItem r c.withIn)
  expect "]"
  return .array (← spanFrom start) items

def argument (r : Rules) (c : Context) : Parser Item := do
  let start ← start
  if ← eat "..." then
    let value ← r.value c
    return .spread (← spanFrom start) value
  else return .value (← r.value c)

def arguments (r : Rules) (c : Context) : Parser (List Item) := do
  expect "("
  let items ← listUntil r.bound ")" (argument r c.withIn)
  expect ")"
  return items

/-- The expressions between the pieces of a template. -/
def template (r : Rules) (c : Context) (isTagged : Bool) : Parser (List Expr) :=
  templateParts r isTagged do return [← r.comma c.withIn]

def regularExpression : Parser Expr := do
  let l ← lexeme
  match Token.scanPattern false (l.start + 1) (l.here.drop 1) with
  | none => fail
  | some place =>
    match Token.scanFlags place with
    | none => fail
    | some place =>
      moveTo place.offset (.next place)
      return .other ⟨l.start, place.offset⟩ []

end DesignLink.Script.Grammar
