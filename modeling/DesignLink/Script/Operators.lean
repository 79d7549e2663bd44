import DesignLink.Script.Markup

/-!
Expressions made of operands and operators.
-/

namespace DesignLink.Script

def Expr.isPlace : Expr → Bool
  | identifier _ _ | property _ _ | element _ _ _ => true
  | group _ inner | nonNull _ inner | ascription _ inner _ => inner.isPlace
  | _ => false

mutual

/-- Whether an expression can be read as a pattern, and how many defaults this settles. -/
def Expr.asPattern? : Expr → Option Nat
  | .object _ members => membersAsPattern? members
  | .array _ items => itemsAsPattern? items
  | e => if e.isPlace then some 0 else none

/-- The same for an expression with a default value. -/
def Expr.asPatternPart? : Expr → Option Nat
  | .assignment _ true _ _ => some 0
  | .object _ members => membersAsPattern? members
  | .array _ items => itemsAsPattern? items
  | e => if e.isPlace then some 0 else none

def membersAsPattern? : List Member → Option Nat
  | [] => some 0
  | [.spread _ value] => value.asPattern?
  | .spread _ _ :: _ => none
  | .initialized _ _ _ :: rest => (membersAsPattern? rest).map (· + 1)
  | .field _ _ _ value :: rest =>
    match value.asPatternPart?, membersAsPattern? rest with
    | some first, some later => some (first + later)
    | _, _ => none

def itemsAsPattern? : List Item → Option Nat
  | [] => some 0
  | [.spread _ value] => value.asPattern?
  | .spread _ _ :: _ => none
  | .hole _ :: rest => itemsAsPattern? rest
  | .value value :: rest =>
    match value.asPatternPart?, itemsAsPattern? rest with
    | some first, some later => some (first + later)
    | _, _ => none

end

namespace Grammar

open DesignLink.Script.Parser

/-- A module loaded or described: `import` behind which a parenthesis or a point comes. -/
def importExpression (r : Rules) (c : Context) : Parser Expr := do
  let start ← start
  expect "import"
  if ← eat "." then
    let word ← anyWord
    if word == "meta" then return .other (← spanFrom start) []
    else require (word == "defer" || word == "source")
  expect "("
  let first ← r.value c.withIn
  let more ←
    if ← eat "," then
      if ← at? ")" then pure []
      else do
        let options ← r.value c.withIn
        let _ ← eat ","
        pure [options]
    else pure []
  expect ")"
  return .other (← spanFrom start) (first :: more)

/-- The class above, of which a member or the constructor is taken. -/
def superExpression : Parser Expr := do
  let start ← start
  expect "super"
  require (← atAny ["(", ".", "["])
  return .other (← spanFrom start) []

def groupExpression (r : Rules) (c : Context) : Parser Expr := do
  let start ← start
  expect "("
  let inner ← r.comma c.withIn
  expect ")"
  return .group (← spanFrom start) inner

/-- The current token as an expression of its own. -/
def single (make : Span → Expr) : Parser Expr := do
  let start ← start
  advance
  return make (← spanFrom start)

/-- Types in angles behind an operand. They are types only if what follows can not go on with a
comparison. -/
def instantiationTypes (r : Rules) (c : Context) : Parser (List Expr) := do
  splitAngle
  expect "<"
  let parts ← separated r.bound "," (r.type c)
  let l ← lexeme
  require !(['>', '='].isPrefixOf l.here)
  expect ">"
  let follows ← match ← token with
    | .template _ _ => pure true
    | .string _ | .number _ | .bigNumber | .privateName => onNewLine
    | .word text _ =>
      if ["in", "instanceof", "as", "satisfies"].contains text then
        pure (c.allowsIn || text != "in")
      else
        let starters := ["class", "delete", "false", "function", "import", "new", "null", "super",
          "this", "true", "typeof", "void"]
        let cannotStart := reserved.contains text && !starters.contains text
        pure ((← onNewLine) || cannotStart)
    | .mark text =>
      if text == "(" then pure true
      else if ["<", ">", "+", "-"].contains text then pure false
      else
        let canStart := ["[", "\x7b", "~", "!", "++", "--", "@"].contains text
        pure ((← onNewLine) || !canStart)
    | _ => pure true
  require follows
  return parts.flatten

/-- An operand on its way, and whether a part of it may be left out. -/
structure Chained where
  expr : Expr
  isChain : Bool

def bracketMember (r : Rules) (c : Context) (start : Nat) (object : Expr) : Parser Expr := do
  expect "["
  let index ← r.comma c.withIn
  expect "]"
  return .element (← spanFrom start) object [index]

def namedMember (start : Nat) (object : Expr) : Parser Expr := do
  match ← token with
  | .privateName =>
    advance
    return .element (← spanFrom start) object []
  | _ =>
    let _ ← anyWord
    return .property (← spanFrom start) object

/-- The next member, tag or type list behind an operand, if there is one. -/
def memberStep (r : Rules) (c : Context) (start : Nat) (allowsChain : Bool) (e : Chained) :
    Parser (Option Chained) := do
  match ← token with
  | .mark "[" =>
    if c.decorates then return none
    else return some { e with expr := ← bracketMember r c start e.expr }
  | .mark "." =>
    advance
    return some { e with expr := ← namedMember start e.expr }
  | .mark "?." =>
    if !allowsChain then return none
    else
      let toBracket ← wouldRead (do advance; expect "[")
      let toCall ← wouldRead (do advance; require (← atAny ["(", "<", "<<"]))
      if toCall then return none
      else
        advance
        if toBracket && !c.decorates then
          return some ⟨← bracketMember r c start e.expr, true⟩
        else return some ⟨← namedMember start e.expr, true⟩
  | .mark "!" =>
    if ← onNewLine then return none
    else
      advance
      return some { e with expr := .nonNull (← spanFrom start) e.expr }
  | .template _ _ =>
    require !e.isChain
    let parts ← template r c true
    return some { e with expr := .other (← spanFrom start) (e.expr :: parts) }
  | .mark "<" | .mark "<<" =>
    match ← attempt (instantiationTypes r c) with
    | some types =>
      return some { e with expr := .instantiation (← spanFrom start) e.expr types }
    | none => return none
  | _ => return none

def memberRest (r : Rules) (c : Context) (start : Nat) (allowsChain : Bool) (e : Chained) :
    Parser Chained :=
  iterate (fun e => do
    match ← memberStep r c start allowsChain e with
    | some e => return .inl e
    | none => return .inr e) r.bound e

/-- An object made by a constructor. -/
def newExpression (r : Rules) (c : Context) (operand : Parser Expr) : Parser Expr := do
  let start ← start
  expect "new"
  if ← eat "." then
    expect "target"
    return .other (← spanFrom start) []
  else
    require !(← at? "import")
    let calleeStart ← Parser.start
    let callee ← operand
    let callee ← memberRest r c calleeStart false ⟨callee, false⟩
    let arguments ← if ← at? "(" then arguments r c else pure []
    require !(← at? "?.")
    let parts := arguments.flatMap fun item =>
      match item with
      | .value e | .spread _ e => [e]
      | .hole _ => []
    return .other (← spanFrom start) (callee.expr :: parts)

/-- An operand without anything behind it; `depth` bounds how many `new` come before it. -/
def primary (r : Rules) (c : Context) : Nat → Parser Expr
  | 0 => fail
  | depth + 1 => do
    match ← token with
    | .string value => single (Expr.string · value)
    | .number value => single (Expr.number · value)
    | .bigNumber => single (Expr.other · [])
    | .template _ _ =>
      let start ← start
      let parts ← template r c false
      return .template (← spanFrom start) parts
    | .mark "(" => groupExpression r c
    | .mark "[" => arrayLiteral r c
    | .mark "\x7b" => objectLiteral r c
    | .mark "/" | .mark "/=" => regularExpression
    | .mark "@" => classExpression r c
    | .word "true" false => single (Expr.boolean · true)
    | .word "false" false => single (Expr.boolean · false)
    | .word "null" false | .word "this" false => single (Expr.other · [])
    | .word "function" false => functionExpression r c
    | .word "class" false => classExpression r c
    | .word "super" false => superExpression
    | .word "import" false => importExpression r c
    | .word "new" false => newExpression r c (primary r c depth)
    | _ =>
      if ← atAsyncFunction then functionExpression r c
      else
        let start ← start
        let text ← name c
        return .identifier (← spanFrom start) text

def callStep (r : Rules) (c : Context) (start : Nat) (e : Chained) : Parser (Option Chained) := do
  let isChain ← eat "?."
  let types ← if isChain && (← atAny ["<", "<<"]) then typeArguments r c else pure []
  if ← at? "(" then
    let arguments ← arguments r c
    let span ← spanFrom start
    match e.expr, isChain with
    | .instantiation _ callee types, false =>
      return some { e with expr := .call span callee types arguments }
    | callee, _ => return some ⟨.call span callee types arguments, e.isChain || isChain⟩
  else
    require !isChain
    return none

def operandRule (r : Rules) (c : Context) : Parser Expr := do
  let start ← start
  let head ← primary r c r.bound
  let e ← iterate (fun e => do
    let e ← memberRest r c start true e
    match ← callStep r c start e with
    | some e => return .inl e
    | none => return .inr e) r.bound (⟨head, false⟩ : Chained)
  if e.isChain then return .chain (← spanFrom start) e.expr else return e.expr

/-- Whether an element of markup starts here. -/
def atMarkup : Parser Bool :=
  wouldRead do
    expect "<"
    require ((← atWord) || (← at? ">"))

def updateExpression (r : Rules) (c : Context) : Parser Expr := do
  let start ← start
  if ← atAny ["++", "--"] then
    advance
    let operand ← r.unary c
    require operand.isPlace
    return .other (← spanFrom start) [operand]
  else if ← atMarkup then r.markup c false
  else
    let operand ← r.operand c
    if (← atAny ["++", "--"]) && !(← onNewLine) then
      require operand.isPlace
      advance
      return .other (← spanFrom start) [operand]
    else return operand

def unaryRule (r : Rules) (c : Context) : Parser Expr := do
  let start ← start
  if ← eat "-" then
    let operand ← r.unary c
    return .negation (← spanFrom start) operand
  else if ← atAny ["+", "~", "!", "delete", "typeof", "void"] then
    advance
    let operand ← r.unary c
    return .prefixed (← spanFrom start) operand
  else if c.awaits && (← at? "await") then
    advance
    let operand ← r.unary c
    return .other (← spanFrom start) [operand]
  else updateExpression r c

/-- How tightly an operator binds. -/
def level? (c : Context) : String → Option Nat
  | "??" => some 1
  | "||" => some 2
  | "&&" => some 3
  | "|" => some 4
  | "^" => some 5
  | "&" => some 6
  | "==" | "!=" | "===" | "!==" => some 7
  | "<" | ">" | "<=" | ">=" | "instanceof" | "as" | "satisfies" => some 8
  | "in" => if c.allowsIn then some 8 else none
  | "<<" | ">>" | ">>>" => some 9
  | "+" | "-" => some 10
  | "*" | "/" | "%" => some 11
  | "**" => some 12
  | _ => none

/-- Whether an operand is a logical one that may not stand beside `??`. -/
def mixesBadly : Expr → Bool
  | .logical _ coalesces _ _ => !coalesces
  | _ => false

def startsWithOperator : Expr → Bool
  | .negation _ _ | .prefixed _ _ => true
  | _ => false

/-- The next operator with its right operand, if it binds more tightly than `least`. -/
def operatorStep (r : Rules) (c : Context) (start least : Nat) (left : Expr) :
    Parser (Option Expr) := do
  joinAngle
  match plainText (← token) with
  | none => return none
  | some text =>
    match level? c text with
    | none => return none
    | some level =>
      if if text == "**" then level < least else level ≤ least then return none
      else if text == "as" || text == "satisfies" then
        if ← onNewLine then return none
        else
          advance
          let types ← r.type c
          return some (.ascription (← spanFrom start) left types)
      else
        require !(text == "**" && startsWithOperator left)
        advance
        let right ← r.binary c level
        let span ← spanFrom start
        if text == "??" then
          require !(mixesBadly left || mixesBadly right)
          return some (.logical span true left right)
        else if text == "||" || text == "&&" then return some (.logical span false left right)
        else return some (.other span [left, right])

def binaryRule (r : Rules) (c : Context) (least : Nat) : Parser Expr := do
  let start ← start
  if c.allowsIn && (← token) == .privateName then
    advance
    expect "in"
    let right ← r.binary c 8
    return .other (← spanFrom start) [right]
  else
    let left ← r.unary c
    iterate (fun left => do
      match ← operatorStep r c start least left with
      | some e => return .inl e
      | none => return .inr left) r.bound left

/-- The operators that give a place a new value, apart from the plain one. -/
def assignmentMarks : List String := [
  "+=", "-=", "*=", "/=", "%=", "**=", "<<=", ">>=", ">>>=", "&=", "|=", "^=", "&&=", "||=",
  "??="]

/-- What a generator gives out. -/
def yieldExpression (r : Rules) (c : Context) : Parser Expr := do
  let start ← start
  expect "yield"
  if ← onNewLine then return .other (← spanFrom start) []
  else
    let delegates ← eat "*"
    let ends := (← atAny [";", "\x7d", "]", ")", ":", ",", "in"]) || (← token) == .finished
    if ends && !delegates then return .other (← spanFrom start) []
    else
      let value ← r.value c
      return .other (← spanFrom start) [value]

/-- A question with two answers behind its condition. -/
def conditionalRest (r : Rules) (c : Context) (start : Nat) (condition : Expr)
    (allowsResult : Bool) : Parser Expr := do
  if ← eat "?" then
    let yes ← r.assignment { c with allowsIn := true } false
    expect ":"
    let no ← r.assignment c allowsResult
    return .other (← spanFrom start) [condition, yes, no]
  else return condition

/-- What follows the operands of an expression: an arrow, a new value or a question. -/
def assignmentRest (r : Rules) (c : Context) (start : Nat) (left : Expr) (allowsResult : Bool) :
    Parser Expr := do
  match left, ← at? "=>" with
  | .identifier _ _, true =>
    arrow
    let body ← arrowBody r c false allowsResult
    return .function (← spanFrom start) body
  | _, _ =>
    if ← at? "=" then
      match left.asPattern? with
      | none => fail
      | some settled =>
        settleWaiting settled
        advance
        let value ← r.assignment c allowsResult
        return .assignment (← spanFrom start) true left value
    else if ← atAny assignmentMarks then
      require left.isPlace
      advance
      let value ← r.assignment c allowsResult
      return .assignment (← spanFrom start) false left value
    else conditionalRest r c start left allowsResult

def assignmentRule (r : Rules) (c : Context) (allowsResult : Bool) : Parser Expr := do
  if c.yields && (← at? "yield") then yieldExpression r c
  else
    match ← arrowFunction? r c allowsResult with
    | some e => return e
    | none =>
      let start ← start
      let left ← r.binary c 0
      assignmentRest r c start left allowsResult

def commaRule (r : Rules) (c : Context) : Parser Expr := do
  let start ← start
  let c := { c with decorates := false }
  let first ← r.value c
  let more ← collectWhile r.bound (at? ",") (do advance; r.value c)
  if more.isEmpty then return first else return .other (← spanFrom start) (first :: more)

end Grammar

end DesignLink.Script
