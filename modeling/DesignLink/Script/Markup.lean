import DesignLink.Script.Classes

/-!
Markup inside of code: elements with attributes and children, where a bare text is no code.
-/

namespace DesignLink.Script.Grammar

open DesignLink.Script.Parser

/-- Moves over a name of markup, which may hold hyphens. -/
def markupWord : Parser String := do
  let l ← lexeme
  match l.token with
  | .word _ false =>
    let text := l.here.takeWhile fun c => Text.isIdentifierPart c || c = '-'
    let place := l.place.after text (l.here.drop text.length)
    moveTo place.offset (.next place)
    return String.ofList text
  | _ => fail

/-- The name of an element: a word, two words with a colon between them, or words with points. -/
def markupName (r : Rules) : Parser (List String) := do
  let first ← markupWord
  if ← eat ":" then
    let second ← markupWord
    return [first, ":", second]
  else
    let rest ← collectWhile r.bound (at? ".") do
      advance
      markupWord
    require (rest.isEmpty || !first.toList.contains '-')
    return first :: rest

/-- The text of an attribute up to its closing quote. -/
def scanAttribute (quote : Char) (place : Place) : Option Place :=
  match place.rest with
  | q :: rest =>
    if q = quote then
      let text := rest.takeWhile (· ≠ quote)
      match rest.dropWhile (· ≠ quote) with
      | _ :: after => some ⟨place.offset + 2 + Text.byteSize text, after⟩
      | [] => none
    else none
  | [] => none

def attributeValue (r : Rules) (c : Context) : Parser (List Expr) := do
  let l ← lexeme
  require (plainText l.token == some "=")
  match Gap.skip .blank false l.stop l.rest with
  | none => fail
  | some (_, place) =>
    match scanAttribute '"' place <|> scanAttribute '\'' place with
    | some after =>
      moveTo after.offset (.next after)
      return []
    | none =>
      advance
      if ← eat "\x7b" then
        let value ← r.value c.withIn
        expect "\x7d"
        return [value]
      else return [← r.markup c false]

def markupAttribute (r : Rules) (c : Context) : Parser (List Expr) := do
  if ← eat "\x7b" then
    expect "..."
    let value ← r.value c.withIn
    expect "\x7d"
    return [value]
  else
    let _ ← markupWord
    if ← eat ":" then
      let _ ← markupWord
      pure ()
    if ← at? "=" then attributeValue r c else return []

/-- Goes on with the children of an element: a brace or an angle comes next, and bare text before
it holds no closing one. -/
def toNextChild : Parser Unit := do
  let l ← lexeme
  let text := l.rest.takeWhile fun c => c ≠ '\x7b' ∧ c ≠ '<'
  require !(text.contains '>' || text.contains '\x7d')
  let place := l.after.after text (l.rest.drop text.length)
  match place.rest with
  | '<' :: rest =>
    moveTo l.stop ⟨.mark "<", false, place.offset, place.rest, place.offset + 1, rest⟩
  | '\x7b' :: rest =>
    moveTo l.stop ⟨.mark "\x7b", false, place.offset, place.rest, place.offset + 1, rest⟩
  | _ => fail

/-- The end of a part of markup, which may stand inside an element. -/
def endMarkup (isInside : Bool) (close : String) : Parser Unit := do
  require (← at? close)
  if isInside then toNextChild else advance

/-- The end of an element whose children go on behind it, with the end of its own span. -/
def closeMarkup (isInside : Bool) : Parser Nat := do
  let l ← lexeme
  endMarkup isInside ">"
  return l.stop

def bracedChild (r : Rules) (c : Context) : Parser (List Expr) := do
  expect "\x7b"
  let isSpread ← eat "..."
  let isEmpty ← at? "\x7d"
  let value ← if isEmpty && !isSpread then pure [] else do pure [← r.value c.withIn]
  endMarkup true "\x7d"
  return value

/-- Whether the closing part of an element comes next. -/
def atClosing : Parser Bool :=
  wouldRead do
    expect "<"
    expect "/"

/-- The children of an element up to its closing part. -/
def children (r : Rules) (c : Context) : Parser (List Expr) :=
  iterate (fun found => do
    if ← at? "\x7b" then return .inl (found ++ (← bracedChild r c))
    else if ← atClosing then return .inr found
    else return .inl (found ++ [← r.markup c true])) r.bound []

def closingPart (isInside : Bool) (closingName : Parser Unit) : Parser Nat := do
  expect "<"
  expect "/"
  closingName
  closeMarkup isInside

def markupRule (r : Rules) (c : Context) (isInside : Bool) : Parser Expr := do
  let start ← start
  expect "<"
  if ← at? ">" then
    toNextChild
    let parts ← children r c
    let stop ← closingPart isInside (pure ())
    return .markup ⟨start, stop⟩ parts
  else
    let name ← markupName r
    let types ← if ← at? "<" then typeArguments r c else pure []
    let attributes ← collectWhile r.bound
      (do return !(← atAny ["/", ">"])) (markupAttribute r c)
    let parts := types ++ attributes.flatten
    if ← eat "/" then
      let stop ← closeMarkup isInside
      return .markup ⟨start, stop⟩ parts
    else
      require (← at? ">")
      toNextChild
      let inner ← children r c
      let stop ← closingPart isInside do
        require ((← markupName r) == name)
      return .markup ⟨start, stop⟩ (parts ++ inner)

end DesignLink.Script.Grammar
