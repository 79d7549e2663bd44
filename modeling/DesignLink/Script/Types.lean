import DesignLink.Script.Bindings

/-!
Types. They are read only to know where they end; the expressions in them are kept.
-/

namespace DesignLink.Script.Grammar

open DesignLink.Script.Parser

def typeArguments (r : Rules) (c : Context) : Parser (List Expr) := do
  splitAngle
  expect "<"
  let parts ← separated r.bound "," (r.type c)
  expect ">"
  return parts.flatten

/-- Types in angles on the same line, if there are some. -/
def optionalTypeArguments (r : Rules) (c : Context) : Parser (List Expr) := do
  if (← atAny ["<", "<<"]) && !(← onNewLine) then typeArguments r c else return []

def typeParameter (r : Rules) (c : Context) : Parser (List Expr) := do
  let _ ← collectWhile r.bound
    (do
      if ← atAny ["const", "in", "out"] then
        wouldRead do
          advance
          require (← atWord)
          require !(← at? "extends")
      else return false)
    advance
  let _ ← name c
  let bounds ← if ← eat "extends" then r.type c else pure []
  let default ← if ← eat "=" then r.type c else pure []
  return bounds ++ default

def typeParameters (r : Rules) (c : Context) : Parser (List Expr) := do
  if ← eat "<" then
    let parts ← listUntil r.bound ">" (typeParameter r c)
    require !parts.isEmpty
    expect ">"
    return parts.flatten
  else return []

def guardedName (c : Context) : Parser Unit := do
  if ← eat "this" then return ()
  else
    let _ ← name c
    return ()

def resultType (r : Rules) (c : Context) : Parser (List Expr) := do
  let asserts ← wouldRead do
    expect "asserts"
    require !(← onNewLine)
    guardedName c
  let guards ← wouldRead do
    guardedName c
    require !(← onNewLine)
    expect "is"
  if asserts && !guards then
    advance
    guardedName c
    if ← eat "is" then r.type c else return []
  else if guards then
    guardedName c
    advance
    r.type c
  else r.type c

def resultAnnotation (r : Rules) (c : Context) : Parser (List Expr) := do
  if ← eat ":" then resultType r c else return []

def qualifiedName (r : Rules) (c : Context) : Parser Unit := do
  let _ ← name c
  let _ ← collectWhile r.bound (at? ".") (do advance; anyWord)
  return ()

/-- Parameters and result of a signature. -/
def signature (r : Rules) (c : Context) : Parser (List Expr) := do
  let types ← typeParameters r c
  let parameters ← parameters r c (pure [])
  return types ++ parameters.flatten ++ (← resultAnnotation r c)

def atIndexSignature (c : Context) : Parser Bool :=
  wouldRead do
    expect "["
    let _ ← name c
    expect ":"

def indexSignature (r : Rules) (c : Context) : Parser (List Expr) := do
  expect "["
  let _ ← name c
  expect ":"
  let key ← r.type c
  expect "]"
  return key ++ (← annotation r c)

def endTypeMember : Parser Unit := do
  if ← eat "," then return () else endStatement

def typeMember (r : Rules) (c : Context) : Parser (List Expr) := do
  let isCall ← atAny ["(", "<"]
  let isConstruct ← wouldRead do
    expect "new"
    require (← atAny ["(", "<"])
  let parts ←
    if isCall then signature r c
    else if isConstruct then do
      advance
      signature r c
    else do
      let _ ← eatModifier "readonly" true
      if ← atIndexSignature c then indexSignature r c
      else
        let isGetter ← eatModifier "get" false
        let isSetter ← if isGetter then pure false else eatModifier "set" false
        let (key, _) ← memberKey r c
        eatOptional
        let rest ←
          if isGetter || isSetter || (← atAny ["(", "<"]) then signature r c
          else annotation r c
        pure (key.parts ++ rest)
  endTypeMember
  return parts

def typeMembers (r : Rules) (c : Context) : Parser (List Expr) := do
  expect "\x7b"
  let parts ← collectWhile r.bound (do return !(← at? "\x7d")) (typeMember r c)
  expect "\x7d"
  return parts.flatten

def eatSign : Parser Bool := do
  if ← eat "+" then return true else eat "-"

def mappedHead (c : Context) : Parser Unit := do
  expect "\x7b"
  let signed ← eatSign
  let isReadonly ← eat "readonly"
  require (!signed || isReadonly)
  expect "["
  let _ ← name c
  expect "in"

def mappedType (r : Rules) (c : Context) : Parser (List Expr) := do
  mappedHead c
  let keys ← r.type c
  let names ← if ← eat "as" then r.type c else pure []
  expect "]"
  if ← eatSign then expect "?" else eatOptional
  let values ← annotation r c
  let _ ← eat ";"
  expect "\x7d"
  return keys ++ names ++ values

def tupleItem (r : Rules) (c : Context) : Parser (List Expr) := do
  let isRest ← eat "..."
  let isNamed ← wouldRead do
    let _ ← anyWord
    eatOptional
    expect ":"
  if isNamed then
    let _ ← anyWord
    let isOptional ← eat "?"
    require !(isRest && isOptional)
    expect ":"
    r.type c
  else
    let parts ← r.type c
    let isOptional ← eat "?"
    require !(isRest && isOptional)
    return parts

/-- The pieces of a template from its first token on, given the parser of what stands between. -/
def templateParts (r : Rules) (isTagged : Bool) (part : Parser (List Expr)) :
    Parser (List Expr) :=
  iterate (fun found => do
    match ← token with
    | .template isLast isPlain =>
      require (isTagged || isPlain)
      advance
      if isLast then return .inr found
      else
        let next ← part
        require (← at? "\x7d")
        let l ← lexeme
        match Token.scanTemplate (l.rest.length + 1) l.after with
        | none => fail
        | some (isLast, isPlain, place) =>
          moveTo l.stop { l with
            token := .template isLast isPlain
            stop := place.offset
            rest := place.rest }
          return .inl (found ++ next)
    | _ => fail) r.bound []

/-- A type named by the module that holds it. -/
def importType (r : Rules) (c : Context) : Parser (List Expr) := do
  expect "import"
  expect "("
  let parts ← r.type c
  let options ←
    if ← eat "," then
      if ← at? ")" then pure []
      else do
        let options ← r.value c.withIn
        let _ ← eat ","
        pure [options]
    else pure []
  expect ")"
  let _ ← collectWhile r.bound (at? ".") (do advance; anyWord)
  return parts ++ options ++ (← optionalTypeArguments r c)

def typeQuery (r : Rules) (c : Context) : Parser (List Expr) := do
  expect "typeof"
  if ← at? "import" then importType r c
  else
    if ← eat "this" then pure ()
    else
      let _ ← name c
      pure ()
    let _ ← collectWhile r.bound (at? ".") (do
      advance
      match ← token with
      | .privateName => advance
      | _ =>
        let _ ← anyWord
        pure ())
    optionalTypeArguments r c

def simpleType (r : Rules) (c : Context) : Parser (List Expr) := do
  match ← token with
  | .string _ | .number _ | .bigNumber =>
    advance
    return []
  | .template _ _ => templateParts r false (r.type { c with allowsConditional := true })
  | .mark "-" =>
    advance
    match ← token with
    | .number _ | .bigNumber =>
      advance
      return []
    | _ => fail
  | .mark "\x7b" =>
    if ← wouldRead (mappedHead c) then mappedType r { c with allowsConditional := true }
    else typeMembers r { c with allowsConditional := true }
  | .mark "[" =>
    advance
    let parts ← listUntil r.bound "]" (tupleItem r { c with allowsConditional := true })
    expect "]"
    return parts.flatten
  | .mark "(" =>
    advance
    let parts ← r.type { c with allowsConditional := true }
    expect ")"
    return parts
  | .word "import" false => importType r c
  | .word "typeof" false => typeQuery r c
  | .word text false =>
    if ["true", "false", "null", "void", "this", "const"].contains text then
      advance
      return []
    else
      qualifiedName r c
      optionalTypeArguments r c
  | _ =>
    qualifiedName r c
    optionalTypeArguments r c

def postfixType (r : Rules) (c : Context) : Parser (List Expr) := do
  let first ← simpleType r c
  let more ← collectWhile r.bound (do return !(← onNewLine) && (← at? "[")) (do
    advance
    let index ← if ← at? "]" then pure [] else r.type { c with allowsConditional := true }
    expect "]"
    return index)
  return first ++ more.flatten

/-- A type to be found, with a bound that is no condition. -/
def inferredType (r : Rules) (c : Context) : Parser (List Expr) := do
  expect "infer"
  let _ ← name c
  let bounds ← attempt do
    expect "extends"
    let bounds ← r.type { c with allowsConditional := false }
    require (!c.allowsConditional || !(← at? "?"))
    return bounds
  return bounds.getD []

def operatorType (r : Rules) (c : Context) : Parser (List Expr) := do
  let operators ← collectWhile r.bound
    (do
      if ← atAny ["keyof", "unique", "readonly"] then
        wouldRead do
          advance
          require !(← atAny [",", ";", ")", "]", "\x7d", ">", "=", "|", "&", ".", "?", ":"])
          require !((← token) == .finished)
      else return false)
    advance
  let _ := operators
  if ← wouldRead (do expect "infer"; let _ ← name c) then inferredType r c
  else postfixType r c

def intersectionType (r : Rules) (c : Context) : Parser (List Expr) := do
  let _ ← eat "&"
  return (← separated r.bound "&" (operatorType r c)).flatten

def unionType (r : Rules) (c : Context) : Parser (List Expr) := do
  let _ ← eat "|"
  return (← separated r.bound "|" (intersectionType r c)).flatten

def atParameters (r : Rules) (c : Context) : Parser Bool :=
  wouldRead do
    expect "("
    if ← atAny [")", "..."] then return ()
    else
      eatParameterModifiers r c
      if ← eat "this" then pure ()
      else
        let _ ← r.target c
        pure ()
      if ← atAny [":", ",", "?", "="] then return ()
      else
        expect ")"
        expect "=>"

def atFunctionType (r : Rules) (c : Context) : Parser Bool := do
  if ← atAny ["<", "new"] then return true
  else if ← at? "abstract" then wouldRead (do advance; expect "new")
  else atParameters r c

def functionType (r : Rules) (c : Context) : Parser (List Expr) := do
  let _ ← eat "abstract"
  let _ ← eat "new"
  let types ← typeParameters r c
  let parameters ← parameters r c (pure [])
  expect "=>"
  return types ++ parameters.flatten ++ (← resultType r c)

def typeRule (r : Rules) (c : Context) : Parser (List Expr) := do
  let c := { c with allowsIn := true }
  if ← atFunctionType r c then functionType r c
  else
    let checked ← unionType r c
    if c.allowsConditional && !(← onNewLine) && (← at? "extends") then
      advance
      let bounds ← r.type { c with allowsConditional := false }
      expect "?"
      let yes ← r.type c
      expect ":"
      let no ← r.type c
      return checked ++ bounds ++ yes ++ no
    else return checked

end DesignLink.Script.Grammar
