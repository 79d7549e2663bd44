import DesignLink.Script.Literals

/-!
Classes and their members.
-/

namespace DesignLink.Script.Grammar

open DesignLink.Script.Parser

def memberModifiers : List String :=
  ["declare", "abstract", "readonly", "override", "public", "private", "protected", "accessor"]

def eatMemberModifiers (r : Rules) : Parser (List Unit) :=
  collectWhile r.bound
    (do
      if ← at? "static" then modifies false
      else if ← atAny memberModifiers then modifies true
      else return false)
    advance

def classMemberKey (r : Rules) (c : Context) : Parser (List Expr) := do
  match ← token with
  | .privateName =>
    advance
    return []
  | _ =>
    let (key, _) ← memberKey r c
    return key.parts

/-- A method, getter or setter, or a property. -/
def classMemberRest (r : Rules) (c : Context) : Parser (List Expr) := do
  let isGetter ← eatModifier "get" false
  let isSetter ← if isGetter then pure false else eatModifier "set" false
  let isAsync ← if isGetter || isSetter then pure false else eatModifier "async" true
  let isGenerator ← eat "*"
  let key ← classMemberKey r c
  if isGetter || isSetter then
    require !(← atRestParameter)
    let (parameters, parts) ← functionRest r c ⟨false, false, true⟩
    require (accessorFits isGetter parameters)
    return key ++ parts
  else
    let isOptional ← eat "?"
    if ← atAny ["(", "<"] then
      let (_, parts) ← functionRest r c ⟨isAsync, isGenerator, true⟩
      return key ++ parts
    else
      require !(isAsync || isGenerator)
      let isDefinite ← if isOptional then pure false else eat "!"
      let _ := isDefinite
      let types ← annotation r c
      let inner := { c with allowsIn := true, yields := false, awaits := false }
      let value ← initializer r inner
      endStatement
      return key ++ types ++ value

def classMember (r : Rules) (c : Context) : Parser (List Expr) := do
  if ← eat ";" then return []
  else if ← wouldRead (do expect "static"; expect "\x7b") then
    advance
    advance
    let body ← statementsUntilBrace r
      { c with allowsIn := true, yields := false, awaits := true, returns := false } .among
    expect "\x7d"
    return statementParts body
  else
    let decorators ← decorators r c
    let _ ← eatMemberModifiers r
    if ← atIndexSignature c then
      let parts ← indexSignature r c
      let _ ← eat ","
      endStatement
      return decorators ++ parts
    else return decorators ++ (← classMemberRest r c)

def heritage (r : Rules) (c : Context) : Parser (List Expr) := do
  let parent ←
    if ← eat "extends" then do
      let parent ← r.operand c
      let types ← optionalTypeArguments r c
      pure (parent :: types)
    else pure []
  let interfaces ←
    if ← eat "implements" then do
      let types ← separated r.bound "," do
        qualifiedName r c
        optionalTypeArguments r c
      pure types.flatten
    else pure []
  return parent ++ interfaces

/-- A class with its keyword; the flag says whether it must have a name. -/
def classParts (r : Rules) (c : Context) (needsName : Bool) : Parser (List Expr) := do
  expect "class"
  let c := { c with decorates := false }
  if (← atName c) && !(← wouldRead (do expect "implements"; require (← atWord))) then advance
  else require !needsName
  let types ← typeParameters r c
  let parents ← heritage r c
  expect "\x7b"
  let members ← collectWhile r.bound (do return !(← at? "\x7d")) (classMember r c)
  expect "\x7d"
  return types ++ parents ++ members.flatten

def classExpression (r : Rules) (c : Context) : Parser Expr := do
  let start ← start
  let decorators ← decorators r c
  let parts ← classParts r c false
  return .other (← spanFrom start) (decorators ++ parts)

end DesignLink.Script.Grammar
