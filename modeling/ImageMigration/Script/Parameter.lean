/-
Patterns that bind names, decorators, and the parameters of functions.

* `readBinding`: a name, or a pattern in brackets or braces;
* `readPropertyKey`: the key of a property;
* `readDecorators`: what stands behind `@`;
* `readModifiers`: the words in front of a member or parameter;
* `readParameters`: a list of parameters.
-/
import ImageMigration.Script.Name

namespace ImageMigration.Script

/-! ### Keys -/

/-- Whether a token can be the key of a member. -/
def Token.isLiteralKey (t : Token) : Bool :=
  t.kind == .word || t.kind == .string || t.kind == .number || t.kind == .privateWord

/-- Whether a key can start with a token. -/
def Token.startsKey (t : Token) : Bool := t.isLiteralKey || t.isMark "["

/-- The key of a member. A literal key gives its text, a key in brackets gives none. -/
def readPropertyKey (g : Grammar) : Reader (Option String) := do
  let t ← token
  match t.kind with
  | .word =>
    advance
    return some t.text
  | .string =>
    readString
    return some (String.ofList t.value)
  | .number =>
    advance
    return none
  | .privateWord =>
    advance
    return some ("#" ++ t.text)
  | _ =>
    expect "["
    let _ ← g.assignment
    expect "]"
    return none

/-! ### Patterns -/

/-- A pattern and the default behind it. -/
def readBindingItem (g : Grammar) : Reader (List String) := do
  let shape ← g .binding
  if ← eat "=" then
    let _ ← g.assignment
  return shape.bound

/-- The items of a pattern up to its closing mark. A rest item is the last one, without a comma. -/
def readBindingItems (closing : String) (item : Reader (List String)) (g : Grammar)
    (mayOmit : Bool) : Reader (List String) := do
  let names ← iterate [] fun names => do
    if ← at_ closing then return (names, false)
    if mayOmit && (← at_ ",") then
      advance
      return (names, true)
    let more ←
      if ← eat "..." then do
        let shape ← g .binding
        unless ← at_ closing do fail
        pure shape.bound
      else item
    unless ← at_ closing do expect ","
    return (names ++ more, true)
  expect closing
  return names

/-- A property of a pattern in braces. -/
def readBindingProperty (g : Grammar) : Reader (List String) := do
  let t ← token
  if t.kind == .word && !((← peek).isMark ":") then
    let name ← readBindingName
    if ← eat "=" then
      let _ ← g.assignment
    return [name]
  else
    if t.kind == .privateWord then fail
    let _ ← readPropertyKey g
    expect ":"
    readBindingItem g

/-- A name, or a pattern. -/
def readBinding (g : Grammar) : Reader Shape := do
  if ← eat "[" then return .binding (← readBindingItems "]" (readBindingItem g) g true)
  else if ← eat "\x7b" then
    return .binding (← readBindingItems "\x7d" (readBindingProperty g) g false)
  else return .binding [← readBindingName]

/-- A type behind a colon, if types are part of the language. -/
def readAnnotation (g : Grammar) : Reader Unit := do
  if ← hasTypes then
    if ← eat ":" then g.type

/-! ### Decorators and modifiers -/

/-- The decorators that stand here. -/
def readDecorators (g : Grammar) : Reader Bool := do
  let any ← at_ "@"
  repeatWhile do
    if ← eat "@" then
      let _ ← inMode (fun m => { m with inDecorator := true }) (g .access)
      return true
    else return false
  return any

/-- The words that qualify a declaration, a member or a parameter. -/
def modifierWords : List String :=
  ["abstract", "accessor", "async", "const", "declare", "default", "export", "in", "out", "override",
   "private", "protected", "public", "readonly", "static"]

/-- Whether what is qualified can start with a token. -/
def Token.followsModifier (t : Token) : Bool :=
  t.isMarkOf ["[", "\x7b", "*", "..."] || t.isLiteralKey

/-- Whether the word here qualifies what follows on its line. -/
def isModifier (words : List String) : Reader Bool := do
  if (← token).isWordOf words then
    let next ← peek
    return !next.afterNewline && next.followsModifier
  else return false

/-- The modifiers that stand here, of the given ones. -/
def readModifiers (words : List String) : Reader (List String) := do
  iterate [] fun found => do
    if ← isModifier words then
      let t ← token
      advance
      return (found ++ [t.text], true)
    else return (found, false)

/-- The modifiers that may not stand in front of a given one. -/
def misplacedBefore (modifier : String) : List String :=
  match modifier with
  | "public" | "private" | "protected" =>
    ["public", "private", "protected", "override", "static", "accessor", "readonly", "async",
     "abstract"]
  | "override" => ["override", "readonly", "accessor", "async"]
  | "static" => ["static", "override", "accessor", "readonly", "async"]
  | word => [word]

/-- Whether modifiers stand in an order that is allowed, none of them twice. -/
def areOrdered : List String → Bool
  | [] => true
  | modifier :: rest =>
    rest.all (fun later => !(misplacedBefore later).contains modifier) && areOrdered rest

/-! ### Parameters -/

/-- How many parameters a function has, and whether the last one takes all the rest. -/
structure Arity where
  count : Nat
  hasRest : Bool

/-- One parameter. The answer tells whether it takes all the rest. -/
def readParameter (g : Grammar) : Reader Bool := do
  let _ ← readDecorators g
  let types ← hasTypes
  let rest ← eat "..."
  if rest then
    let _ ← g .binding
    if types then flawIf (← eat "?")
    readAnnotation g
    if ← at_ "=" then fail
  else
    let modifiers ← readModifiers ["private", "protected", "public", "readonly", "override"]
    flawIf (!types && !modifiers.isEmpty)
    flawIf !(areOrdered modifiers)
    let _ ← g .binding
    if types then
      let _ ← eat "?"
      readAnnotation g
    if ← eat "=" then
      let _ ← g.assignment
  return rest

/-- The parameter `this`, which only has a type. -/
def readThisParameter (g : Grammar) : Reader Unit := do
  if (← hasTypes) && (← atWord "this") then
    advance
    readAnnotation g
    unless ← at_ ")" do expect ","

/-- The parameters of a function, in parentheses. -/
def readParameters (g : Grammar) : Reader Arity := do
  expect "("
  readThisParameter g
  let arity ← iterate (⟨0, false⟩ : Arity) fun arity => do
    if ← at_ ")" then return (arity, false)
    if arity.hasRest then fail
    let rest ← readParameter g
    unless ← at_ ")" do
      if rest then flaw
      expect ","
    return (⟨arity.count + 1, rest⟩, true)
  expect ")"
  return arity

end ImageMigration.Script
