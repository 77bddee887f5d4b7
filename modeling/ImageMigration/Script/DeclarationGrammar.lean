/-
The grammar of declarations.

* `readVariables`: variables with their values;
* `readFunctionDeclaration`, `readClassDeclaration`;
* `startsTypedDeclaration`, `readTypedDeclaration`: what only a language with types declares:
  interfaces, names for types, enumerations, name spaces, and declarations of what exists elsewhere.
-/
import ImageMigration.Script.ExpressionGrammar

namespace ImageMigration.Script

/-! ### Variables -/

/-- One variable: a pattern and its value. The answer is the names it binds, and whether it lacks a
value that its form demands. -/
def readVariable (g : Grammar) (isConstant : Bool) : Reader (List String × Bool) := do
  let isName := (← token).kind == .word
  let shape ← g .binding
  if ← hasTypes then
    if isName && (← at_ "!") && !(← token).afterNewline then advance
    readAnnotation g
  if ← eat "=" then
    let _ ← inMode (fun m => { m with inDecorator := false }) (g (.assignment true))
    return (shape.bound, false)
  else return (shape.bound, isConstant || !isName)

/-- Variables behind their keyword. The answer is their names, and whether one lacks a value that
its form demands. -/
def readVariableList (g : Grammar) (isConstant : Bool) : Reader (List String × Bool) := do
  let (names, lacking, _) ← iterate ([], false, true) fun (names, lacking, more) => do
    if !more then return ((names, lacking, more), false)
    let (bound, lacks) ← readVariable g isConstant
    let more ← eat ","
    return ((names ++ bound, lacking || lacks, more), true)
  return (names, lacking)

/-- Variables as a statement, from their keyword on. -/
def readVariables (g : Grammar) : Reader (List String) := do
  let isConstant := (← token).isWordOf ["const", "using"]
  advance
  let (names, lacks) ← inMode (fun m => { m with allowsIn := true }) (readVariableList g isConstant)
  flawIf (lacks && !(← read).isAmbient)
  semicolon
  return names

/-- Whether `let` introduces variables here. -/
def startsLet : Reader Bool := do
  if ← atWord "let" then
    let next ← peek
    return next.isMarkOf ["[", "\x7b"] || (next.isName && !next.isWordOf ["in", "instanceof"]) ||
      next.isWordOf ["yield", "await", "let"]
  else return false

/-- Whether `using` introduces variables here. -/
def startsUsing : Reader Bool := do
  if ← atWord "using" then
    let next ← peek
    return next.isName && !next.afterNewline && !next.isWord "of"
  else return false

/-- Whether `await using` introduces variables here. -/
def startsAwaitUsing : Reader Bool := do
  if ← atWord "await" then
    lookAhead do
      advance
      unless (← atWord "using") && !(← token).afterNewline do return false
      startsUsing
  else return false

/-! ### Functions and classes -/

/-- A function as a declaration, from the word `async` or `function` on. The answer is its name, and
whether it has a body. -/
def readFunctionDeclaration (g : Grammar) (needsName : Bool) : Reader (Option String × Bool) := do
  let isAsync ← eatWord "async"
  expectWord "function"
  let isGenerator ← eat "*"
  let name ←
    if (← token).startsSignature && !needsName then pure none
    else pure (some (← readBindingName))
  let hasBody ← readFunction g isAsync isGenerator true
  return (name, hasBody)

/-- A class as a declaration, from its decorators or the keyword on. -/
def readClassDeclaration (g : Grammar) (needsName : Bool) : Reader (Option String) := do
  let _ ← readDecorators g
  if ← hasTypes then
    let _ ← eatWord "abstract"
  expectWord "class"
  readClass g needsName

/-! ### Declarations of types -/

/-- Whether a declaration that needs types starts here. Modifiers may stand in front of it on the
same line. -/
def startsTypedDeclaration : Reader Bool := do
  unless ← hasTypes do return false
  lookAhead do
    let (found, _) ← iterate (false, true) fun (_, _) => do
      let t ← token
      let next ← peek
      if t.isWordOf ["var", "let", "const", "function", "class", "enum"] then
        return ((true, false), false)
      else if t.isWordOf ["interface", "type"] then
        return ((next.isName && !next.afterNewline, false), false)
      else if t.isWordOf ["module", "namespace"] then
        return (((next.isName || next.kind == .string) && !next.afterNewline, false), false)
      else if t.isWord "global" then
        return ((next.isMark "\x7b" || next.isName || next.isWord "export", false), false)
      else if t.isWord "import" then
        return ((next.kind == .string || next.isMarkOf ["*", "\x7b"] || next.kind == .word, false),
          false)
      else if t.isWordOf ["abstract", "accessor", "async", "declare", "private", "protected", "public",
          "readonly"] then
        if next.afterNewline then return ((false, false), false)
        advance
        return ((false, true), true)
      else if t.isWord "static" then
        advance
        return ((false, true), true)
      else return ((false, false), false)
    return found

/-- A member of an enumeration. -/
def readEnumMember (g : Grammar) : Reader Unit := do
  let t ← token
  match t.kind with
  | .word => advance
  | .string => readString
  | _ =>
    expect "["
    let inner ← token
    match inner.kind with
    | .string => readString
    | .template =>
      noteTemplate false do
        let _ ← g.expression
    | _ => fail
    expect "]"
  if ← eat "=" then
    let _ ← g.assignment

/-- An enumeration, from the keyword on. -/
def readEnum (g : Grammar) : Reader Unit := do
  expectWord "enum"
  let _ ← readBindingName
  expect "\x7b"
  let _ ← readList "\x7d" (readEnumMember g)

/-- An interface, from the keyword on. -/
def readInterface (g : Grammar) : Reader Unit := do
  expectWord "interface"
  let _ ← readBindingName
  readTypeParameters g
  if ← eatWord "extends" then readTypeReferences g
  flawIf (← atWord "implements")
  readTypeMembers g

/-- A name for a type, from the keyword on. -/
def readTypeAlias (g : Grammar) : Reader Unit := do
  expectWord "type"
  let _ ← readBindingName
  readTypeParameters g
  expect "="
  if (← atWord "intrinsic") && !((← peek).isMark ".") then advance else g.type
  semicolon

/-- The statements of a name space, in braces. -/
def readNamespaceBody (g : Grammar) : Reader Unit :=
  inMode (fun m => { m with inFunction := false, inGenerator := false }) (readBlock g)

/-- A name space or a module, from the keyword on. -/
def readNamespace (g : Grammar) : Reader Unit := do
  if ← eatWord "global" then readNamespaceBody g
  else
    let isModule ← eatWord "module"
    unless isModule do expectWord "namespace"
    if isModule && (← token).kind == .string then
      readString
      if ← at_ "\x7b" then readNamespaceBody g else semicolon
    else
      let _ ← readBindingName
      repeatWhile do
        if ← eat "." then
          let _ ← readMemberName
          return true
        else return false
      readNamespaceBody g

/-- A declaration that may need types, behind its modifiers. The answer is the names declared. -/
def readBareDeclaration (g : Grammar) (isDeclared : Bool) : Reader (List String) := do
  let t ← token
  let next ← peek
  if t.isWord "enum" then
    readEnum g
    return []
  else if t.isWord "const" && next.isWord "enum" then
    advance
    readEnum g
    return []
  else if t.isWord "interface" then
    readInterface g
    return []
  else if t.isWord "type" then
    readTypeAlias g
    return []
  else if t.isWordOf ["global", "module", "namespace"] then
    readNamespace g
    return []
  else if t.isWord "class" || t.isMark "@" then return (← readClassDeclaration g true).toList
  else if t.isWord "function" || (← startsAsyncFunction) then
    flawIf (isDeclared && (← atWord "async"))
    let (name, hasBody) ← readFunctionDeclaration g true
    flawIf (isDeclared && hasBody)
    return name.toList
  else if t.isWordOf ["var", "let", "const"] then readVariables g
  else fail

/-- A declaration with modifiers, in a language with types. -/
def readTypedDeclaration (g : Grammar) : Reader (List String) := do
  let modifiers ← iterate [] fun found => do
    let t ← token
    if t.isWordOf ["abstract", "declare", "private", "protected", "public", "readonly", "static",
        "accessor"] && !(← peek).afterNewline then
      advance
      return (found ++ [t.text], true)
    else return (found, false)
  let isDeclared := modifiers.contains "declare"
  flawIf (modifiers.any fun w => w != "declare" && w != "abstract")
  flawIf !(decide modifiers.Nodup)
  flawIf (modifiers.contains "abstract" && !(← atWord "class"))
  inMode (fun m => { m with isAmbient := m.isAmbient || isDeclared })
    (readBareDeclaration g isDeclared)

end ImageMigration.Script
