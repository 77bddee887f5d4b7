/-
The grammar of classes.

* `readClassMember`: a field, a method, an accessor, a block of statements or an index signature;
* `readClass`: a class behind the keyword.
-/
import ImageMigration.Script.FunctionGrammar

namespace ImageMigration.Script

/-- The modifiers of a member of a class. -/
def memberModifiers : List String :=
  ["abstract", "accessor", "async", "const", "declare", "export", "in", "out", "override", "private",
   "protected", "public", "readonly", "static"]

/-- The modifiers that need no types. -/
def plainModifiers : List String := ["static", "async", "accessor"]

/-- The modifiers in front of a member. The word `static` is none in front of a block, nor behind
another `static`. -/
def readMemberModifiers : Reader (List String) := do
  iterate [] fun found => do
    let t ← token
    let next ← peek
    let here ←
      if t.isWord "static" then
        -- `static` may be separated from its member by a line end
        pure (next.followsModifier && !next.isMark "\x7b" && !found.contains "static")
      else isModifier memberModifiers
    if here then
      advance
      return (found ++ [t.text], true)
    else return (found, false)

/-- The modifiers that no member of a class has. -/
def foreignModifiers : List String := ["const", "export", "in", "out"]

/-- What modifiers say about each other and about the kind of member behind them. -/
def checkModifiers (modifiers : List String) (isField : Bool) : Reader Unit := do
  flawIf !(areOrdered modifiers)
  flawIf (modifiers.any foreignModifiers.contains)
  flawIf (if isField then modifiers.contains "async"
    else modifiers.contains "readonly" || modifiers.contains "declare")

/-- A constructor has no parameters for types, and no parameter `this`. -/
def checkConstructor (modifiers : List String) (name : Option String) : Reader Unit := do
  if name == some "constructor" && !modifiers.contains "static" then
    flawIf ((← at_ "<") || ((← at_ "(") && (← peek).isWord "this"))

/-- The modifiers that say who has access. A private name says so itself. -/
def accessModifiers : List String := ["public", "private", "protected"]

/-- The key of a member of a class behind its modifiers. -/
def readMemberKey (g : Grammar) (modifiers : List String) : Reader (Option String) := do
  flawIf ((← token).kind == .privateWord && modifiers.any accessModifiers.contains)
  readPropertyKey g

/-- The value of a field. -/
def readFieldValue (g : Grammar) : Reader Unit := do
  if ← eat "=" then
    let _ ← inMode (fun m => { m with inAsync := false, inGenerator := false }) g.assignment

/-- What a key says about a class member that has it. -/
def checkMemberName (modifiers : List String) (name : Option String) (isField isSpecial : Bool) :
    Reader Unit := do
  let isStatic := modifiers.contains "static"
  flawIf (name == some "#constructor")
  flawIf (!isStatic && name == some "constructor" && (isField || isSpecial))
  flawIf (isStatic && name == some "prototype")
  flawIf (isStatic && isField && name == some "constructor")

/-- A member of a class. -/
def readClassMember (g : Grammar) : Reader Unit := do
  let _ ← readDecorators g
  let modifiers ← readMemberModifiers
  unless ← hasTypes do flawIf (modifiers.any fun w => !plainModifiers.contains w)
  if modifiers.isEmpty && (← atWord "static") && (← peek).isMark "\x7b" then
    advance
    inMode (fun m => { bodyMode true false m with inFunction := false }) (readBlock g)
  else
    let isAsync := modifiers.contains "async"
    if (← token).isWordOf ["get", "set"] && (← peek).startsKey then
      let accessor := (← token).text
      advance
      let name ← readMemberKey g modifiers
      checkModifiers modifiers false
      flawIf isAsync
      checkMemberName modifiers name false true
      readMethod g (some accessor) false false true
    else if (← hasTypes) && (← startsIndexSignature) then
      readIndexSignature g
      readMemberEnd
    else
      let isGenerator ← eat "*"
      let name ← readMemberKey g modifiers
      let isOptional ← if ← hasTypes then eat "?" else pure false
      if isGenerator || (← token).startsSignature then
        checkModifiers modifiers false
        checkMemberName modifiers name false (isGenerator || isAsync)
        checkConstructor modifiers name
        readMethod g none isAsync isGenerator true
      else
        checkModifiers modifiers true
        checkMemberName modifiers name true false
        if (← hasTypes) && !isOptional && (← at_ "!") && !(← token).afterNewline then advance
        readAnnotation g
        readFieldValue g
        semicolon

/-- The members of a class in braces. -/
def readClassBody (g : Grammar) : Reader Unit := do
  expect "\x7b"
  repeatWhile do
    if ← at_ "\x7d" then return false
    unless ← eat ";" do readClassMember g
    return true
  expect "\x7d"

/-- A list of types with commas between them. -/
def readTypeReferences (g : Grammar) : Reader Unit := do
  repeatWhile do
    readTypeReference g
    eat ","

/-- A class behind the keyword. A declaration needs a name; the answer is the name. -/
def readClass (g : Grammar) (needsName : Bool) : Reader (Option String) := do
  let t ← token
  let isHeritage := t.isWord "extends" || (t.isWord "implements" && (← peek).kind == .word)
  let name ← if t.isName && !isHeritage then pure (some (← readBindingName)) else pure none
  if needsName && name.isNone then fail
  readTypeParameters g
  if ← eatWord "extends" then
    let _ ← inMode (fun m => { m with inDecorator := false }) (g .access)
    readTypeArgumentsHere g
  if (← hasTypes) && (← atWord "implements") then
    advance
    readTypeReferences g
  readClassBody g
  return name

end ImageMigration.Script
