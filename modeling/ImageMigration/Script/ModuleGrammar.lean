/-
The grammar of imports and exports.

* `readImport`: a module that is imported, as a whole or by names;
* `readExport`: what a module gives to others; outside a language with types no name is given twice.
-/
import ImageMigration.Script.DeclarationGrammar

namespace ImageMigration.Script

/-- Notes a name that the module exports. -/
def noteExport (name : String) : Reader Unit := do
  unless ← hasTypes do
    flawIf ((← get).exported.contains name)
    modify fun c => { c with exported := name :: c.exported }

/-- The name of a token: a word, or the value of a string. -/
def Token.exportName (t : Token) : String :=
  if t.kind == .string then String.ofList t.value else t.text

/-- An attribute of an import. The answer is its name. -/
def readAttribute : Reader String := do
  let name ← readExportName
  expect ":"
  readString
  return name.exportName

/-- The attributes of an import, behind `with` or, on the same line, `assert`. No name may come
twice. -/
def readAttributeClause : Reader Unit := do
  let t ← token
  if t.isWord "with" || (t.isWord "assert" && !t.afterNewline) then
    advance
    expect "\x7b"
    let (names, _) ← iterate ([], true) fun (names, more) => do
      if !more || (← at_ "\x7d") then return ((names, more), false)
      let name ← readAttribute
      return ((names ++ [name], ← eat ","), true)
    expect "\x7d"
    flawIf !(decide names.Nodup)

/-- The module that names come from, its attributes, and the end of the statement. -/
def readSource : Reader Unit := do
  readString
  readAttributeClause
  semicolon

/-! ### Lists of names -/

/-- The names of an item between commas: `a`, `a as b`, `type a`, `type a as b`. -/
def readItemNames : Reader (List Token) :=
  iterate [] fun names => do
    let t ← token
    if t.isMarkOf [",", "\x7d"] || 4 ≤ names.length then return (names, false)
    return (names ++ [← readExportName], true)

/-- The parts of an item: whether it is marked as a type, its name, and the name behind `as`. -/
def itemParts? (types : Bool) (names : List Token) : Option (Bool × Token × Option Token) :=
  let isAs (t : Token) : Bool := t.isWord "as"
  match names with
  | [a] => some (false, a, none)
  | [a, b] => if types && a.isWord "type" then some (true, b, none) else none
  | [a, b, c] =>
    if types && a.isWord "type" && isAs b && isAs c then some (false, a, some c)
    else if isAs b then some (false, a, some c)
    else none
  | [a, b, c, d] => if types && a.isWord "type" && isAs c then some (true, b, some d) else none
  | _ => none

/-- An item of a list: its name and the name behind `as`. In a list of types it has no mark. -/
def readItem (isType : Bool) : Reader (Token × Option Token) := do
  match itemParts? (← hasTypes) (← readItemNames) with
  | none => fail
  | some (isMarked, name, rename) =>
    flawIf (isType && isMarked)
    return (name, rename)

/-! ### Imports -/

/-- The items of a list of imports. What each is called here has to be a name. -/
def readImportItems (isType : Bool) : Reader Unit := do
  expect "\x7b"
  let _ ← readList "\x7d" do
    let (name, rename) ← readItem isType
    unless (rename.getD name).isName do fail

/-- Everything of a module under one name. -/
def readStarImport : Reader Unit := do
  expect "*"
  expectWord "as"
  let _ ← readBindingName

/-- The names of an import up to `from`. -/
def readImportClause (isType : Bool) : Reader Unit := do
  let isStarOrList := (← token).isMarkOf ["*", "\x7b"]
  let more ← if isStarOrList then pure true else do
    let _ ← readBindingName
    eat ","
  if more then
    if ← at_ "*" then readStarImport else readImportItems isType

/-- What a name in a name space stands for, or another module as a whole. -/
def readImportEquals : Reader Unit := do
  let _ ← readBindingName
  expect "="
  if (← atWord "require") && (← peek).isMark "(" then
    advance
    advance
    readString
    expect ")"
  else readTypeName
  semicolon

/-- Whether the word here marks an import and names nothing. -/
def isImportMark (word : String) : Reader Bool := do
  if ← atWord word then
    lookAhead do
      advance
      let t ← token
      if t.isWord "from" then
        -- `from` is the name if another `from` follows
        return (← peek).isWord "from" || (word == "type" && (← peek).isMark "=")
      else return t.isName || t.isMarkOf ["\x7b", "*"]
  else return false

/-- Whether the word here marks the phase of an import. -/
def isPhaseMark : Reader Bool := do return (← isImportMark "defer") || (← isImportMark "source")

/-- An import, from the keyword on. -/
def readImport : Reader Unit := do
  expectWord "import"
  if (← token).kind == .string then readSource
  else
    let isType ← if ← hasTypes then isImportMark "type" else pure false
    let isPhase ← if isType then pure false else isPhaseMark
    if isType || isPhase then advance
    if (← hasTypes) && !isPhase && (← token).isName && (← peek).isMark "=" then readImportEquals
    else
      readImportClause isType
      expectWord "from"
      readSource

/-! ### Exports -/

/-- An item of a list of exports: its name here and its name for others. A string without another
name is both, and counts as two literals. -/
def readExportItem (isType : Bool) : Reader (Token × Token) := do
  let (name, rename) ← readItem isType
  if name.kind == .string && rename.isNone then
    modify fun c => { c with literals := c.literals.take 1 ++ c.literals }
  return (name, rename.getD name)

/-- A list of names, of this module or of another one. A name of this module is no string. -/
def readExportList (isType : Bool) : Reader Unit := do
  expect "\x7b"
  let (items, _) ← iterate ([], true) fun (items, more) => do
    if !more || (← at_ "\x7d") then return ((items, more), false)
    let item ← readExportItem isType
    return ((items ++ [item], ← eat ","), true)
  expect "\x7d"
  items.forM fun item => noteExport item.2.exportName
  if ← eatWord "from" then readSource
  else
    flawIf !(items.all fun item => item.1.isName)
    semicolon

/-- Everything of another module. -/
def readExportAll : Reader Unit := do
  expect "*"
  if ← eatWord "as" then
    let name ← readExportName
    noteExport name.exportName
  expectWord "from"
  readSource

/-- What a module exports without a name. -/
def readExportDefault (g : Grammar) : Reader Unit := do
  expectWord "default"
  noteExport "default"
  let t ← token
  let next ← peek
  if t.isWord "function" || (← startsAsyncFunction) then
    let _ ← readFunctionDeclaration g false
  else if t.isWord "class" || t.isMark "@" then
    let _ ← readClassDeclaration g false
  else if (← hasTypes) && t.isWord "abstract" && next.isWord "class" && !next.afterNewline then
    let _ ← readClassDeclaration g false
  else if (← hasTypes) && t.isWord "interface" && next.isName && !next.afterNewline then readInterface g
  else
    let _ ← inMode (fun m => { m with inDecorator := false, allowsIn := true })
      (g (.assignment true))
    semicolon

/-- A declaration whose names are exported. -/
def readExportedDeclaration (g : Grammar) : Reader Unit := do
  let t ← token
  let names ←
    if ← startsTypedDeclaration then readTypedDeclaration g
    else if t.isWord "class" || t.isMark "@" then do
      pure (← readClassDeclaration g true).toList
    else if t.isWord "function" || (← startsAsyncFunction) then do
      pure (← readFunctionDeclaration g true).1.toList
    else if t.isWordOf ["var", "const"] || (← startsLet) then readVariables g
    else if (← hasTypes) && t.isWord "abstract" then do
      pure (← readClassDeclaration g true).toList
    else fail
  names.forM noteExport

/-- An export, from the keyword on. -/
def readExport (g : Grammar) : Reader Unit := do
  expectWord "export"
  let t ← token
  let next ← peek
  let types ← hasTypes
  if t.isWord "default" then readExportDefault g
  else if t.isMark "*" then readExportAll
  else if t.isMark "\x7b" then readExportList false
  else if types && t.isMark "=" then
    advance
    let _ ← g.expression
    semicolon
  else if types && t.isWord "as" && next.isWord "namespace" then
    advance
    advance
    let _ ← readBindingName
    semicolon
  else if types && t.isWord "import" then
    advance
    if (← atWord "type") && (← peek).isName then advance
    readImportEquals
  else if types && t.isWord "type" && next.isMark "*" then
    advance
    readExportAll
  else if types && t.isWord "type" && next.isMark "\x7b" then
    advance
    readExportList true
  else readExportedDeclaration g

end ImageMigration.Script
