/-
Names of variables, of members and of exports.

* `readBindingName`: a name that is introduced; `readReferenceName`: a name that is used;
* `readMemberName`: any word;
* `readExportName`: a word or a string, as lists of imports and exports have them;
* `readTypeName`: a name with points.
-/
import ImageMigration.Script.Shape

namespace ImageMigration.Script

/-- The words that never name a variable. -/
def reservedWords : List String :=
  ["break", "case", "catch", "class", "const", "continue", "debugger", "default", "delete", "do",
   "else", "enum", "export", "extends", "false", "finally", "for", "function", "if", "import", "in",
   "instanceof", "new", "null", "return", "super", "switch", "this", "throw", "true", "try",
   "typeof", "var", "void", "while", "with"]

/-- Whether a token can name a variable. -/
def Token.isName (t : Token) : Bool := t.kind == .word && !reservedWords.contains t.text

/-- A name of a variable. The names that mean an operator here are flaws. -/
def readBindingName : Reader String := do
  let t ← token
  let mode ← read
  unless t.isName do fail
  flawIf (mode.inGenerator && t.isWord "yield")
  flawIf (mode.inAsync && t.isWord "await")
  advance
  return t.text

/-- A name that is used in an expression. -/
def readReferenceName : Reader String := readBindingName

/-- A word of any kind. -/
def readMemberName : Reader String := do
  let t ← token
  unless t.kind == .word do fail
  advance
  return t.text

/-- A name in a list of imports or exports: a word, or a string, which is noted. -/
def readExportName : Reader Token := do
  let t ← token
  match t.kind with
  | .word => advance
  | .string => readString
  | _ => fail
  return t

/-- A name with points behind it. -/
def readTypeName : Reader Unit := do
  let t ← token
  if t.isWord "this" then advance
  else
    unless t.isName do fail
    advance
  repeatWhile do
    if ← eat "." then
      let _ ← readMemberName
      return true
    else return false

/-- A list of items up to a closing mark, with commas between them and possibly at the end. The
answer tells whether there was a comma at the end, and how many items there were. -/
def readList (closing : String) (item : Reader Unit) : Reader (Bool × Nat) := do
  let (_, trailing, count) ← iterate (true, false, 0) fun (first, trailing, count) => do
    if ← at_ closing then return ((first, trailing, count), false)
    unless first || trailing do fail
    item
    let comma ← eat ","
    return ((false, comma, count + 1), true)
  expect closing
  return (trailing, count)

end ImageMigration.Script
