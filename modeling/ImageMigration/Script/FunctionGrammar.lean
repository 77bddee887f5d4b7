/-
The grammar of functions.

* `readStatements`, `readBody`: statements in braces;
* `readFunction`: what follows the keyword and the name;
* `readArrowFunction?`: functions with an arrow. Parentheses may open their parameters or an
  expression; a look at the first tokens decides, and where it does not, the parameters are tried.
-/
import ImageMigration.Script.TypeGrammar

namespace ImageMigration.Script

/-! ### Bodies -/

/-- Statements up to a closing brace. -/
def readStatements (g : Grammar) : Reader Unit := do
  repeatWhile do
    if (← at_ "\x7d") || (← token).kind == .ending then return false
    let _ ← g (.statement false)
    return true
  expect "\x7d"

/-- Statements in braces. -/
def readBlock (g : Grammar) : Reader Unit := do
  expect "\x7b"
  readStatements g

/-- The mode of a function body. -/
def bodyMode (isAsync isGenerator : Bool) (m : Mode) : Mode :=
  { m with
    inAsync := isAsync, inGenerator := isGenerator, inFunction := true, allowsIn := true,
    inDecorator := false }

/-- The body of a function. -/
def readBody (g : Grammar) (isAsync isGenerator : Bool) : Reader Unit :=
  inMode (bodyMode isAsync isGenerator) (readBlock g)

/-- The parameters of a function that has a body. -/
def readOwnParameters (g : Grammar) (isAsync isGenerator : Bool) : Reader Arity :=
  inMode (fun m => { m with inAsync := isAsync, inGenerator := isGenerator, allowsIn := true })
    (readParameters g)

/-- A function behind its name. Where types are part of the language, a declaration may lack its
body. The answer tells whether it has one. -/
def readFunction (g : Grammar) (isAsync isGenerator mayLackBody : Bool) : Reader Bool := do
  readTypeParameters g
  let _ ← readOwnParameters g isAsync isGenerator
  readReturnAnnotation g
  if ← at_ "\x7b" then
    readBody g isAsync isGenerator
    return true
  else
    unless mayLackBody && (← hasTypes) do fail
    semicolon
    return false

/-- A function expression, from the word `async` or `function` on. -/
def readFunctionExpression (g : Grammar) : Reader Unit := do
  let isAsync ← eatWord "async"
  expectWord "function"
  let isGenerator ← eat "*"
  unless (← token).startsSignature do
    let _ ← inMode (fun m => { m with inAsync := isAsync, inGenerator := isGenerator })
      readBindingName
  let _ ← readFunction g isAsync isGenerator false

/-- Whether `async function` stands here. -/
def startsAsyncFunction : Reader Bool := do
  if ← atWord "async" then
    let next ← peek
    return next.isWord "function" && !next.afterNewline
  else return false

/-! ### Methods -/

/-- A method behind its key. A getter has no parameter, a setter exactly one. -/
def readMethod (g : Grammar) (accessor : Option String) (isAsync isGenerator mayLackBody : Bool) :
    Reader Unit := do
  readTypeParameters g
  let arity ← readOwnParameters g isAsync isGenerator
  match accessor with
  | some "get" => flawIf (arity.count != 0)
  | some _ => flawIf (arity.count != 1 || arity.hasRest)
  | none => pure ()
  readReturnAnnotation g
  if ← at_ "\x7b" then readBody g isAsync isGenerator
  else
    unless mayLackBody && (← hasTypes) do fail
    semicolon

/-! ### Functions with an arrow -/

/-- What a look at the first tokens says about a function with an arrow. -/
inductive Verdict where
  | yes
  | no
  | perhaps
  deriving DecidableEq

/-- What the tokens behind an opening parenthesis say. -/
def judgeParameters : Reader Verdict := do
  advance
  let t ← token
  if t.isMark ")" then
    advance
    if (← at_ ":") && (← hasTypes) then return .perhaps
    return if (← token).isMarkOf ["=>", "\x7b"] then .yes else .no
  if t.isMarkOf ["[", "\x7b"] then return .perhaps
  if t.isMark "..." then return .yes
  if t.isWordOf modifierWords && !t.isWord "async" && (← peek).isName then
    return if (← peek).isWord "as" then .no else .yes
  if t.isMark "@" then return .yes
  unless t.isSubject do return .no
  advance
  let next ← token
  if next.isMark ":" then return .yes
  if next.isMark "?" then
    advance
    return if (← token).isMarkOf [":", ",", "=", ")"] then .yes else .no
  return if next.isMarkOf [",", "=", ")"] then .perhaps else .no

/-- What the tokens behind an opening angle say. -/
def judgeTypeParameters : Reader Verdict := do
  advance
  unless (← token).isName || (← atWord "const") do return .no
  if (← language).tags then
    let isConst ← eatWord "const"
    advance
    if ← atWord "extends" then
      advance
      return if (← token).isMarkOf ["=", ">", "/"] then .no else .yes
    return if isConst || (← token).isMarkOf [",", "="] then .yes else .no
  else return .perhaps

/-- What the tokens here say about a function with an arrow. -/
def judgeArrow : Reader Verdict := do
  let t ← token
  unless t.isMarkOf ["(", "<"] || t.isWord "async" do return .no
  let before ← get
  let verdict ← try
      if ← eatWord "async" then
        if (← token).afterNewline then pure .no
        else if ← at_ "(" then judgeParameters
        else if (← hasTypes) && (← at_ "<") then judgeTypeParameters
        else pure .no
      else if ← at_ "(" then judgeParameters
      else if ← hasTypes then judgeTypeParameters
      else pure .no
    catch _ => pure .no
  set before
  return verdict

/-- The head of a function with an arrow: parameters in parentheses, what is returned, the arrow.
The answer tells whether it is asynchronous and whether it states what it returns. -/
def readArrowHead (g : Grammar) : Reader (Bool × Bool) := do
  let isAsync ← eatWord "async"
  let typed ←
    inMode (fun m => { m with inAsync := m.inAsync || isAsync, allowsIn := true }) do
      readTypeParameters g
      flawIf ((← at_ "(") && (← peek).isWord "this")
      let _ ← readParameters g
      let typed := (← hasTypes) && (← at_ ":")
      readReturnAnnotation g
      pure typed
  flawIf (← token).afterNewline
  expect "=>"
  return (isAsync, typed)

/-- What follows an arrow: statements in braces, or an expression. -/
def readArrowBody (g : Grammar) (isAsync mayReturnType : Bool) : Reader Unit := do
  if ← at_ "\x7b" then readBody g isAsync false
  else
    let _ ← inMode
      (fun m => { m with inAsync := isAsync, inGenerator := false, inDecorator := false })
      (g (.assignment mayReturnType))

/-- Tries a function with an arrow. Where a stated return type would take the colon of a
conditional expression, it has to leave another one. -/
def tryArrow (g : Grammar) (mayReturnType : Bool) : Reader Bool := do
  let start := (← token).start
  if (← get).notFunctions.contains start then return false
  let before ← get
  let giveUp : Reader Bool := do
    modify fun c => { before with notFunctions := start :: c.notFunctions }
    return false
  match ← attempt (readArrowHead g) with
  | none => giveUp
  | some (isAsync, typed) =>
    readArrowBody g isAsync mayReturnType
    if !mayReturnType && typed && !(← at_ ":") then giveUp else return true

/-- Moves over a function with parameters in parentheses and an arrow, if one stands here. -/
def readArrowFunction? (g : Grammar) (mayReturnType : Bool) : Reader Bool := do
  match ← judgeArrow with
  | .no => return false
  | .yes =>
    let (isAsync, _) ← readArrowHead g
    readArrowBody g isAsync true
    return true
  | .perhaps => tryArrow g mayReturnType

/-- Moves over a function with one plain parameter behind `async`, if one stands here. -/
def readAsyncArrow? (g : Grammar) (mayReturnType : Bool) : Reader Bool := do
  unless ← atWord "async" do return false
  let isArrow ← lookAhead do
    advance
    let t ← token
    unless t.isName && !t.afterNewline do return false
    advance
    return (← at_ "=>") && !(← token).afterNewline
  unless isArrow do return false
  advance
  let _ ← inMode (fun m => { m with inAsync := true }) readBindingName
  expect "=>"
  readArrowBody g true mayReturnType
  return true

end ImageMigration.Script
