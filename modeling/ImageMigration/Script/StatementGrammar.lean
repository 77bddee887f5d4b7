/-
The grammar of statements.

* `readStatement`: a statement; where only a single one may stand, declarations are flaws;
* `readLoopHead`: the head of a `for` loop in its three forms.
-/
import ImageMigration.Script.ModuleGrammar

namespace ImageMigration.Script

/-- An expression in parentheses. -/
def readCondition (g : Grammar) : Reader Unit := do
  expect "("
  let _ ← g.expression
  expect ")"

/-- A statement where only a single one may stand. -/
def readSingle (g : Grammar) : Reader Unit := do
  let _ ← g (.statement true)

/-! ### Loops -/

/-- The rest of a head with semicolons. -/
def readCountingHead (g : Grammar) : Reader Unit := do
  expect ";"
  unless ← at_ ";" do
    let _ ← g.expression
  expect ";"
  unless ← at_ ")" do
    let _ ← g.expression

/-- The rest of a head that runs through something, if it does. Only `of` can wait for what it runs
through. -/
def readRunningHead (g : Grammar) (waits : Bool) : Reader Bool := do
  if ← eatWord "of" then
    let _ ← g.assignment
    return true
  flawIf waits
  if ← eatWord "in" then
    let _ ← g.expression
    return true
  else return false

/-- The variables in the head of a loop, and the rest of the head. -/
def readVariableHead (g : Grammar) (waits : Bool) : Reader Unit := do
  let isConstant ← atWord "const"
  advance
  let (_, lacks) ← inMode (fun m => { m with allowsIn := false }) (readVariableList g isConstant)
  unless ← readRunningHead g waits do
    flawIf lacks
    readCountingHead g

/-- Whether variables are introduced in the head of a loop. -/
def startsVariableHead : Reader Bool := do
  if (← token).isWordOf ["var", "const"] then return true
  if ← startsLet then return true
  if ← startsUsing then return !(← peek).isWord "of"
  return false

/-- The head of a loop between its parentheses. -/
def readLoopHead (g : Grammar) (waits : Bool) : Reader Unit := do
  if ← at_ ";" then
    flawIf waits
    readCountingHead g
  else if ← startsVariableHead then readVariableHead g waits
  else if ← startsAwaitUsing then
    advance
    readVariableHead g waits
  else
    let isLet ← atWord "let"
    let isAsyncOf := (← atWord "async") && (← peek).isWord "of"
    let left ← inMode (fun m => { m with allowsIn := false, inDecorator := false }) (g .expression)
    if (← token).isWordOf ["of", "in"] then
      flawIf ((isLet || isAsyncOf) && (← atWord "of"))
      asTarget left
      let _ ← readRunningHead g waits
    else
      flawIf waits
      readCountingHead g

/-- A loop with a head. -/
def readFor (g : Grammar) : Reader Unit := do
  expectWord "for"
  let waits ← atWord "await"
  if waits then
    flawIf !(← read).inAsync
    advance
  expect "("
  readLoopHead g waits
  expect ")"
  readSingle g

/-- A loop that tests at its end. The semicolon behind it may always be left out. -/
def readDo (g : Grammar) : Reader Unit := do
  expectWord "do"
  readSingle g
  expectWord "while"
  readCondition g
  let _ ← eat ";"

/-! ### Choices -/

/-- A choice between two statements. -/
def readIf (g : Grammar) : Reader Unit := do
  expectWord "if"
  readCondition g
  readSingle g
  if ← eatWord "else" then readSingle g

/-- The cases of a choice by value. -/
def readSwitch (g : Grammar) : Reader Unit := do
  expectWord "switch"
  readCondition g
  expect "\x7b"
  repeatWhile do
    if ← at_ "\x7d" then return false
    if ← eatWord "case" then
      let _ ← g.expression
    else expectWord "default"
    expect ":"
    repeatWhile do
      if (← at_ "\x7d") || (← token).isWordOf ["case", "default"] || (← token).kind == .ending then
        return false
      let _ ← g (.statement false)
      return true
    return true
  expect "\x7d"

/-- A block whose errors are caught, or that something has to follow. -/
def readTry (g : Grammar) : Reader Unit := do
  expectWord "try"
  readBlock g
  let caught ← eatWord "catch"
  if caught then
    if ← eat "(" then
      let _ ← g .binding
      readAnnotation g
      expect ")"
    readBlock g
  let finished ← eatWord "finally"
  if finished then readBlock g
  unless caught || finished do fail

/-! ### Jumps -/

/-- The end of a function. -/
def readReturn (g : Grammar) : Reader Unit := do
  flawIf !(← read).inFunction
  expectWord "return"
  unless ← canEndStatement do
    let _ ← g.expression
  semicolon

/-- An error that is raised. It stands on the line of the keyword. -/
def readThrow (g : Grammar) : Reader Unit := do
  expectWord "throw"
  if (← token).afterNewline then fail
  let _ ← g.expression
  semicolon

/-- A jump within loops, to a label if there is one. -/
def readJump : Reader Unit := do
  advance
  unless ← canEndStatement do
    let _ ← readReferenceName
  semicolon

/-! ### Statements -/

/-- An expression as a statement, or a label in front of one. -/
def readExpressionStatement (g : Grammar) : Reader Unit := do
  let shape ← g.expression
  if shape.name.isSome && (← at_ ":") then
    advance
    readSingle g
  else semicolon

/-- Whether the word `import` here belongs to an expression. -/
def startsImportExpression : Reader Bool := do
  if ← atWord "import" then return (← peek).isMarkOf ["(", "."] else return false

/-- Decorators and the class they belong to, which may be exported. -/
def readDecorated (g : Grammar) : Reader Unit := do
  let _ ← readDecorators g
  let t ← token
  let next ← peek
  if t.isWord "export" then
    if next.isWord "default" || next.isWordOf ["class", "abstract"] then readExport g else fail
  else
    if t.isWord "class" || ((← hasTypes) && t.isWordOf ["abstract", "declare"]) then
      let _ ← if t.isWord "class" then readClassDeclaration g true
        else do pure (← readTypedDeclaration g).head?
    else fail

/-- A statement. -/
def readStatement (g : Grammar) (isSingle : Bool) : Reader Unit := do
  let t ← token
  match t.kind with
  | .mark =>
    if t.text == "\x7b" then readBlock g
    else if t.text == ";" then advance
    else if t.text == "@" then readDecorated g
    else readExpressionStatement g
  | .word =>
    if t.escaped then readExpressionStatement g
    else match t.text with
      | "if" => readIf g
      | "do" => readDo g
      | "while" =>
        advance
        readCondition g
        readSingle g
      | "for" => readFor g
      | "continue" | "break" => readJump
      | "with" =>
        advance
        readCondition g
        readSingle g
      | "switch" => readSwitch g
      | "throw" => readThrow g
      | "try" => readTry g
      | "debugger" =>
        advance
        semicolon
      | "return" => readReturn g
      | "class" =>
        flawIf isSingle
        let _ ← readClassDeclaration g true
      | "export" => readExport g
      | "var" =>
        let _ ← readVariables g
      | "function" =>
        flawIf (isSingle && (← peek).isMark "*")
        let _ ← readFunctionDeclaration g true
      | _ =>
        if ← startsImportExpression then readExpressionStatement g
        else if t.text == "import" then readImport
        else if ← startsAsyncFunction then
          flawIf isSingle
          let _ ← readFunctionDeclaration g true
        else if t.text == "const" && !((← hasTypes) && (← peek).isWord "enum") then
          flawIf isSingle
          let _ ← readVariables g
        else if ← startsLet then
          if isSingle && !(← peek).isMark "[" && (← peek).afterNewline then readExpressionStatement g
          else
            flawIf isSingle
            let _ ← readVariables g
        else if ← startsUsing then
          let _ ← readVariables g
        else if ← startsAwaitUsing then
          advance
          let _ ← readVariables g
        else if ← startsTypedDeclaration then
          let _ ← readTypedDeclaration g
        else readExpressionStatement g
  | _ => readExpressionStatement g

end ImageMigration.Script
