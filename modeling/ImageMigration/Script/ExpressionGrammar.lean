/-
The grammar of expressions.

* `readPrimary`: operands; `readMembers`, `readCalls`: what stands behind them;
* `readUnary`, `readOperation`: operators in front and between;
* `readAssignment`, `readExpression`: conditions, functions, assignments, and lists with commas.
-/
import ImageMigration.Script.ElementGrammar

namespace ImageMigration.Script

/-! ### Arrays and objects -/

/-- What the items read so far say about an array or object as a pattern. -/
structure PatternSoFar where
  isPattern : Bool
  openDefaults : List Nat
  /-- a rest item was read, which has to be the last one -/
  hasRest : Bool

/-- The start of an array or object. -/
def PatternSoFar.start : PatternSoFar := ⟨true, [], false⟩

/-- Counts an item. -/
def PatternSoFar.add (p : PatternSoFar) (item : Shape) (isRest : Bool) : PatternSoFar :=
  { isPattern := p.isPattern && !p.hasRest && (if isRest then item.isTarget else item.isItem),
    openDefaults := p.openDefaults ++ item.openDefaults, hasRest := isRest }

/-- No pattern, unless a condition holds. -/
def PatternSoFar.restrict (p : PatternSoFar) (condition : Bool) : PatternSoFar :=
  { p with isPattern := p.isPattern && condition }

/-- The array or object with the items read. -/
def PatternSoFar.shape (p : PatternSoFar) : Shape :=
  { Shape.plain with isPattern := p.isPattern, isLiteral := true, openDefaults := p.openDefaults }

/-- An array. -/
def readArray (g : Grammar) : Reader Shape := do
  expect "["
  let p ← iterate PatternSoFar.start fun p => do
    if ← at_ "]" then return (p, false)
    if ← at_ "," then
      advance
      return (p.restrict !p.hasRest, true)
    let isRest ← eat "..."
    let item ← g.assignment
    let p := p.add item isRest
    if ← at_ "]" then return (p, true)
    expect ","
    -- a comma behind a rest item is wrong in a pattern
    return (p.restrict !isRest, true)
  expect "]"
  return p.shape

/-- A property that has only a name, or a name and a default. -/
def readShorthand : Reader (Shape × Option Nat) := do
  let t ← token
  let name ← readReferenceName
  if ← at_ "=" then return (.ofName name, some t.start) else return (.ofName name, none)

/-- A property of an object. -/
def readProperty (g : Grammar) : Reader Shape := do
  let t ← token
  let next ← peek
  if t.isWordOf ["get", "set"] && next.startsKey then
    advance
    let _ ← readPropertyKey g
    readMethod g (some t.text) false false false
    return .plain
  let isAsync := t.isWord "async" && !next.afterNewline && (next.startsKey || next.isMark "*")
  if isAsync then advance
  let isGenerator ← eat "*"
  let t ← token
  let next ← peek
  if !isAsync && !isGenerator && t.kind == .word && next.isMarkOf [",", "\x7d", "="] then
    let (shape, default) ← readShorthand
    match default with
    | none => return shape
    | some place =>
      modify fun c => { c with openDefaults := place :: c.openDefaults }
      advance
      let _ ← g.assignment
      return { shape with openDefaults := [place] }
  flawIf (t.kind == .privateWord)
  let _ ← readPropertyKey g
  if isAsync || isGenerator || (← token).startsSignature then
    readMethod g none isAsync isGenerator false
    return .plain
  expect ":"
  g.assignment

/-- An object. -/
def readObject (g : Grammar) : Reader Shape := do
  expect "\x7b"
  let p ← iterate PatternSoFar.start fun p => do
    if ← at_ "\x7d" then return (p, false)
    let isRest ← eat "..."
    let item ← if isRest then g.assignment else readProperty g
    let p := p.add item isRest
    if ← at_ "\x7d" then return (p.restrict (!isRest || item.isSimple), true)
    expect ","
    -- in a pattern, a rest item is no pattern itself, and no comma stands behind it
    return (p.restrict !isRest, true)
  expect "\x7d"
  return p.shape

/-! ### Operands -/

/-- An expression in parentheses. -/
def readParenthesized (g : Grammar) : Reader Shape := do
  expect "("
  let shape ← g.expression
  expect ")"
  return shape.parenthesized

/-- The arguments of a call. -/
def readArguments (g : Grammar) : Reader Unit := do
  expect "("
  let _ ← readList ")" do
    let _ ← eat "..."
    let _ ← g.assignment

/-- The arguments of an import: the module, and possibly what else is said about it. -/
def readImportArguments (g : Grammar) : Reader Unit := do
  expect "("
  let _ ← g.assignment
  if ← eat "," then
    unless ← at_ ")" do
      let _ ← g.assignment
      let _ ← eat ","
  expect ")"

/-- What follows the word `import` in an expression. -/
def readImportExpression (g : Grammar) : Reader Shape := do
  expectWord "import"
  if ← eat "." then
    let t ← token
    if t.isWord "meta" then
      advance
      flawIf !(← language).isModule
      return .plain
    unless t.isWordOf ["source", "defer"] do fail
    advance
  readImportArguments g
  return .plain

/-- What follows the word `super`. -/
def readSuper : Reader Shape := do
  expectWord "super"
  unless (← token).isMarkOf [".", "[", "("] do fail
  return .plain

/-- A class with its decorators as an expression. -/
def readClassExpression (g : Grammar) : Reader Shape := do
  let _ ← readDecorators g
  expectWord "class"
  let _ ← readClass g false
  return .plain

/-- An operand. -/
def readPrimary (g : Grammar) (readNew : Reader Shape) : Reader Shape := do
  let t ← token
  match t.kind with
  | .string =>
    readString
    return .plain
  | .number =>
    advance
    return .plain
  | .template | .templateHead =>
    noteTemplate false do
      let _ ← g.expression
    return .plain
  | .mark =>
    match t.text with
    | "(" => readParenthesized g
    | "[" => readArray g
    | "\x7b" => readObject g
    | "/" | "/=" =>
      readRegex
      return .plain
    | "@" => readClassExpression g
    | _ => fail
  | .word =>
    if t.isWordOf ["this", "null", "true", "false"] then
      advance
      return .plain
    else if t.isWord "function" || (← startsAsyncFunction) then
      readFunctionExpression g
      return .plain
    else if t.isWord "class" then readClassExpression g
    else if t.isWord "new" then readNew
    else if t.isWord "super" then readSuper
    else if t.isWord "import" then readImportExpression g
    else return .ofName (← readReferenceName)
  | _ => fail

/-! ### Members and calls -/

/-- A place behind an operand: its shape, and whether `?.` occurred on the way. -/
structure Chain where
  shape : Shape
  isOptional : Bool

/-- A chain that goes on with a member. -/
def Chain.member (c : Chain) : Chain := { c with shape := .member }

/-- A chain that goes on with something else. -/
def Chain.other (c : Chain) : Chain := { c with shape := .plain }

/-- The expression that a chain is. -/
def Chain.result (c : Chain) : Shape := if c.isOptional then .plain else c.shape

/-- A name behind a point. -/
def readMemberWord : Reader Unit := do
  let t ← token
  unless t.kind == .word || t.kind == .privateWord do fail
  advance

/-- One step of a chain that is no call. The answer tells whether there was one. -/
def readMemberStep (g : Grammar) (mayBeOptional : Bool) (c : Chain) : Reader (Chain × Bool) := do
  let t ← token
  if t.isMark "." then
    flawIf c.shape.hasTypeArguments
    advance
    readMemberWord
    return (c.member, true)
  else if t.isMark "[" && !(← read).inDecorator then
    advance
    let _ ← g.expression
    expect "]"
    return (c.member, true)
  else if t.isMark "?." && mayBeOptional then
    let next ← peek
    if next.kind == .word || next.kind == .privateWord then
      advance
      advance
      return ({ c.member with isOptional := true }, true)
    else if next.isMark "[" then
      advance
      advance
      let _ ← g.expression
      expect "]"
      return ({ c.member with isOptional := true }, true)
    else
      if next.startsTemplate then flaw
      return (c, false)
  else if t.startsTemplate then
    flawIf c.isOptional
    noteTemplate true do
      let _ ← g.expression
    return (c.other, true)
  else if (← hasTypes) && t.isMark "!" && !t.afterNewline then
    advance
    return ({ c with shape := { Shape.plain with isSimple := c.shape.isSimple } }, true)
  else if ← typeArgumentsInExpression? g then
    return ({ c with shape := { Shape.plain with hasTypeArguments := true } }, true)
  else return (c, false)

/-- The members behind an operand. -/
def readMembers (g : Grammar) (mayBeOptional : Bool) (c : Chain) : Reader Chain :=
  iterate c (readMemberStep g mayBeOptional)

/-- `new` with its operand and arguments. -/
def readNewFor (g : Grammar) (readNew : Reader Shape) : Reader Shape := do
  expectWord "new"
  if ← eat "." then
    expectWord "target"
    return .plain
  if ← atWord "import" then
    unless (← peek).isMark "." do fail
  let callee ← readPrimary g readNew
  let _ ← readMembers g false ⟨callee, false⟩
  if ← at_ "?." then fail
  if ← at_ "(" then readArguments g
  return .plain

/-- `new` in front of others. Each takes the word itself, so the size of the source bounds their
number. -/
def readNews (g : Grammar) : Nat → Reader Shape
  | 0 => fail
  | n + 1 => readNewFor g (readNews g n)

/-- `new` with its operand and arguments. -/
def readNew (g : Grammar) : Reader Shape := do readNews g ((← read).bound + 2)

/-- The calls and members behind an operand. -/
def readCalls (g : Grammar) (c : Chain) : Reader Chain :=
  iterate c fun c => do
    let c ← readMembers g true c
    let optional ← eat "?."
    let c := if optional then { c with isOptional := true } else c
    let typed ← if optional then typeArgumentsInExpression? g else pure false
    if ← at_ "(" then
      readArguments g
      return (c.other, true)
    else
      if optional || typed then fail
      return (c, false)

/-- An operand with calls and members. -/
def readAccess (g : Grammar) : Reader Shape := do
  let operand ← readPrimary g (readNew g)
  let c ← readCalls g ⟨operand, false⟩
  return c.result

/-! ### Operators in front -/

/-- Whether a token can start what `await` or `yield` is applied to, where it might be a name. -/
def Token.isOperandWord (t : Token) : Bool :=
  !t.afterNewline && (t.kind == .word || t.kind == .string || t.kind == .number)

/-- Whether `await` is an operator here. -/
def isAwait : Reader Bool := do
  if ← atWord "await" then return (← read).inAsync || (← peek).isOperandWord
  else return false

/-- An operand that may be counted up or down. -/
def readUpdate (g : Grammar) : Reader Shape := do
  if (← token).isMarkOf ["++", "--"] then
    advance
    asSimpleTarget (← g .unary)
    return .plain
  let shape ← readAccess g
  let t ← token
  if t.isMarkOf ["++", "--"] && !t.afterNewline then
    asSimpleTarget shape
    advance
    return .plain
  return shape

/-- An operand with the operators in front of it. -/
def readUnary (g : Grammar) : Reader Shape := do
  let t ← token
  if t.isMarkOf ["+", "-", "~", "!"] || t.isWordOf ["typeof", "void", "delete"] then
    advance
    let _ ← g .unary
    return { Shape.plain with isSigned := true }
  else if t.isMarkOf ["<", "<<"] then
    if (← language).tags then g (.element false)
    else
      unless ← hasTypes do fail
      splitOpeningAngle
      expect "<"
      unless ← eatWord "const" do g.type
      expect ">"
      let shape ← g .unary
      return { Shape.plain with isSimple := shape.isSimple }
  else if ← isAwait then
    flawIf !(← read).inAsync
    advance
    let _ ← g .unary
    return { Shape.plain with isSigned := true }
  else readUpdate g

/-! ### Operators between -/

/-- The operand behind an operator, or the operators in front of the first one. A private name
stands only in front of `in`. -/
def readFirstOperand (g : Grammar) (level : Nat) : Reader Shape := do
  if (← token).kind == .privateWord then
    unless (← read).allowsIn do fail
    advance
    unless ← atWord "in" do fail
    if 8 ≤ level then fail
    advance
    let _ ← g (.operation 8)
    return .plain
  else readUnary g

/-- Whether two operators need parentheses between them. -/
def mixes (operator : String) (s : Shape) : Bool :=
  match s.logic with
  | some .connective => operator == "??"
  | some .coalesce => operator == "||" || operator == "&&"
  | none => false

/-- The shape of two operands joined by an operator. -/
def joinedShape (operator : String) : Shape :=
  match operator with
  | "??" => { Shape.plain with logic := some .coalesce }
  | "||" | "&&" => { Shape.plain with logic := some .connective }
  | _ => .plain

/-- One operator and the operand behind it. The answer tells whether there was one that binds
tighter than the level. -/
def readOperatorStep (g : Grammar) (level : Nat) (left : Shape) : Reader (Shape × Bool) := do
  joinClosingAngle
  let t ← token
  match operatorLevel? t with
  | none => return (left, false)
  | some operator =>
    -- only `**` groups to the right
    if operator < level || (operator == level && !t.isMark "**") then return (left, false)
    if t.isWord "in" && !(← read).allowsIn then return (left, false)
    if t.isWordOf ["as", "satisfies"] then
      unless (← hasTypes) && !t.afterNewline do return (left, false)
      advance
      if ← atWord "const" then advance else g.type
      return ({ Shape.plain with isSimple := left.isSimple }, true)
    advance
    let right ← g (.operation operator)
    flawIf (t.isMark "**" && left.isSigned)
    flawIf (mixes t.text left || mixes t.text right)
    return (joinedShape t.text, true)

/-- Operands joined by operators that bind tighter than a level. -/
def readOperation (g : Grammar) (level : Nat) : Reader Shape := do
  let first ← readFirstOperand g level
  iterate first (readOperatorStep g level)

/-! ### Assignments -/

/-- The operators that assign. -/
def assignmentOperators : List String :=
  ["=", "+=", "-=", "*=", "/=", "%=", "**=", "<<=", ">>=", ">>>=", "&=", "|=", "^=", "&&=", "||=",
   "??="]

/-- Whether `yield` is an operator here. -/
def isYield : Reader Bool := do
  if ← atWord "yield" then return (← read).inGenerator || (← peek).isOperandWord
  else return false

/-- `yield` and what is given out. -/
def readYield (g : Grammar) : Reader Shape := do
  flawIf !(← read).inGenerator
  advance
  let t ← token
  if t.afterNewline then return .plain
  if ← eat "*" then
    let _ ← g (.assignment true)
  else
    let ends := t.isMarkOf [")", "]", "\x7d", ",", ";", ":"] || t.isWordOf ["in", "of"] ||
      t.kind == .ending
    unless ends do
      let _ ← g (.assignment true)
  return .plain

/-- What follows an operand: a condition with its two cases, or nothing. -/
def readConditional (g : Grammar) (mayReturnType : Bool) (first : Shape) : Reader Shape := do
  if ← eat "?" then
    let _ ← inMode (fun m => { m with allowsIn := true, inDecorator := false })
      (g (.assignment false))
    expect ":"
    let _ ← g (.assignment mayReturnType)
    return .plain
  else return first

/-- An expression without commas. -/
def readAssignment (g : Grammar) (mayReturnType : Bool) : Reader Shape := do
  if ← isYield then return ← readYield g
  if ← readArrowFunction? g mayReturnType then return .plain
  if ← readAsyncArrow? g mayReturnType then return .plain
  let left ← readOperation g 0
  let t ← token
  if t.isMark "=>" && left.name.isSome then
    flawIf t.afterNewline
    advance
    readArrowBody g false mayReturnType
    return .plain
  if t.isMarkOf assignmentOperators then
    if t.isMark "=" then asTarget left else asSimpleTarget left
    advance
    let _ ← g (.assignment mayReturnType)
    return { Shape.plain with isAssignment := t.isMark "=" }
  readConditional g mayReturnType left

/-- Expressions with commas between them. -/
def readExpression (g : Grammar) : Reader Shape := do
  let first ← g (.assignment true)
  iterate first fun shape => do
    if ← eat "," then
      let _ ← g (.assignment true)
      return (.plain, true)
    else return (shape, false)

end ImageMigration.Script
