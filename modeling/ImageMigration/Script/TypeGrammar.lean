/-
The grammar of types.

* `readType`: a type; `readTypeOperator`: a type without `|`, `&` and `extends`;
* `readTypeArguments`, `readTypeParameters`: lists in angles;
* `readReturnType`: what a function returns, possibly a statement about a parameter;
* `readTypeMembers`: the members of an interface;
* `typeArgumentsInExpression?`: angles behind an expression, if what follows fits types better than
  comparisons.
-/
import ImageMigration.Script.Parameter

namespace ImageMigration.Script

/-! ### Lists in angles -/

/-- Types in angles, at least one. -/
def readTypeArguments (g : Grammar) : Reader Unit := do
  splitOpeningAngle
  expect "<"
  let (_, count) ← readList ">" g.type
  if count = 0 then fail

/-- Types in angles, if they stand here. -/
def readTypeArgumentsHere (g : Grammar) : Reader Unit := do
  if (← hasTypes) && (← token).isMarkOf ["<", "<<"] then readTypeArguments g

/-- A parameter for a type: its name, what it extends, and its default. -/
def readTypeParameter (g : Grammar) : Reader Unit := do
  let _ ← readModifiers ["const", "in", "out"]
  let _ ← readBindingName
  if ← eatWord "extends" then g.type
  if ← eat "=" then g.type

/-- Parameters for types in angles, if they stand here. -/
def readTypeParameters (g : Grammar) : Reader Unit := do
  if (← hasTypes) && (← at_ "<") then
    advance
    let (_, count) ← readList ">" (readTypeParameter g)
    flawIf (count == 0)

/-! ### What a function returns -/

/-- Whether a token can name a parameter in a statement about it. -/
def Token.isSubject (t : Token) : Bool := t.isName || t.isWord "this"

/-- A type, or a statement about a parameter: `x is T`, `asserts x`, `asserts x is T`. -/
def readReturnType (g : Grammar) : Reader Unit := do
  let t ← token
  let next ← peek
  if t.isWord "asserts" && next.isSubject && !next.afterNewline &&
      !(next.isWord "is" && !(← lookAhead do advance; advance; return (← token).isWord "is")) then
    advance
    advance
    if (← atWord "is") && !(← token).afterNewline then
      advance
      g.type
  else if t.isSubject && next.isWord "is" && !next.afterNewline then
    advance
    advance
    g.type
  else g.type

/-- The type that a function returns, behind a colon, if it is stated. -/
def readReturnAnnotation (g : Grammar) : Reader Unit := do
  if ← hasTypes then
    if ← eat ":" then readReturnType g

/-! ### Members -/

/-- Whether the bracket here starts an index signature. -/
def startsIndexSignature : Reader Bool := do
  if ← at_ "[" then
    lookAhead do
      advance
      if (← token).isMarkOf ["...", "]"] then return true
      if (← token).isWordOf modifierWords then
        advance
        if (← token).isName then return true
      else
        unless (← token).isName do return false
        advance
      if (← token).isMarkOf [":", ","] then return true
      unless ← eat "?" do return false
      return (← token).isMarkOf [":", ",", "]"]
  else return false

/-- An index signature: a parameter in brackets and a type. -/
def readIndexSignature (g : Grammar) : Reader Unit := do
  expect "["
  let (_, count) ← readList "]" do
    let _ ← readParameter g
  flawIf (count != 1)
  readAnnotation g

/-- The end of a member: a comma, a semicolon, or a place where they may be left out. -/
def readMemberEnd : Reader Unit := do
  unless ← eat "," do semicolon

/-- A signature: parameters for types, parameters, and what is returned. -/
def readSignature (g : Grammar) : Reader Unit := do
  readTypeParameters g
  let _ ← readParameters g
  readReturnAnnotation g

/-- Whether a signature starts with a token. -/
def Token.startsSignature (t : Token) : Bool := t.isMarkOf ["(", "<"]

/-- A member of an interface. -/
def readTypeMember (g : Grammar) : Reader Unit := do
  if (← token).startsSignature then readSignature g
  else if (← atWord "new") && (← peek).startsSignature then
    advance
    readSignature g
  else
    let modifiers ← readModifiers
      ["abstract", "declare", "override", "private", "protected", "public", "readonly", "static"]
    flawIf !(modifiers.isEmpty || modifiers == ["readonly"])
    if (← token).isWordOf ["get", "set"] && (← peek).followsModifier then
      advance
      let _ ← readPropertyKey g
      readSignature g
    else if ← startsIndexSignature then readIndexSignature g
    else
      let _ ← readPropertyKey g
      let _ ← eat "?"
      if (← token).startsSignature then readSignature g else readAnnotation g
  readMemberEnd

/-- The members of an interface in braces. -/
def readTypeMembers (g : Grammar) : Reader Unit := do
  expect "\x7b"
  repeatWhile do
    if ← at_ "\x7d" then return false
    readTypeMember g
    return true
  expect "\x7d"

/-! ### Simple types -/

/-- Whether the brace here starts a mapped type. -/
def startsMappedType : Reader Bool :=
  lookAhead do
    advance
    if (← token).isMarkOf ["+", "-"] then
      advance
      return ← atWord "readonly"
    let _ ← eatWord "readonly"
    unless ← eat "[" do return false
    unless (← token).isName do return false
    advance
    atWord "in"

/-- A mapped type: a key that runs through a type, and the type at it. -/
def readMappedType (g : Grammar) : Reader Unit := do
  expect "\x7b"
  if (← token).isMarkOf ["+", "-"] then
    advance
    expectWord "readonly"
  else
    let _ ← eatWord "readonly"
  expect "["
  let _ ← readBindingName
  expectWord "in"
  g.type
  if ← eatWord "as" then g.type
  expect "]"
  if (← token).isMarkOf ["+", "-"] then
    advance
    expect "?"
  else
    let _ ← eat "?"
  readAnnotation g
  unless ← eat ";" do
    let _ ← eat ","
  expect "\x7d"

/-- Whether the item of a tuple here has a name. -/
def startsTupleName : Reader Bool :=
  lookAhead do
    let _ ← eat "..."
    unless (← token).kind == .word do return false
    advance
    if ← at_ ":" then return true
    unless ← eat "?" do return false
    at_ ":"

/-- An item of a tuple: a type, possibly with a name, for one item or for all the rest. -/
def readTupleItem (g : Grammar) : Reader Unit := do
  if ← startsTupleName then
    let _ ← eat "..."
    let _ ← readMemberName
    let _ ← eat "?"
    expect ":"
    g.type
  else
    let _ ← eat "..."
    g.type
    let _ ← eat "?"

/-- A type from another module: the module, attributes, a name in it, and arguments. -/
def readImportType (g : Grammar) : Reader Unit := do
  expectWord "import"
  expect "("
  readString
  if ← eat "," then
    unless ← at_ ")" do
      let _ ← g.assignment
      let _ ← eat ","
  expect ")"
  repeatWhile do
    if ← eat "." then
      let _ ← readMemberName
      return true
    else return false
  unless (← token).afterNewline do readTypeArgumentsHere g

/-- A name of a type with its arguments. -/
def readTypeReference (g : Grammar) : Reader Unit := do
  readTypeName
  unless (← token).afterNewline do readTypeArgumentsHere g

/-- A type without operators. -/
def readPrimaryType (g : Grammar) : Reader Unit := do
  let t ← token
  match t.kind with
  | .string => readString
  | .number => advance
  | .template | .templateHead =>
    let _ ← readTemplate false g.type
  | .mark =>
    if t.text == "-" then
      advance
      unless (← token).kind == .number do fail
      advance
    else if t.text == "\x7b" then
      if ← startsMappedType then readMappedType g else readTypeMembers g
    else if t.text == "[" then
      advance
      let _ ← readList "]" (readTupleItem g)
    else if t.text == "(" then
      advance
      g.type
      expect ")"
    else if t.text == "?" then
      advance
      unless (← token).isMarkOf [",", "\x7d", ")", ">", "=", "|"] do g.type
    else if t.text == "!" then
      advance
      let _ ← g .typeOperator
    else fail
  | .word =>
    if t.isWord "import" then readImportType g
    else if t.isWord "typeof" then
      advance
      if ← atWord "import" then readImportType g
      else
        readTypeName
        unless (← token).afterNewline do readTypeArgumentsHere g
    else if t.isWordOf ["null", "void", "true", "false", "this"] then advance
    else readTypeReference g
  | _ => fail

/-- Whether a type can start with a token. -/
def Token.startsType (t : Token) : Bool :=
  match t.kind with
  | .word =>
    t.isName || t.isWordOf ["import", "typeof", "null", "void", "true", "false", "this", "new"]
  | .string | .number | .template | .templateHead => true
  | .mark => ["\x7b", "[", "(", "<", "|", "&", "*", "?", "!", "...", "-"].contains t.text
  | _ => false

/-- A type with brackets behind it. -/
def readPostfixType (g : Grammar) : Reader Unit := do
  readPrimaryType g
  repeatWhile do
    let t ← token
    if t.afterNewline then return false
    else if t.isMark "[" then
      advance
      unless ← at_ "]" do g.type
      expect "]"
      return true
    else if t.isMark "!" then
      advance
      return true
    else if t.isMark "?" && !(← peek).startsType then
      if (← peek).isMark ":" then return false
      advance
      return true
    else return false

/-! ### Operators on types -/

/-- The name that an inferred type gets, and what it extends. A condition is no such bound. -/
def readInferredName (g : Grammar) : Reader Unit := do
  let _ ← readBindingName
  if ← atWord "extends" then
    let bounded := (← read).noConditional
    let _ ← attempt do
      advance
      let _ ← inMode (fun m => { m with noConditional := true }) (g .type)
      if !bounded && (← at_ "?") then fail

/-- A type with the operators in front of it. -/
def readTypeOperator (g : Grammar) : Reader Unit := do
  let t ← token
  if t.isWordOf ["keyof", "unique", "readonly"] then
    advance
    let _ ← g .typeOperator
  else if t.isWord "infer" then
    advance
    readInferredName g
  else inMode (fun m => { m with noConditional := false }) (readPostfixType g)

/-- Types joined by an operator, which may also stand in front. -/
def readJoinedTypes (operator : String) (part : Reader Unit) : Reader Unit := do
  let _ ← eat operator
  part
  repeatWhile do
    if ← eat operator then
      part
      return true
    else return false

/-- Types joined by `|` and `&`. -/
def readUnionType (g : Grammar) : Reader Unit :=
  readJoinedTypes "|" (readJoinedTypes "&" do let _ ← g .typeOperator)

/-- Moves over the start of a parameter. -/
def skipParameterStart (g : Grammar) : Reader Bool := do
  if (← token).isWordOf modifierWords then
    let _ ← readModifiers modifierWords
  if (← token).isSubject then
    advance
    return true
  if (← token).isMarkOf ["[", "\x7b"] then
    let _ ← g .binding
    return true
  return false

/-- Whether the parenthesis here opens the parameters of a function type. -/
def startsFunctionType (g : Grammar) : Reader Bool :=
  lookAhead do
    expect "("
    if (← token).isMarkOf [")", "..."] then return true
    unless ← skipParameterStart g do return false
    if (← token).isMarkOf [":", ",", "?", "="] then return true
    unless ← eat ")" do return false
    at_ "=>"

/-- The type of a function, with its arrow. -/
def readFunctionType (g : Grammar) : Reader Unit := do
  readTypeParameters g
  let _ ← readParameters g
  expect "=>"
  readReturnType g

/-- A type. -/
def readType (g : Grammar) : Reader Shape := do
  let t ← token
  if t.isWord "new" then
    advance
    readFunctionType g
  else if t.isWord "abstract" && (← peek).isWord "new" then
    advance
    advance
    readFunctionType g
  else if t.isMark "<" || (t.isMark "(" && (← startsFunctionType g)) then readFunctionType g
  else
    readUnionType g
    unless (← read).noConditional do
      if (← atWord "extends") && !(← token).afterNewline then
        advance
        let _ ← inMode (fun m => { m with noConditional := true }) (g .type)
        expect "?"
        g.type
        expect ":"
        g.type
  return .plain

/-! ### Angles behind an expression -/

/-- The level of a binary operator: operators with a higher one bind tighter. -/
def operatorLevel? (t : Token) : Option Nat :=
  match t.kind with
  | .mark =>
    match t.text with
    | "??" => some 1
    | "||" => some 2
    | "&&" => some 3
    | "|" => some 4
    | "^" => some 5
    | "&" => some 6
    | "==" | "!=" | "===" | "!==" => some 7
    | "<" | ">" | "<=" | ">=" => some 8
    | "<<" | ">>" | ">>>" => some 9
    | "+" | "-" => some 10
    | "*" | "/" | "%" => some 11
    | "**" => some 12
    | _ => none
  | .word => if t.isWordOf ["in", "instanceof", "as", "satisfies"] then some 8 else none
  | _ => none

/-- Whether a token can start an expression. -/
def Token.startsExpression (t : Token) : Bool :=
  match t.kind with
  | .word =>
    t.isName || t.isWordOf
      ["this", "super", "null", "true", "false", "function", "class", "new", "delete", "typeof",
       "void", "await", "yield", "import"]
  | .string | .number | .template | .templateHead | .privateWord => true
  | .mark =>
    ["(", "[", "\x7b", "/", "/=", "+", "-", "~", "!", "++", "--", "<", "@"].contains t.text
  | _ => false

/-- Whether types in angles can be meant when a token follows them. -/
def Token.followsTypeArguments (allowsIn : Bool) (t : Token) : Bool :=
  if t.isMark "(" || t.startsTemplate then true
  else if t.isMarkOf ["<", ">", "+", "-"] then false
  else
    t.afterNewline || ((operatorLevel? t).isSome && (allowsIn || !t.isWord "in")) ||
      !t.startsExpression

/-- Moves over types in angles behind an expression, if that is what the angles are. -/
def typeArgumentsInExpression? (g : Grammar) : Reader Bool := do
  if (← hasTypes) && (← token).isMarkOf ["<", "<<"] then
    let found ← attempt do
      splitOpeningAngle
      expect "<"
      let (_, count) ← iterate (true, 0) fun (more, count) => do
        if !more || (← at_ ">") then return ((more, count), false)
        g.type
        return ((← eat ",", count + 1), true)
      if count = 0 then fail
      unless ← at_ ">" do fail
      if closingAngle (← get).here != ">" then fail
      advance
      unless (← token).followsTypeArguments (← read).allowsIn do fail
    return found.isSome
  else return false

end ImageMigration.Script
