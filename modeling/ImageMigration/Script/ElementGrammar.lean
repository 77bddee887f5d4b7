/-
Elements in angle brackets, as expressions have them.

Names, strings and text in and between tags have a reading of their own: names may hold hyphens,
strings have no escapes, and text is everything up to the next tag or brace.

* `readElement`: an element or a fragment, from the opening angle to what follows the closing one.
-/
import ImageMigration.Script.ClassGrammar

namespace ImageMigration.Script

/-! ### Moving between tags -/

/-- Moves from a closing mark to the text, tag or brace behind it. -/
def advanceBetweenTags : Reader Unit := do
  let c ← get
  let start := c.token.stop
  let make (kind : TokenKind) (text : String) (rest : Text) : Reader Unit :=
    setToken
      { kind, text, value := [], escaped := false, start, stop := start + widthTo c.behind rest,
        afterNewline := false } c.behind rest
  match c.behind with
  | [] => make .ending "" []
  | '<' :: rest => make .mark "<" rest
  | '\x7b' :: rest => make .mark "\x7b" rest
  | t =>
    let rest := afterTagText t
    let text := t.take (t.length - rest.length)
    make (if isTagText text then .tagText else .invalid) "" rest

/-- Moves behind a closing mark: to what stands between tags, or back to code. -/
def advanceBehind (isChild : Bool) : Reader Unit := if isChild then advanceBetweenTags else advance

/-- Moves over a closing mark that has to stand here. -/
def expectBehind (m : String) (isChild : Bool) : Reader Unit := do
  unless ← at_ m do fail
  advanceBehind isChild

/-- Moves to the value of an attribute and notes it if it is a string. The answer tells whether it
was one. -/
def advanceToAttributeString : Reader Bool := do
  let c ← get
  match skipBlanks? true c.behind c.token.stop false with
  | some (mark :: rest, start, _) =>
    if mark = '"' ∨ mark = '\'' then
      match tagString? mark rest with
      | none => fail
      | some (value, behind) =>
        let stop := start + 2 + value.bytes
        note (.string ⟨start, stop⟩ value true)
        setToken
          { kind := .string, text := "", value, escaped := false, start, stop,
            afterNewline := false } (mark :: rest) behind
        advance
        return true
    else
      advance
      return false
  | _ => fail

/-! ### Names -/

/-- A name in a tag, which may hold hyphens. -/
def readTagWord : Reader String := do
  let c ← get
  unless c.token.kind == .word && !c.token.escaped do fail
  match tagName? c.here with
  | none => fail
  | some (name, rest) =>
    setToken { c.token with stop := c.token.start + name.bytes } c.here rest
    advance
    return String.ofList name

/-- The name of an element: a word, a word of a name space, or a member. -/
def readElementName : Reader String := do
  let first ← readTagWord
  if ← eat ":" then return first ++ ":" ++ (← readTagWord)
  else iterate first fun name => do
    if ← eat "." then
      if first.toList.contains '-' then fail
      let next ← readTagWord
      if next.toList.contains '-' then fail
      return (name ++ "." ++ next, true)
    else return (name, false)

/-! ### Tags -/

/-- An expression in braces that stands for a value. -/
def readBraced (g : Grammar) (isChild : Bool) : Reader Unit := do
  expect "\x7b"
  let _ ← g.assignment
  expectBehind "\x7d" isChild

/-- The value of an attribute, behind its equals sign. -/
def readAttributeValue (g : Grammar) : Reader Unit := do
  unless ← at_ "=" do fail
  unless ← advanceToAttributeString do
    if ← at_ "\x7b" then readBraced g false
    else
      unless ← at_ "<" do fail
      let _ ← g (.element false)

/-- The attributes of a tag. -/
def readAttributes (g : Grammar) : Reader Unit := do
  repeatWhile do
    if (← token).isMarkOf ["/", ">"] then return false
    if ← eat "\x7b" then
      expect "..."
      let _ ← g.assignment
      expect "\x7d"
    else
      let _ ← readTagWord
      if ← eat ":" then
        let _ ← readTagWord
      if ← at_ "=" then readAttributeValue g
    return true

/-- What stands between an opening and a closing tag, up to the angle of the closing one. -/
def readChildren (g : Grammar) : Reader Unit := do
  repeatWhile do
    let t ← token
    match t.kind with
    | .tagText =>
      advanceBetweenTags
      return true
    | .mark =>
      if t.text == "<" then
        if (← peek).isMark "/" then return false
        let _ ← g (.element true)
        return true
      else if t.text == "\x7b" then
        advance
        if ← at_ "\x7d" then
          advanceBetweenTags
        else
          let _ ← eat "..."
          let _ ← g.assignment
          expectBehind "\x7d" true
        return true
      else fail
    | _ => fail

/-- The start of a closing tag. -/
def readClosing : Reader Unit := do
  expect "<"
  expect "/"

/-- An element or a fragment. -/
def readElement (g : Grammar) (isChild : Bool) : Reader Shape := do
  expect "<"
  if ← at_ ">" then
    advanceBetweenTags
    readChildren g
    readClosing
    expectBehind ">" isChild
  else
    let name ← readElementName
    readTypeArgumentsHere g
    readAttributes g
    if ← eat "/" then expectBehind ">" isChild
    else
      expectBehind ">" true
      readChildren g
      readClosing
      let closing ← readElementName
      unless closing == name do fail
      expectBehind ">" isChild
  return .plain

end ImageMigration.Script
