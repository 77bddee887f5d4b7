/-
A place in a script, and readers that move on from it.

A reader looks at the token at its place, moves on, and notes the literals that it passes. It may
fail; the place is then forgotten, and what it has learned about parentheses that open no function
is kept. A reader may also go on over a flaw, which spoils the file without ending the reading.

* `Cursor`: the place and the notes; `Mode`: what the surroundings permit; `Reader`: the readers;
* `advance`, `eat`, `expect`, `semicolon`: single steps;
* `attempt`, `lookAhead`: readers that do not commit;
* `repeatWhile`: a loop, bounded by the size of the source.
-/
import ImageMigration.Literal
import ImageMigration.Script.Token

namespace ImageMigration.Script

/-- What the surroundings of a place permit. -/
structure Mode where
  language : Language
  /-- the length of the source, which bounds every loop -/
  bound : Nat
  /-- `in` is an operator -/
  allowsIn : Bool
  inGenerator : Bool
  inAsync : Bool
  inFunction : Bool
  inDecorator : Bool
  /-- declarations only describe what exists elsewhere -/
  isAmbient : Bool
  /-- a type does not go on with `extends` -/
  noConditional : Bool

/-- A place in a script and what was noted on the way there. -/
structure Cursor where
  token : Token
  /-- the text from the token on -/
  here : Text
  /-- the text behind the token -/
  behind : Text
  /-- the literals passed, the last one first -/
  literals : List Literal
  /-- something was wrong on the way -/
  isFlawed : Bool
  /-- where a property with a default stands that only a pattern may hold -/
  openDefaults : List Nat
  /-- parentheses that were found to open no function -/
  notFunctions : List Nat
  /-- the names that the module exports -/
  exported : List String

/-- Readers: they know the mode, move the cursor, and may fail. -/
abbrev Reader := ReaderT Mode (ExceptT Unit (StateM Cursor))

/-- Nothing can be read here. -/
def fail {α : Type} : Reader α := throw ()

/-- The current token. -/
def token : Reader Token := do return (← get).token

/-- Notes that something is wrong. -/
def flaw : Reader Unit := modify fun c => { c with isFlawed := true }

/-- Notes that something is wrong if a condition holds. -/
def flawIf (condition : Bool) : Reader Unit := if condition then flaw else pure ()

/-- The language of the script. -/
def language : Reader Language := do return (← read).language

/-- Whether types are part of the language. -/
def hasTypes : Reader Bool := do return (← read).language.types

/-- Reads in a changed mode. -/
def inMode {α : Type} (change : Mode → Mode) (reader : Reader α) : Reader α :=
  withReader change reader

/-! ### Moving on -/

/-- Puts another token in the place of the current one. -/
def setToken (t : Token) (here behind : Text) : Reader Unit :=
  modify fun c => { c with token := t, here, behind }

/-- Moves to the next token. -/
def advance : Reader Unit := do
  let c ← get
  let mode ← read
  let (token, here, behind) :=
    nextToken mode.language.isModule mode.bound c.behind c.token.stop
  setToken token here behind

/-- Reads a token and comes back to it if the reader fails. -/
def attempt {α : Type} (reader : Reader α) : Reader (Option α) := do
  let before ← get
  try
    return some (← reader)
  catch _ =>
    modify fun c => { before with notFunctions := c.notFunctions }
    return none

/-- The answer of a reader, from which the cursor comes back. A reader that fails says no. -/
def lookAhead (reader : Reader Bool) : Reader Bool := do
  let before ← get
  let answer ← try reader catch _ => pure false
  modify fun c => { before with notFunctions := c.notFunctions }
  return answer

/-- Repeats a step until it says no. -/
def repeatFor (step : Reader Bool) : Nat → Reader Unit
  | 0 => fail
  | n + 1 => do if ← step then repeatFor step n

/-- Repeats a step until it says no. Each step moves on, so the length of the source bounds the
loop. -/
def repeatWhile (step : Reader Bool) : Reader Unit := do repeatFor step ((← read).bound + 2)

/-- Repeats a step that carries a value until it says that it is done. -/
def iterateFor {α : Type} (step : α → Reader (α × Bool)) : Nat → α → Reader α
  | 0, _ => fail
  | n + 1, a => do
    let (a, more) ← step a
    if more then iterateFor step n a else return a

/-- Repeats a step that carries a value until it says that it is done. -/
def iterate {α : Type} (start : α) (step : α → Reader (α × Bool)) : Reader α := do
  iterateFor step ((← read).bound + 2) start

/-! ### Tests and single steps -/

/-- Whether a token is a punctuator. -/
def Token.isMark (t : Token) (m : String) : Bool := t.kind == .mark && t.text == m

/-- Whether a token is a keyword: a word written without escapes. -/
def Token.isWord (t : Token) (w : String) : Bool := t.kind == .word && !t.escaped && t.text == w

/-- Whether a token is one of several punctuators. -/
def Token.isMarkOf (t : Token) (ms : List String) : Bool := t.kind == .mark && ms.contains t.text

/-- Whether a token is one of several keywords. -/
def Token.isWordOf (t : Token) (ws : List String) : Bool :=
  t.kind == .word && !t.escaped && ws.contains t.text

/-- Whether a punctuator stands here. -/
def at_ (m : String) : Reader Bool := do return (← token).isMark m

/-- Whether a keyword stands here. -/
def atWord (w : String) : Reader Bool := do return (← token).isWord w

/-- Moves over a punctuator if it stands here. -/
def eat (m : String) : Reader Bool := do
  if ← at_ m then
    advance
    return true
  else return false

/-- Moves over a keyword if it stands here. -/
def eatWord (w : String) : Reader Bool := do
  if ← atWord w then
    advance
    return true
  else return false

/-- Moves over a punctuator that has to stand here. -/
def expect (m : String) : Reader Unit := do unless ← eat m do fail

/-- Moves over a keyword that has to stand here. -/
def expectWord (w : String) : Reader Unit := do unless ← eatWord w do fail

/-- Whether a token ends a statement that lacks its semicolon. -/
def Token.endsStatement (t : Token) : Bool :=
  t.afterNewline || t.isMarkOf [";", "\x7d"] || t.kind == .ending

/-- Whether a statement may end here. -/
def canEndStatement : Reader Bool := do return (← token).endsStatement

/-- The end of a statement: a semicolon, or a place where it may be left out. -/
def semicolon : Reader Unit := do
  unless ← eat ";" do
    unless ← canEndStatement do fail

/-- The token behind the current one. -/
def peek : Reader Token := do
  let c ← get
  let mode ← read
  return (nextToken mode.language.isModule mode.bound c.behind c.token.stop).1

/-! ### Literals -/

/-- Notes a literal. -/
def note (literal : Literal) : Reader Unit :=
  modify fun c => { c with literals := literal :: c.literals }

/-- Moves over a string, which is noted as a literal. -/
def readString : Reader Unit := do
  let c ← get
  if c.token.kind == .string then
    let value := c.token.value
    let interior := c.here.drop 1
    let isVerbatim := c.token.stop == c.token.start + value.bytes + 2 && Text.startsWith interior value
    note (.string ⟨c.token.start, c.token.stop⟩ value isVerbatim)
    advance
  else fail

/-- Reads a template from its first chunk to its last, with a reader for what stands in braces. The
chunks are given back with the span. -/
def readTemplate (tagged : Bool) (inner : Reader Unit) : Reader (Span × List Text) := do
  let first ← token
  unless tagged do flawIf first.escaped
  match first.kind with
  | .template =>
    advance
    return (⟨first.start, first.stop⟩, [first.value])
  | .templateHead =>
    let chunks ← iterate [first.value] fun chunks => do
      advance
      inner
      unless ← at_ "\x7d" do fail
      let c ← get
      match readChunk? (c.here.drop 1) with
      | none => fail
      | some (chunk, sound, more, rest) =>
        unless tagged || sound do flaw
        setToken { c.token with stop := c.token.start + widthTo c.here rest } c.here rest
        return (chunk :: chunks, more)
    let stop := (← token).stop
    advance
    return (⟨first.start, stop⟩, chunks.reverse)
  | _ => fail

/-- Reads a template and notes it as a literal. -/
def noteTemplate (tagged : Bool) (inner : Reader Unit) : Reader Unit := do
  let (span, chunks) ← readTemplate tagged inner
  note (.template span chunks)

/-- Whether a template starts here. -/
def Token.startsTemplate (t : Token) : Bool := t.kind == .template || t.kind == .templateHead

/-- Sees the slash here as the start of a regular expression and moves over it. -/
def readRegex : Reader Unit := do
  let c ← get
  match regex? (c.here.drop 1) with
  | none => fail
  | some rest =>
    setToken { c.token with stop := c.token.start + widthTo c.here rest } c.here rest
    advance

/-- Sees the punctuator here as a single opening angle. -/
def splitOpeningAngle : Reader Unit := do
  let c ← get
  if c.token.isMarkOf ["<<", "<=", "<<="] then
    setToken { c.token with text := "<", stop := c.token.start + 1 } c.here (c.here.drop 1)

/-- Sees the closing angle here together with what belongs to it in an expression. -/
def joinClosingAngle : Reader Unit := do
  let c ← get
  if c.token.isMark ">" then
    let m := closingAngle c.here
    setToken { c.token with text := m, stop := c.token.start + m.length } c.here
      (c.here.drop m.length)

end ImageMigration.Script
