/-
Tokens of a script.

Which characters make a token depends on the grammar in a few places: a slash may start a regular
expression, a brace may continue a template, text between tags is no code. The reader of the next
token takes the common view, and further readers look at the same characters again in another way.

* `Token`: a token and where it stands;
* `nextToken`: the next token in the common view, behind blanks and comments;
* `regex?`, `templatePart?`, `tagName?`, `tagString?`, `tagText`, `closingAngle`: the other views.
-/
import ImageMigration.Script.Identifier
import ImageMigration.Script.StringLiteral

namespace ImageMigration.Script

/-- The kinds of tokens. -/
inductive TokenKind where
  /-- the end of the source -/
  | ending
  /-- a name or a keyword -/
  | word
  /-- a name behind `#` -/
  | privateWord
  /-- a punctuator -/
  | mark
  | number
  | string
  /-- a template without interpolations -/
  | template
  /-- a template up to its first interpolation -/
  | templateHead
  /-- text between tags -/
  | tagText
  /-- characters that make no token -/
  | invalid
  deriving DecidableEq, Inhabited

/-- A token. -/
structure Token where
  kind : TokenKind
  /-- the name or the punctuator -/
  text : String
  /-- the value of a string, the raw chunk of a template -/
  value : Text
  /-- a word that is written with an escape, a template chunk with a malformed one -/
  escaped : Bool
  start : Nat
  stop : Nat
  /-- the first token of its line -/
  afterNewline : Bool
  deriving Inhabited

/-- What the grammar is read for. -/
structure Language where
  /-- types and the declarations that go with them -/
  types : Bool
  /-- tags in expressions -/
  tags : Bool
  /-- a module, as opposed to a plain script -/
  isModule : Bool
  /-- a file of declarations only -/
  declarations : Bool
  deriving DecidableEq, Inhabited

/-! ### Blanks and comments -/

/-- The blanks between tokens that end no line. -/
def isSpace (c : Char) : Bool :=
  let n := c.toNat
  n == 9 || n == 11 || n == 12 || n == 32 || n == 0x85 || n == 0xA0 || n == 0x1680 ||
    (0x2000 ≤ n && n ≤ 0x200B) || n == 0x202F || n == 0x205F || n == 0x3000 || n == 0xFEFF

/-- What follows a comment that ends with its line, and the offset there. -/
def skipLine : Text → Nat → Text × Nat
  | [], at_ => ([], at_)
  | c :: rest, at_ =>
    if isLineTerminator c then (c :: rest, at_) else skipLine rest (at_ + c.utf8Size)

/-- What the characters in front of a token belong to. -/
inductive Gap where
  | blanks
  /-- a comment that ends with its line -/
  | lineComment
  /-- a comment in stars -/
  | blockComment
  deriving DecidableEq

/-- The place behind blanks and comments: the text there, its offset, and whether a line ended on
the way. There is none when a comment does not end. In a plain script, `<!--` and, in front of a
line, `-->` start comments too. -/
def skipGap? (isModule : Bool) : Gap → Text → Nat → Bool → Option (Text × Nat × Bool)
  | .blockComment, [], _, _ => none
  | _, [], at_, newline => some ([], at_, newline)
  | .blockComment, '*' :: '/' :: rest, at_, newline =>
    skipGap? isModule .blanks rest (at_ + 2) newline
  | .blockComment, c :: rest, at_, newline =>
    skipGap? isModule .blockComment rest (at_ + c.utf8Size) (newline || isLineTerminator c)
  | .lineComment, c :: rest, at_, newline =>
    if isLineTerminator c then skipGap? isModule .blanks rest (at_ + c.utf8Size) true
    else skipGap? isModule .lineComment rest (at_ + c.utf8Size) newline
  | .blanks, '/' :: '/' :: rest, at_, newline =>
    skipGap? isModule .lineComment rest (at_ + 2) newline
  | .blanks, '/' :: '*' :: rest, at_, newline =>
    skipGap? isModule .blockComment rest (at_ + 2) newline
  | .blanks, c :: rest, at_, newline =>
    if isLineTerminator c then skipGap? isModule .blanks rest (at_ + c.utf8Size) true
    else if isSpace c then skipGap? isModule .blanks rest (at_ + c.utf8Size) newline
    else if !isModule && (Text.startsWith (c :: rest) "<!--".toList ||
        (newline && Text.startsWith (c :: rest) "-->".toList)) then
      skipGap? isModule .lineComment rest (at_ + c.utf8Size) newline
    else some (c :: rest, at_, newline)

/-- The place behind blanks and comments: the text there, its offset, and whether a line ended on
the way. -/
def skipBlanks? (isModule : Bool) (t : Text) (at_ : Nat) (newline : Bool) :
    Option (Text × Nat × Bool) :=
  skipGap? isModule .blanks t at_ newline

/-! ### Words and numbers -/

/-- A name in front of a text, whether an escape occurs in it, and what follows. -/
def readName? (isFirst : Bool) : Nat → Text → Option (Text × Bool × Text)
  | 0, _ => none
  | fuel + 1, t =>
    let isPart (c : Char) : Bool := if isFirst then isIdentifierStart c else isIdentifierPart c
    match t with
    | '\\' :: rest =>
      match rest with
      | 'u' :: rest =>
        match readUnicode? rest with
        | none => none
        | some (n, rest) =>
          if isSurrogate n || !isPart (Char.ofNat n) then none
          else (readName? false fuel rest).map fun (name, _, rest) =>
            (Char.ofNat n :: name, true, rest)
      | _ => none
    | c :: rest =>
      if isPart c then
        (readName? false fuel rest).map fun (name, escaped, rest) => (c :: name, escaped, rest)
      else if isFirst then none
      else some ([], false, t)
    | [] => if isFirst then none else some ([], false, [])

/-- What follows a run of digits with single underscores between them. -/
def skipDigits? (isDigit : Char → Bool) : Text → Option Text
  | c :: rest =>
    if isDigit c then
      match rest with
      | '_' :: d :: behind => if isDigit d then skipDigits? isDigit (d :: behind) else none
      | d :: behind => if isDigit d then skipDigits? isDigit (d :: behind) else some (d :: behind)
      | [] => some []
    else none
  | [] => none

/-- What follows an exponent, if there is one. -/
def skipExponent? (t : Text) : Option Text :=
  match t with
  | e :: rest =>
    if e = 'e' ∨ e = 'E' then
      match rest with
      | sign :: behind =>
        if sign = '+' ∨ sign = '-' then skipDigits? Char.isDigit behind
        else skipDigits? Char.isDigit rest
      | [] => none
    else some t
  | [] => some []

/-- What follows the point of a number: digits, if there are any, and an exponent. -/
def skipFraction? (t : Text) : Option Text :=
  if t.head?.any Char.isDigit then (skipDigits? Char.isDigit t).bind skipExponent?
  else if t.head? = some '_' then none
  else skipExponent? t

/-- What follows the whole part of a decimal number. -/
def skipDecimalTail? (t : Text) : Option Text :=
  match t with
  | '.' :: rest => skipFraction? rest
  | 'n' :: rest => some rest
  | t => skipExponent? t

/-- What follows the digits of a number with a base mark. -/
def skipBased? (isDigit : Char → Bool) (t : Text) : Option Text :=
  (skipDigits? isDigit t).map fun rest =>
    match rest with
    | 'n' :: rest => rest
    | rest => rest

/-- What follows the number in front of a text. -/
def skipNumber? (t : Text) : Option Text :=
  match t with
  | '.' :: rest => skipFraction? rest
  | '0' :: c :: rest =>
    if c = 'x' ∨ c = 'X' then skipBased? (fun c => (hexDigit? c).isSome) rest
    else if c = 'o' ∨ c = 'O' then skipBased? (fun c => (octalDigit? c).isSome) rest
    else if c = 'b' ∨ c = 'B' then skipBased? (fun c => c == '0' || c == '1') rest
    else if c.isDigit then
      let digits := (c :: rest).takeWhile Char.isDigit
      let behind := (c :: rest).dropWhile Char.isDigit
      if digits.all fun c => (octalDigit? c).isSome then some behind
      else match behind with
        | '.' :: rest => skipFraction? rest
        | behind => skipExponent? behind
    else if c = '_' then none
    else skipDecimalTail? (c :: rest)
  | t => (skipDigits? Char.isDigit t).bind skipDecimalTail?

/-! ### Templates -/

/-- Whether the characters behind a backslash make an escape that a template may hold. -/
def isTemplateEscape (t : Text) : Bool :=
  match t with
  | '0' :: rest => !rest.head?.any Char.isDigit
  | c :: _ => !c.isDigit && (readEscape? t).isSome
  | [] => false

/-- A chunk of a template: its text with every line end as one line feed, whether all its escapes
are well-formed, whether an interpolation follows, and what follows. -/
def readChunk? : Text → Option (Text × Bool × Bool × Text)
  | [] => none
  | '\x60' :: rest => some ([], true, false, rest)
  | '$' :: '\x7b' :: rest => some ([], true, true, rest)
  | '\\' :: '\r' :: '\n' :: rest =>
    (readChunk? rest).map fun (chunk, sound, more, rest) => ('\\' :: '\n' :: chunk, sound, more, rest)
  | '\\' :: c :: rest =>
    let shown := if c = '\r' then '\n' else c
    (readChunk? rest).map fun (chunk, sound, more, behind) =>
      ('\\' :: shown :: chunk, sound && isTemplateEscape (c :: rest), more, behind)
  | '\r' :: '\n' :: rest =>
    (readChunk? rest).map fun (chunk, sound, more, rest) => ('\n' :: chunk, sound, more, rest)
  | c :: rest =>
    (readChunk? rest).map fun (chunk, sound, more, rest) =>
      ((if c = '\r' then '\n' else c) :: chunk, sound, more, rest)

/-! ### The common view -/

/-- The punctuators, longer ones in front. The closing angle stands alone here, because two of them
may close two lists of types. -/
def marks : List String :=
  ["...", "===", "!==", "**=", "<<=", "&&=", "||=", "??=",
   "=>", "==", "!=", "<=", "<<", "++", "--", "+=", "-=", "*=", "/=", "%=", "&=", "|=", "^=", "&&",
   "||", "??", "?.", "**",
   "\x7b", "\x7d", "(", ")", "[", "]", ";", ",", "<", ">", "=", "+", "-", "*", "/", "%", "&", "|",
   "^", "!", "~", "?", ":", ".", "@"]

/-- The punctuator in front of a text. A question mark and a point do not belong together when a
digit follows. -/
def readMark? (t : Text) : Option String :=
  marks.find? fun m =>
    t.startsWith m.toList && !(m == "?." && (t.drop 2).head?.any Char.isDigit)

/-- The number of bytes between a text and a later part of it. -/
def widthTo (t rest : Text) : Nat := Text.bytes (t.take (t.length - rest.length))

/-- The token in front of a text that starts with no blank, and what follows. A name has no more
characters than the bound says. -/
def readToken (bound start : Nat) (afterNewline : Bool) (t : Text) : Token × Text :=
  let make (kind : TokenKind) (text : String) (value : Text) (escaped : Bool) (width : Nat)
      (rest : Text) : Token × Text :=
    ({ kind, text, value, escaped, start, stop := start + width, afterNewline }, rest)
  let invalid : Token × Text := make .invalid "" [] false 0 t
  let name (kind : TokenKind) (markWidth : Nat) (word : Text) : Token × Text :=
    match readName? true (bound + 1) word with
    | some (name, escaped, rest) =>
      let width := markWidth + if escaped then widthTo word rest else name.bytes
      make kind (String.ofList name) [] escaped width rest
    | none => invalid
  match t with
  | [] => make .ending "" [] false 0 []
  | '#' :: rest => name .privateWord 1 rest
  | '\x60' :: rest =>
    match readChunk? rest with
    | some (chunk, sound, more, rest) =>
      make (if more then .templateHead else .template) "" chunk (!sound) (widthTo t rest) rest
    | none => invalid
  | c :: rest =>
    if isIdentifierStart c || c == '\\' then name .word 0 t
    else if c.isDigit || (c == '.' && rest.head?.any Char.isDigit) then
      match skipNumber? t with
      | some rest =>
        if rest.head?.any fun c => isIdentifierStart c || c.isDigit || c == '\\' || c == '_' then
          invalid
        else make .number "" [] false (widthTo t rest) rest
      | none => invalid
    else if c == '"' || c == '\'' then
      match readBody? c rest with
      | some (codes, rest) => make .string "" (cook codes) false (widthTo t rest) rest
      | none => invalid
    else match readMark? t with
      | some m => make .mark m [] false m.length (t.drop m.length)
      | none => invalid

/-- The token behind blanks and comments, the text from it on, and the text behind it. The start of
a source counts as the start of a line. -/
def tokenFrom (isModule atStart : Bool) (bound : Nat) (t : Text) (offset : Nat) :
    Token × Text × Text :=
  match skipBlanks? isModule t offset atStart with
  | some (here, start, newline) =>
    let (token, rest) := readToken bound start newline here
    (token, here, rest)
  | none =>
    ({ kind := .invalid, text := "", value := [], escaped := false, start := offset,
       stop := offset, afterNewline := false }, t, t)

/-- The next token, the text from it on, and the text behind it. -/
def nextToken (isModule : Bool) (bound : Nat) (t : Text) (offset : Nat) : Token × Text × Text :=
  tokenFrom isModule false bound t offset

/-! ### Other views -/

/-- What follows the body of a regular expression and its closing slash. -/
def skipRegexBody? : Bool → Text → Option Text
  | _, [] => none
  | inClass, '\\' :: c :: rest => if isLineTerminator c then none else skipRegexBody? inClass rest
  | inClass, c :: rest =>
    if isLineTerminator c then none
    else if c = '/' ∧ !inClass then some rest
    else if c = '[' then skipRegexBody? true rest
    else if c = ']' then skipRegexBody? false rest
    else skipRegexBody? inClass rest

/-- What follows a regular expression, read behind its opening slash. Its flags are distinct. -/
def regex? (t : Text) : Option Text :=
  match skipRegexBody? false t with
  | none => none
  | some rest =>
    let flags := rest.takeWhile isIdentifierPart
    let behind := rest.dropWhile isIdentifierPart
    if flags.all ("dgimsuvy".toList.contains ·) && decide flags.Nodup && behind.head? != some '\\'
    then some behind
    else none

/-- The characters of a name in a tag, which may hold hyphens, and what follows. -/
def tagName? (t : Text) : Option (Text × Text) :=
  match t with
  | c :: _ =>
    let isPart (c : Char) : Bool := isIdentifierPart c || c == '-'
    if isIdentifierStart c then some (t.takeWhile isPart, t.dropWhile isPart) else none
  | [] => none

/-- The characters of a string in a tag, read behind its opening quote, and what follows the closing
one. Nothing is an escape here. -/
def tagString? (mark : Char) (t : Text) : Option (Text × Text) :=
  match t.dropWhile (· ≠ mark) with
  | _ :: rest => some (t.takeWhile (· ≠ mark), rest)
  | [] => none

/-- What follows the text between two tags. -/
def afterTagText (t : Text) : Text := t.dropWhile fun c => c ≠ '<' && c ≠ '\x7b'

/-- Whether a text may stand between tags. -/
def isTagText (t : Text) : Bool := !(t.contains '>' || t.contains '\x7d')

/-- The longest punctuator that starts with a closing angle. -/
def closingAngle (t : Text) : String :=
  ([">>>=", ">>>", ">>=", ">>", ">=", ">"].find? fun m => t.startsWith m.toList).getD ">"

end ImageMigration.Script
