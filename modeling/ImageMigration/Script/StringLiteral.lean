/-
String literals: how a body between quotes is read, and how a value is written.

A string is a sequence of code units, and an escape can name half of a surrogate pair, which no
character is. So a body is read into codes: code points, lone surrogates among them.

* `readEscape?`: what the characters behind a backslash stand for;
* `readBody?`: the codes of a body up to its closing quote, and what follows the quote;
* `cook`: the value of a string as a text. A lone surrogate appears as U+FFFD and its four
  hexadecimal digits;
* `quote`: the literal that is written for a value.
-/
import ImageMigration.Text.CodeUnit

namespace ImageMigration.Script

/-- The characters that end a line. -/
def isLineTerminator (c : Char) : Bool :=
  c == '\n' || c == '\r' || c == '\u2028' || c == '\u2029'

/-- The value of hexadecimal digits, if all are. -/
def hexValue? (digits : Text) : Option Nat :=
  digits.foldlM (fun n c => (hexDigit? c).map (n * 16 + ·)) 0

/-- The code point in braces, and what follows the brace. -/
def readBracedCode? (t : Text) : Option (Nat × Text) :=
  let digits := t.takeWhile (· ≠ '\x7d')
  match t.dropWhile (· ≠ '\x7d') with
  | _ :: rest =>
    match hexValue? digits with
    | some n => if digits.isEmpty || 0x10FFFF < n then none else some (n, rest)
    | none => none
  | [] => none

/-- The code of a Unicode escape, read behind its `u`, and what follows. Two escapes that name a
surrogate pair are one code. -/
def readUnicode? : Text → Option (Nat × Text)
  | '\x7b' :: rest => readBracedCode? rest
  | a :: b :: c :: d :: rest =>
    match hex4? a b c d with
    | none => none
    | some unit =>
      if isHighSurrogate unit then
        match rest with
        | '\\' :: 'u' :: e :: f :: g :: h :: behind =>
          match hex4? e f g h with
          | some low =>
            if isLowSurrogate low then
              some (0x10000 + (unit - 0xD800) * 0x400 + (low - 0xDC00), behind)
            else some (unit, rest)
          | none => some (unit, rest)
        | _ => some (unit, rest)
      else some (unit, rest)
  | _ => none

/-- The value of an octal digit. -/
def octalDigit? (c : Char) : Option Nat :=
  if '0' ≤ c ∧ c ≤ '7' then some (c.toNat - 48) else none

/-- The code of an octal escape that starts with the given digit: up to three digits, and no more
than two when the first is above three. -/
def readOctal (first : Nat) : Text → Nat × Text
  | [] => (first, [])
  | c :: rest =>
    match octalDigit? c with
    | none => (first, c :: rest)
    | some second =>
      let two := first * 8 + second
      if 3 < first then (two, rest)
      else match rest with
        | [] => (two, [])
        | d :: behind =>
          match octalDigit? d with
          | none => (two, rest)
          | some third => (two * 8 + third, behind)

/-- The codes that an escape stands for, read behind the backslash, and what follows. A line end
stands for nothing; a character without a meaning of its own stands for itself. -/
def readEscape? : Text → Option (List Nat × Text)
  | [] => none
  | '\r' :: '\n' :: rest => some ([], rest)
  | 'n' :: rest => some ([10], rest)
  | 't' :: rest => some ([9], rest)
  | 'r' :: rest => some ([13], rest)
  | 'b' :: rest => some ([8], rest)
  | 'v' :: rest => some ([11], rest)
  | 'f' :: rest => some ([12], rest)
  | 'x' :: rest =>
    match rest with
    | a :: b :: behind => (hexValue? [a, b]).map fun n => ([n], behind)
    | _ => none
  | 'u' :: rest => (readUnicode? rest).map fun (n, behind) => ([n], behind)
  | c :: rest =>
    if isLineTerminator c then some ([], rest)
    else match octalDigit? c with
      | some digit => let (n, behind) := readOctal digit rest; some ([n], behind)
      | none => some ([c.toNat], rest)

/-- The codes of a body up to its closing quote, and what follows the quote. The first argument
bounds the number of elements. A body does not go past the end of its line. -/
def readElements? (mark : Char) : Nat → Text → Option (List Nat × Text)
  | 0, _ => none
  | _, [] => none
  | fuel + 1, c :: rest =>
    if c = mark then some ([], rest)
    else if c = '\\' then
      match readEscape? rest with
      | none => none
      | some (codes, behind) =>
        (readElements? mark fuel behind).map fun (more, behind) => (codes ++ more, behind)
    else if c = '\n' ∨ c = '\r' then none
    else (readElements? mark fuel rest).map fun (more, behind) => (c.toNat :: more, behind)

/-- The codes of a body up to its closing quote, and what follows the quote. -/
def readBody? (mark : Char) (t : Text) : Option (List Nat × Text) :=
  readElements? mark (t.length + 1) t

/-- Whether a code is half of a surrogate pair. -/
def isSurrogate (n : Nat) : Bool := isHighSurrogate n || isLowSurrogate n

/-- Four hexadecimal digits. -/
def fourHexDigits (n : Nat) : Text :=
  [hexDigit (n / 0x1000 % 16), hexDigit (n / 0x100 % 16), hexDigit (n / 0x10 % 16),
   hexDigit (n % 16)]

/-- The value of a string as a text. In the presence of a lone surrogate, U+FFFD announces four
hexadecimal digits wherever it stands. -/
def cook (codes : List Nat) : Text :=
  if codes.any isSurrogate then
    codes.flatMap fun n =>
      if isSurrogate n || n == 0xFFFD then '\ufffd' :: fourHexDigits n else [Char.ofNat n]
  else codes.map Char.ofNat

/-- How a character is written between the given quotes. -/
def quoteChar (mark c : Char) : Text :=
  match c with
  | '\\' => ['\\', '\\']
  | '\n' => ['\\', 'n']
  | '\r' => ['\\', 'r']
  | '\u2028' => "\\u2028".toList
  | '\u2029' => "\\u2029".toList
  | c => if c = mark then ['\\', c] else [c]

/-- The literal that is written for a value. -/
def quote (mark : Char) (value : Text) : Text := mark :: value.flatMap (quoteChar mark) ++ [mark]

end ImageMigration.Script
