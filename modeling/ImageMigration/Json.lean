/-
JSON documents as data.

A document keeps what its text says: the digits of a number, the escapes of a string, the order of
members and their repetitions. So a reader of some kind of value can refuse `80.0` where it wants
an integer, and a string that no text corresponds to hurts only who looks at it.

* `Json`: the documents;
* `Json.unescape?`: the text of a string; a surrogate escape without its partner has none;
* `Json.escape`: how a text is written; `unescape?` undoes it.
-/
import ImageMigration.Text.CodeUnit

namespace ImageMigration

/-- A JSON document. Numbers and strings are held as written, strings without their quotes. -/
inductive Json where
  | null
  | bool (b : Bool)
  | number (literal : Text)
  | string (written : Text)
  | array (items : List Json)
  | object (members : List (Text × Json))
  deriving Inhabited

namespace Json

/-- The character of a one-letter escape. -/
def shortEscape? : Char → Option Char
  | '"' => some '"'
  | '\\' => some '\\'
  | '/' => some '/'
  | 'b' => some '\x08'
  | 'f' => some '\x0c'
  | 'n' => some '\n'
  | 'r' => some '\r'
  | 't' => some '\t'
  | _ => none

/-- The text of a written string. -/
def unescape? : Text → Option Text
  | [] => some []
  | '\\' :: 'u' :: a :: b :: c :: d :: rest =>
    match hex4? a b c d with
    | none => none
    | some unit =>
      if isHighSurrogate unit then
        match rest with
        | '\\' :: 'u' :: e :: f :: g :: h :: rest =>
          match hex4? e f g h with
          | none => none
          | some low =>
            if isLowSurrogate low then (unescape? rest).map (surrogatePair unit low :: ·) else none
        | _ => none
      else if isLowSurrogate unit then none
      else (unescape? rest).map (Char.ofNat unit :: ·)
  | '\\' :: c :: rest =>
    match shortEscape? c with
    | none => none
    | some e => (unescape? rest).map (e :: ·)
  | ['\\'] => none
  | c :: rest => (unescape? rest).map (c :: ·)

/-- How a character is written: quotes, backslashes and control characters are escaped. -/
def escapeChar (c : Char) : Text :=
  match c with
  | '"' => ['\\', '"']
  | '\\' => ['\\', '\\']
  | '\x08' => ['\\', 'b']
  | '\x0c' => ['\\', 'f']
  | '\n' => ['\\', 'n']
  | '\r' => ['\\', 'r']
  | '\t' => ['\\', 't']
  | c =>
    if c.toNat < 0x20 then ['\\', 'u', '0', '0', hexDigit (c.toNat / 16), hexDigit (c.toNat % 16)]
    else [c]

/-- How a text is written. -/
def escape (t : Text) : Text := t.flatMap escapeChar

/-- A text as a document. -/
def ofText (t : Text) : Json := .string (escape t)

/-- A natural number as a document. -/
def ofNat (n : Nat) : Json := .number (Text.ofNat n)

/-- A list as a document. -/
def ofList {α : Type} (f : α → Json) (items : List α) : Json := .array (items.map f)

/-- A record as a document: its fields in order. -/
def ofFields (fields : List (String × Json)) : Json :=
  .object (fields.map fun field => (escape field.1.toList, field.2))

end Json

end ImageMigration
