/-
Reading JSON documents.

The reader is a recursive descent over the characters of a text. Each level of nesting and each
item takes at least one character, so the length of the text bounds the descent.

* `Json.read?`: the document that a whole text is, white space around it being allowed.
-/
import ImageMigration.Json

namespace ImageMigration.Json

/-- The white space of JSON. -/
def isSpace (c : Char) : Bool := c == ' ' || c == '\n' || c == '\t' || c == '\r'

/-- The text from its first character that is not white space. -/
def skipSpace (t : Text) : Text := t.dropWhile isSpace

/-- The digits in front of a text, at least one, and what follows. -/
def digits? (t : Text) : Option (Text × Text) :=
  match t.takeWhile Char.isDigit with
  | [] => none
  | digits => some (digits, t.dropWhile Char.isDigit)

/-- The digits in front of the point: a lone zero, or digits that do not start with one. -/
def wholePart? (t : Text) : Option (Text × Text) :=
  match t with
  | '0' :: rest => if rest.head?.any Char.isDigit then none else some (['0'], rest)
  | t => digits? t

/-- The point and the digits behind it, if there is a point. -/
def fraction? (t : Text) : Option (Text × Text) :=
  match t with
  | '.' :: rest => (digits? rest).map fun (digits, rest) => ('.' :: digits, rest)
  | t => some ([], t)

/-- The exponent, if there is one. -/
def exponent? (t : Text) : Option (Text × Text) :=
  match t with
  | e :: rest =>
    if e = 'e' ∨ e = 'E' then
      match rest with
      | sign :: rest' =>
        if sign = '+' ∨ sign = '-' then
          (digits? rest').map fun (digits, rest) => (e :: sign :: digits, rest)
        else (digits? rest).map fun (digits, rest) => (e :: digits, rest)
      | [] => none
    else some ([], t)
  | [] => some ([], t)

/-- A number without its sign. -/
def magnitude? (t : Text) : Option (Text × Text) := do
  let (whole, t) ← wholePart? t
  let (fraction, t) ← fraction? t
  let (exponent, t) ← exponent? t
  some (whole ++ fraction ++ exponent, t)

/-- A number as written, and what follows. -/
def number? (t : Text) : Option (Text × Text) :=
  match t with
  | '-' :: rest => (magnitude? rest).map fun (literal, rest) => ('-' :: literal, rest)
  | t => magnitude? t

/-- The written form of a string up to its closing quote, and what follows the quote. -/
def stringBody? : Text → Option (Text × Text)
  | [] => none
  | '"' :: rest => some ([], rest)
  | '\\' :: 'u' :: a :: b :: c :: d :: rest =>
    if (hex4? a b c d).isSome then
      (stringBody? rest).map fun (body, rest) => ('\\' :: 'u' :: a :: b :: c :: d :: body, rest)
    else none
  | '\\' :: c :: rest =>
    if (shortEscape? c).isSome then
      (stringBody? rest).map fun (body, rest) => ('\\' :: c :: body, rest)
    else none
  | ['\\'] => none
  | c :: rest =>
    if c.toNat < 0x20 then none else (stringBody? rest).map fun (body, rest) => (c :: body, rest)

mutual

/-- A document in front of a text, and what follows. -/
def value? : Nat → Text → Option (Json × Text)
  | 0, _ => none
  | fuel + 1, t =>
    match skipSpace t with
    | 'n' :: 'u' :: 'l' :: 'l' :: rest => some (null, rest)
    | 't' :: 'r' :: 'u' :: 'e' :: rest => some (bool true, rest)
    | 'f' :: 'a' :: 'l' :: 's' :: 'e' :: rest => some (bool false, rest)
    | '"' :: rest => (stringBody? rest).map fun (written, rest) => (string written, rest)
    | '[' :: rest =>
      match skipSpace rest with
      | ']' :: rest => some (array [], rest)
      | rest => (items? fuel rest).map fun (items, rest) => (array items, rest)
    | '{' :: rest =>
      match skipSpace rest with
      | '}' :: rest => some (object [], rest)
      | rest => (members? fuel rest).map fun (members, rest) => (object members, rest)
    | t => (number? t).map fun (literal, rest) => (number literal, rest)

/-- The items of an array up to its bracket, at least one. -/
def items? : Nat → Text → Option (List Json × Text)
  | 0, _ => none
  | fuel + 1, t =>
    match value? fuel t with
    | none => none
    | some (item, rest) =>
      match skipSpace rest with
      | ']' :: rest => some ([item], rest)
      | ',' :: rest => (items? fuel rest).map fun (items, rest) => (item :: items, rest)
      | _ => none

/-- The members of an object up to its brace, at least one. -/
def members? : Nat → Text → Option (List (Text × Json) × Text)
  | 0, _ => none
  | fuel + 1, t =>
    match skipSpace t with
    | '"' :: rest =>
      match stringBody? rest with
      | none => none
      | some (name, rest) =>
        match skipSpace rest with
        | ':' :: rest =>
          match value? fuel rest with
          | none => none
          | some (value, rest) =>
            match skipSpace rest with
            | '}' :: rest => some ([(name, value)], rest)
            | ',' :: rest =>
              (members? fuel rest).map fun (members, rest) => ((name, value) :: members, rest)
            | _ => none
        | _ => none
    | _ => none

end

/-- The document that a text is. -/
def read? (t : Text) : Option Json :=
  match value? (2 * t.length + 1) t with
  | some (document, rest) => if (skipSpace rest).isEmpty then some document else none
  | none => none

end ImageMigration.Json
