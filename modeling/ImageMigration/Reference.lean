/-
References to images in the value of a string.

A value names one image, or several in the manner of a source set: `/a.png 1x, /b.png 2x`. A
reference remembers where in the value it stands, because an update touches its extension only.

* `Text.imageExtension?`: the ending `.png`, `.jpg` or `.jpeg` of a text, in any letter case;
* `Reference.tokens`: the places of a value where a path may stand;
* `Reference.ofValue`: the references of a string;
* `Reference.ofChunks`: the chunks of a template that look like images. They are reported, never
  resolved.
-/
import ImageMigration.Text.Blank
import ImageMigration.Text.Digit

namespace ImageMigration

/-- The lower-case form of the letters A to Z; other characters stay. -/
def Text.lowerAscii (t : Text) : Text := t.map Char.toLower

/-- The endings that make a path an image, in lower case. -/
def imageExtensions : List Text := [".png".toList, ".jpg".toList, ".jpeg".toList]

/-- The image extension at the end of a text, its point included, as one of `imageExtensions`. -/
def Text.imageExtension? (t : Text) : Option Text :=
  imageExtensions.find? fun e => e.isSuffixOf t.lowerAscii

/-- Whether a text ends in an image extension. -/
def Text.hasImageExtension (t : Text) : Bool := t.imageExtension?.isSome

/-- Texts that name something outside the project: addresses on the web and inline data. -/
def Text.isExternal (t : Text) : Bool :=
  t.startsWith "http".toList || t.startsWith "data:".toList

/-- How a reference was written. -/
inductive Reference.Kind where
  /-- as a plain string, which can be resolved to a file -/
  | static
  /-- as a chunk of a template -/
  | dynamic
  deriving DecidableEq, Inhabited

/-- One image path in a value. -/
structure Reference where
  /-- the path as written, with its query -/
  raw : Text
  /-- the path without its query -/
  clean : Text
  /-- what stands from the first `?` on -/
  query : Text
  /-- where the path starts in the value, in bytes -/
  offset : Nat
  kind : Reference.Kind
  deriving DecidableEq, Inhabited

namespace Reference

/-- Whether the path starts with `/`. -/
def isRootAbsolute (r : Reference) : Bool := r.clean.startsWith ['/']

/-- The bytes of the image extension in the value. -/
def extensionRange? (r : Reference) : Option (Nat × Nat) :=
  r.clean.imageExtension?.map fun e =>
    (r.offset + (r.clean.bytes - e.bytes), r.offset + r.clean.bytes)

/-! ### Tokens -/

/-- A piece of a value and where it starts. -/
structure Token where
  text : Text
  offset : Nat
  deriving DecidableEq

/-- The first word of a segment that starts at the given offset. -/
def firstToken? (segment : Text) (start : Nat) : Option Token :=
  segment.firstWord?.map fun word => ⟨word, start + segment.leadingBlank.bytes⟩

/-- The first words of the segments between commas. -/
def segmentTokens (start : Nat) : List Text → List Token
  | [] => []
  | segment :: segments =>
    (firstToken? segment start).toList ++ segmentTokens (start + segment.bytes + 1) segments

/-- What follows a run of at least one decimal digit. -/
def afterDigits? (t : Text) : Option Text :=
  if (t.takeWhile isDecimalDigit).isEmpty then none else some (t.dropWhile isDecimalDigit)

/-- Whether a word is the width or density of a source-set entry: a number such as `640` or `1.5`,
and `w` or `x` behind it. -/
def isDescriptor (word : Text) : Bool :=
  let isUnit (t : Text) : Bool := t == ['w'] || t == ['x']
  match afterDigits? word with
  | none => false
  | some ('.' :: rest) => (afterDigits? rest).any isUnit
  | some rest => isUnit rest

/-- The places where a path may stand. With a comma, these are the first words of the segments.
Without, it is the whole trimmed value, or its first word when a descriptor is all that follows. -/
def tokens (value : Text) : List Token :=
  if ',' ∈ value then segmentTokens 0 (Text.split ',' value)
  else
    let trimmed := value.trim
    let leading := value.leadingBlank.bytes
    match trimmed.firstWord? with
    | none => []
    | some word =>
      match trimmed.afterFirstWord.firstWord? with
      | none => [⟨trimmed, leading⟩]
      | some descriptor =>
        if trimmed.afterFirstWord.afterFirstWord.isBlankText && isDescriptor descriptor then
          [⟨word, leading⟩]
        else [⟨trimmed, leading⟩]

/-! ### References -/

/-- The reference that a token is, if it names an image of the project. -/
def ofToken? (token : Token) : Option Reference :=
  let clean : Text := token.text.takeWhile (· ≠ '?')
  let query : Text := token.text.dropWhile (· ≠ '?')
  if clean.hasImageExtension && !clean.isExternal then
    some ⟨token.text, clean, query, token.offset, .static⟩
  else none

/-- The references of a string. The commas of inline data separate nothing, so it has none. -/
def ofValue (value : Text) : List Reference :=
  if value.trimStart.startsWith "data:".toList then []
  else (tokens value).filterMap ofToken?

/-- The chunks of a template that end like an image. -/
def ofChunks (chunks : List Text) : List Reference :=
  (chunks.filter Text.hasImageExtension).map fun chunk => ⟨chunk, chunk, [], 0, .dynamic⟩

/-- The reference that a string holding just this path would be. -/
def ofPath (clean : Text) (offset : Nat) : Reference := ⟨clean, clean, [], offset, .static⟩

end Reference

end ImageMigration
