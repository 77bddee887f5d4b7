/-
White space and the words between it.

* `Char.isBlank`: the characters with the Unicode property White_Space;
* `Text.trimStart`, `Text.trim`: the text without white space at its ends;
* `Text.words`: the maximal runs without white space.
-/
import ImageMigration.Text

namespace ImageMigration

/-- The characters with the Unicode property White_Space. -/
def isBlank (c : Char) : Bool :=
  let n := c.toNat
  (9 ≤ n && n ≤ 13) || n == 0x20 || n == 0x85 || n == 0xA0 || n == 0x1680 ||
    (0x2000 ≤ n && n ≤ 0x200A) || n == 0x2028 || n == 0x2029 || n == 0x202F || n == 0x205F ||
    n == 0x3000

namespace Text

/-- The text from its first character that is not white space. -/
def trimStart (t : Text) : Text := t.dropWhile isBlank

/-- The text up to its last character that is not white space. -/
def trimEnd (t : Text) : Text := (t.reverse.dropWhile isBlank).reverse

/-- The text without white space at its ends. -/
def trim (t : Text) : Text := (trimStart t).trimEnd

/-- The white space at the start of a text. -/
def leadingBlank (t : Text) : Text := t.takeWhile isBlank

theorem leadingBlank_append_trimStart (t : Text) : leadingBlank t ++ trimStart t = t :=
  List.takeWhile_append_dropWhile

/-- The first run of characters that are not white space, if there is one. -/
def firstWord? (t : Text) : Option Text :=
  match (trimStart t).takeWhile (fun c => !isBlank c) with
  | [] => none
  | word => some word

/-- What follows the first word. -/
def afterFirstWord (t : Text) : Text := (trimStart t).dropWhile (fun c => !isBlank c)

/-- Whether a text is white space only. -/
def isBlankText (t : Text) : Bool := t.all isBlank

end Text

end ImageMigration
