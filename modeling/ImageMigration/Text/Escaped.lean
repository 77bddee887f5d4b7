/-
Texts in quotes for the log, every character that is not plainly visible escaped.

* `Text.quoted`: a text in double quotes;
* `Path.quoted`: a path in double quotes, in which single quotes are escaped too.
-/
import ImageMigration.Path
import ImageMigration.Text.Printable

namespace ImageMigration

/-- The lower-case hexadecimal digits of a number. -/
def hexDigits (n : Nat) : Text := Nat.toDigits 16 n

/-- A visible form of a character. The double quote is escaped, the single one on demand. -/
def escapedChar (escapeSingle : Bool) (c : Char) : Text :=
  match c with
  | '\x00' => ['\\', '0']
  | '\t' => ['\\', 't']
  | '\r' => ['\\', 'r']
  | '\n' => ['\\', 'n']
  | '\\' => ['\\', '\\']
  | '"' => ['\\', '"']
  | '\'' => if escapeSingle then ['\\', '\''] else ['\'']
  | c =>
    if isGraphemeExtend c || !isPrintable c then
      '\\' :: 'u' :: '\x7b' :: hexDigits c.toNat ++ ['\x7d']
    else [c]

/-- A text in double quotes. -/
def Text.quoted (t : Text) : Text := '"' :: t.flatMap (escapedChar false) ++ ['"']

/-- A path in double quotes. -/
def Path.quoted (p : Path) : Text := '"' :: p.text.flatMap (escapedChar true) ++ ['"']

/-- Quoted items as a set in braces. -/
def quotedSet (items : List Text) : Text :=
  '\x7b' :: List.intercalate [',', ' '] items ++ ['\x7d']

end ImageMigration
