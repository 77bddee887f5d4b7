/-
The written form of a JSON document, one item to a line and two spaces for each level.

* `Json.pretty`: the document over several lines; empty arrays and objects stay on one;
* `Json.compact`: the document on one line, without blanks.
-/
import ImageMigration.Json

namespace ImageMigration.Json

/-- A new line at a given level. -/
def newline (level : Nat) : Text := '\n' :: List.replicate (2 * level) ' '

/-- The name of a member and the colon behind it. -/
def memberName (name : Text) : Text := '"' :: name ++ ['"', ':']

mutual

/-- The document at a level, over several lines. -/
def prettyAt (level : Nat) : Json → Text
  | null => "null".toList
  | bool b => if b then "true".toList else "false".toList
  | number literal => literal
  | string written => '"' :: written ++ ['"']
  | array [] => "[]".toList
  | array (item :: items) =>
    '[' :: newline (level + 1) ++ prettyAt (level + 1) item ++ prettyItems (level + 1) items ++
      newline level ++ [']']
  | object [] => ['{', '}']
  | object ((name, value) :: members) =>
    '{' :: newline (level + 1) ++ memberName name ++ ' ' :: prettyAt (level + 1) value ++
      prettyMembers (level + 1) members ++ newline level ++ ['}']

/-- The items behind the first one. -/
def prettyItems (level : Nat) : List Json → Text
  | [] => []
  | item :: items => ',' :: newline level ++ prettyAt level item ++ prettyItems level items

/-- The members behind the first one. -/
def prettyMembers (level : Nat) : List (Text × Json) → Text
  | [] => []
  | (name, value) :: members =>
    ',' :: newline level ++ memberName name ++ ' ' :: prettyAt level value ++
      prettyMembers level members

end

/-- The document over several lines. -/
def pretty (document : Json) : Text := document.prettyAt 0

mutual

/-- The document on one line. -/
def compact : Json → Text
  | null => "null".toList
  | bool b => if b then "true".toList else "false".toList
  | number literal => literal
  | string written => '"' :: written ++ ['"']
  | array [] => "[]".toList
  | array (item :: items) => '[' :: compact item ++ compactItems items ++ [']']
  | object [] => ['{', '}']
  | object ((name, value) :: members) =>
    '{' :: memberName name ++ compact value ++ compactMembers members ++ ['}']

/-- The items behind the first one. -/
def compactItems : List Json → Text
  | [] => []
  | item :: items => ',' :: compact item ++ compactItems items

/-- The members behind the first one. -/
def compactMembers : List (Text × Json) → Text
  | [] => []
  | (name, value) :: members => ',' :: memberName name ++ compact value ++ compactMembers members

end

end ImageMigration.Json
