/-
Reading values out of documents.

A record is written as an object, whose members may come in any order and among others, or as an
array of its fields in their order, of which the last ones may be missing. A field that comes twice
makes an object unreadable, and so does a name that is no text.

* `Json.fields?`: the fields of a record by their names, each with its value if it has one;
* `Json.asText?`, `Json.asBool?`, `Json.asNat?`, `Json.asList?`, `Json.asOption?`: plain values;
* `Json.asVariant?`: the name of an alternative that carries no data.
-/
import ImageMigration.Json

namespace ImageMigration.Json

/-! ### Plain values -/

/-- The text of a string. -/
def asText? : Json → Option Text
  | string written => unescape? written
  | _ => none

/-- A truth value. -/
def asBool? : Json → Option Bool
  | bool b => some b
  | _ => none

/-- The number that decimal digits denote. -/
def natOfDigits (digits : Text) : Nat := digits.foldl (fun n c => 10 * n + (c.toNat - '0'.toNat)) 0

/-- A natural number up to a bound. Only digits denote one: `80.0` and `8e1` do not. -/
def asNat? (bound : Nat) : Json → Option Nat
  | number literal =>
    if literal.all Char.isDigit && decide (natOfDigits literal ≤ bound) then
      some (natOfDigits literal)
    else none
  | _ => none

/-- A list of values of one kind. -/
def asList? {α : Type} (read : Json → Option α) : Json → Option (List α)
  | array items => items.mapM read
  | _ => none

/-- A value or nothing, which is written `null`. -/
def asOption? {α : Type} (read : Json → Option α) : Json → Option (Option α)
  | null => some none
  | j => (read j).map some

/-! ### Records -/

/-- The members of an object by the texts of their names. -/
def named? (members : List (Text × Json)) : Option (List (Text × Json)) :=
  members.mapM fun m => (unescape? m.1).map fun name => (name, m.2)

/-- The value of a name among members, if it has one. A name that has several is refused. -/
def single? (members : List (Text × Json)) (name : Text) : Option (Option Json) :=
  match members.filter fun m => m.1 == name with
  | [] => some none
  | [m] => some (some m.2)
  | _ => none

/-- The fields of a record, in the order of their names. -/
def fields? (names : List Text) : Json → Option (List (Option Json))
  | object members => (named? members).bind fun members => names.mapM (single? members)
  | array items =>
    if items.length ≤ names.length then
      some (items.map some ++ List.replicate (names.length - items.length) none)
    else none
  | _ => none

/-- The value of a field that may be missing. -/
def readOr? {α : Type} (read : Json → Option α) (default : α) : Option Json → Option α
  | none => some default
  | some j => read j

/-- The name of an alternative that carries no data: a string, or the name of a lone member whose
value is `null`. -/
def asVariant? : Json → Option Text
  | string written => unescape? written
  | object [(name, null)] => unescape? name
  | _ => none

end ImageMigration.Json
