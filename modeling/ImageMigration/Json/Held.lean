/-
Values that are kept while a record is read.

Of a record that is told by the name of its kind, all other members are kept until that name is
found. So they have to be values that can be kept, also those that nothing needs in the end: numbers
that doubles reach, strings that are texts, and no more levels than a reader goes down.

* `Json.fitsDouble`: numbers that doubles reach;
* `Json.isHeld`: values that can be kept.
-/
import ImageMigration.Json.Record

namespace ImageMigration.Json

/-- The least number that is rounded beyond the greatest double. -/
def doubleBound : Nat := (1 <<< 1024) - (1 <<< 970)

/-- The exponent behind a letter, and whether it is negative. -/
def exponentOf : Text → Bool × Nat
  | '-' :: digits => (true, natOfDigits digits)
  | '+' :: digits => (false, natOfDigits digits)
  | digits => (false, natOfDigits digits)

/-- Whether a number is rounded to a double. Only a whole part of 309 digits leaves this open. -/
def fitsDouble (literal : Text) : Bool :=
  let magnitude := literal.dropWhile (· == '-')
  let mantissa := magnitude.takeWhile fun c => c != 'e' && c != 'E'
  let (negative, exponent) := exponentOf (magnitude.drop (mantissa.length + 1))
  let whole := mantissa.takeWhile (· != '.')
  let fraction := mantissa.drop (whole.length + 1)
  let digits := (whole ++ fraction).dropWhile (· == '0')
  let up := if negative then 0 else exponent
  let down := fraction.length + if negative then exponent else 0
  digits.isEmpty || digits.length + up ≤ down + 308 ||
    (digits.length + up == down + 309 &&
      decide (natOfDigits ((digits ++ List.replicate up '0').take 309) < doubleBound))

mutual

/-- Whether a value can be kept by a reader that goes down some levels. -/
def isHeld : Nat → Json → Bool
  | _, null => true
  | _, bool _ => true
  | _, number literal => fitsDouble literal
  | _, string written => (unescape? written).isSome
  | 0, array _ => false
  | levels + 1, array items => itemsHeld levels items
  | 0, object _ => false
  | levels + 1, object members => membersHeld levels members

/-- Whether the items of an array can be kept. -/
def itemsHeld (levels : Nat) : List Json → Bool
  | [] => true
  | item :: items => isHeld levels item && itemsHeld levels items

/-- Whether the members of an object can be kept. -/
def membersHeld (levels : Nat) : List (Text × Json) → Bool
  | [] => true
  | (name, value) :: members =>
    (unescape? name).isSome && isHeld levels value && membersHeld levels members

end

end ImageMigration.Json
