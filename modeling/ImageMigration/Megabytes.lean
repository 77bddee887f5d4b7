/-
Sizes in megabytes.

A number of bytes is first rounded to a binary fraction with 53 significant bits, a tie going to the
even neighbour, and then divided by 2^20, which is exact. What is shown are two places of that
fraction, again with ties to even.

* `roundDiv`: the quotient nearest to a fraction;
* `Megabytes.ofBytes`: the rounded size; `Megabytes.bits`: its sixty-four bits as a double;
* `Megabytes.render`: two places.
-/
import ImageMigration.Text

namespace ImageMigration

/-- The integer nearest to a fraction; of two, the even one. -/
def roundDiv (n d : Nat) : Nat :=
  let q := n / d
  let r := n % d
  if 2 * r < d then q
  else if d < 2 * r then q + 1
  else if q % 2 = 0 then q else q + 1

/-- A size: `mantissa <<< exponent` bytes, where the mantissa has at most 53 bits. -/
structure Megabytes where
  mantissa : Nat
  exponent : Nat
  deriving DecidableEq, Inhabited

namespace Megabytes

/-- The number of bits of a number. -/
def bitLength (n : Nat) : Nat := if n = 0 then 0 else Nat.log2 n + 1

/-- The size of a number of bytes. -/
def ofBytes (bytes : Nat) : Megabytes :=
  let exponent := bitLength bytes - 53
  ⟨roundDiv bytes (1 <<< exponent), exponent⟩

/-- The size in bytes. -/
def bytes (m : Megabytes) : Nat := m.mantissa <<< m.exponent

/-- The bits of the size in megabytes as a double: the exponent, raised by 1023, and the bits of the
mantissa behind its first one. -/
def bits (m : Megabytes) : Nat :=
  if m.mantissa = 0 then 0
  else
    let length := bitLength m.mantissa
    let power := m.exponent + length - 1
    ((power + 1023 - 20) <<< 52) + (((m.mantissa <<< 53) >>> length) - (1 <<< 52))

/-- The size in megabytes with two places. -/
def render (m : Megabytes) : Text :=
  let hundredths := roundDiv (m.bytes * 100) (1 <<< 20)
  Text.ofNat (hundredths / 100) ++
    ['.', Nat.digitChar (hundredths / 10 % 10), Nat.digitChar (hundredths % 10)]

end Megabytes

end ImageMigration
