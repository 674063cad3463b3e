/-!
# Binary64 numbers

A float constant is known by its 64 bits, so numbers are equal when their bits are, whatever
their arithmetic comparison says: the two zeros differ, and a NaN equals itself. `kind` reads
the bits exactly: a finite number is a sign and a magnitude `significand · 2 ^ exponent`, and
the decimal printers work on that magnitude in the natural numbers.
-/
namespace LuaChunk

/-- A binary64 number, given by its bits. -/
structure Binary64 where
  /-- Sign, exponent field and fraction, from the highest bit down. -/
  bits : UInt64
  deriving DecidableEq, Inhabited

/-- A natural number times a power of two. -/
structure Dyadic where
  /-- The natural number. -/
  significand : Nat
  /-- The exponent of two. -/
  exponent : Int
  deriving DecidableEq

namespace Dyadic

/-- The number is `numerator / denominator`. -/
def numerator (number : Dyadic) : Nat := number.significand * Nat.pow 2 number.exponent.toNat

/-- A power of two, one for an exponent that is not negative. -/
def denominator (number : Dyadic) : Nat := Nat.pow 2 (-number.exponent).toNat

/-- Whether the number is a natural number. -/
def isNatural (number : Dyadic) : Bool := number.numerator % number.denominator == 0

/-- The largest natural number that does not pass the number. -/
def floor (number : Dyadic) : Nat := number.numerator / number.denominator

end Dyadic

namespace Binary64

/-- What the bits of a number denote. -/
inductive Kind where
  /-- Not a number. -/
  | notANumber
  /-- An infinity with its sign. -/
  | infinite (negative : Bool)
  /-- A finite number: its sign, which zero has too, and its magnitude. -/
  | finite (negative : Bool) (magnitude : Dyadic)
  deriving DecidableEq

/-- The lowest 52 bits. -/
def fraction (number : Binary64) : Nat := number.bits.toNat % Nat.pow 2 52

/-- The eleven bits above the fraction. -/
def exponentField (number : Binary64) : Nat := number.bits.toNat / Nat.pow 2 52 % Nat.pow 2 11

/-- The highest bit. -/
def isNegative (number : Binary64) : Bool := Nat.pow 2 63 ≤ number.bits.toNat

/-- The meaning of the bits. A zero exponent field means the same power of two as a field of
one, without the implicit leading bit; the greatest field has no finite number. -/
def kind (number : Binary64) : Kind :=
  if number.exponentField = 2047 then
    if number.fraction = 0 then .infinite number.isNegative else .notANumber
  else if number.exponentField = 0 then
    .finite number.isNegative ⟨number.fraction, -1074⟩
  else
    .finite number.isNegative ⟨Nat.pow 2 52 + number.fraction, number.exponentField - 1075⟩

end Binary64

end LuaChunk
