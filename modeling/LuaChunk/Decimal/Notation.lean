import LuaChunk.Decimal.Shortest

/-!
# How numbers are written

Both printers write a finite number with the fewest digits that read back, with an exponent
when the magnitude is at least `10 ^ 16` or below `10 ^ -4`, and otherwise with a decimal point.
A number is always written so that it cannot be taken for an integer. The two printers differ in
the name of a NaN. They also take different ways for natural numbers: the listing writes their
exact value, the tree view their shortest digits.
-/
namespace LuaChunk

namespace Decimal

/-- One digit before the point, the others after it, and the exponent of ten. -/
def scientific (number : Decimal) : List Char :=
  match Nat.toDigits 10 number.digits with
  | [] => []
  | [digit] => digit :: 'e' :: (toString number.exponent).toList
  | digit :: further =>
    digit :: '.' :: further ++ 'e' :: (toString (number.exponent + further.length)).toList

/-- The digits with a point where it belongs and zeros up to it; no point for a natural
number. -/
def positional (number : Decimal) : List Char :=
  let digits := Nat.toDigits 10 number.digits
  let places := (-number.exponent).toNat
  if places = 0 then digits ++ List.replicate number.exponent.toNat '0'
  else if places < digits.length then
    digits.take (digits.length - places) ++ '.' :: digits.drop (digits.length - places)
  else '0' :: '.' :: List.replicate (places - digits.length) '0' ++ digits

/-- The digits with a point and at least one digit after it. -/
def pointed (number : Decimal) : List Char :=
  if 0 ≤ number.exponent then number.positional ++ ['.', '0'] else number.positional

end Decimal

namespace Dyadic

/-- Whether a magnitude is written with an exponent: it is at least `10 ^ 16`, or below
`10 ^ -4` without being zero. -/
def isExtreme (number : Dyadic) : Bool :=
  Nat.pow 10 16 * number.denominator ≤ number.numerator ||
    (number.numerator != 0 && Nat.pow 10 4 * number.numerator < number.denominator)

/-- A magnitude as the listing writes it. -/
def listed (number : Dyadic) : List Char :=
  if number.isExtreme then number.shortest.scientific
  else if number.isNatural then Nat.toDigits 10 number.floor ++ ['.', '0']
  else number.shortest.positional

/-- A magnitude as the tree view writes it. -/
def shown (number : Dyadic) : List Char :=
  if number.significand = 0 then ['0', '.', '0']
  else if number.isExtreme then number.shortest.scientific
  else number.shortest.pointed

end Dyadic

namespace Binary64

/-- Characters after a minus sign if the number is negative. -/
def signed (negative : Bool) (magnitude : List Char) : String :=
  String.ofList (if negative then '-' :: magnitude else magnitude)

/-- A number as the listing writes it. -/
def listed (number : Binary64) : String :=
  match number.kind with
  | .notANumber => "nan"
  | .infinite negative => signed negative ['i', 'n', 'f']
  | .finite negative magnitude => signed negative magnitude.listed

/-- A number as the tree view and the log write it. -/
def shown (number : Binary64) : String :=
  match number.kind with
  | .notANumber => "NaN"
  | .infinite negative => signed negative ['i', 'n', 'f']
  | .finite negative magnitude => signed negative magnitude.shown

end Binary64

end LuaChunk
