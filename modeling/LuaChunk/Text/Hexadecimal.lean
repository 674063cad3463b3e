/-!
# Hexadecimal numerals

Offsets, tags and instruction words are written in base sixteen, with zeros in front up to a
least number of digits.
-/
namespace LuaChunk.Text

/-- The digits of a number in base sixteen, at least `width` of them. -/
def hexadecimalDigits (width value : Nat) : List Char :=
  (Nat.toDigits 16 value).leftpad width '0'

/-- A number in base sixteen with small letters, at least `width` digits wide. -/
def hexadecimal (width value : Nat) : String :=
  String.ofList (hexadecimalDigits width value)

/-- An offset: its hexadecimal numeral after `0x`. -/
def offset (position : Nat) : String := "0x" ++ hexadecimal 1 position

/-- A word as eight hexadecimal digits with capital letters, after `0x`. -/
def word (value : UInt32) : String :=
  "0x" ++ String.ofList ((hexadecimalDigits 8 value.toNat).map Char.toUpper)

end LuaChunk.Text
