import LuaChunk.ByteString
import LuaChunk.Text.Hexadecimal

/-!
# Strings with escapes

The tree view and the log write strings between double quotes with every byte visible: a tab,
a carriage return, a line feed, both quotes and the backslash after a backslash, every other
byte outside the printable ASCII range by its two hexadecimal digits.
-/
namespace LuaChunk

namespace Text

/-- The single quote. -/
def apostrophe : Char := Char.ofNat 39

/-- The characters that stand for one byte between double quotes. -/
def escapedByte (byte : UInt8) : List Char :=
  let character := Char.ofNat byte.toNat
  if character = '\t' then ['\\', 't']
  else if character = '\r' then ['\\', 'r']
  else if character = '\n' then ['\\', 'n']
  else if character = apostrophe then ['\\', apostrophe]
  else if character = '"' then ['\\', '"']
  else if character = '\\' then ['\\', '\\']
  else if 0x20 ≤ byte ∧ byte ≤ 0x7E then [character]
  else '\\' :: 'x' :: hexadecimalDigits 2 byte.toNat

end Text

/-- A byte string between double quotes with every byte visible. -/
def ByteString.escaped (string : ByteString) : String :=
  String.ofList ('"' :: string.bytes.flatMap Text.escapedByte ++ ['"'])

end LuaChunk
