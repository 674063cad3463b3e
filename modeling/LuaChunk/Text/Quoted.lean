import LuaChunk.ByteString

/-!
# Strings as Lua source quotes them

The listing writes string constants as Lua would: between double quotes, with the named
escapes of the language, and every other byte outside the printable ASCII range as a backslash
and three decimal digits. Three digits are written even where fewer would do, so a digit that
follows the escape is never read as part of it.
-/
namespace LuaChunk

namespace Text

/-- The last three decimal digits of a number. -/
def threeDigits (value : Nat) : List Char :=
  [Nat.digitChar (value / 100 % 10), Nat.digitChar (value / 10 % 10), Nat.digitChar (value % 10)]

/-- The characters that stand for one byte of a quoted string. -/
def quotedByte (byte : UInt8) : List Char :=
  if byte = 0x22 then ['\\', '"']
  else if byte = 0x5C then ['\\', '\\']
  else if byte = 0x07 then ['\\', 'a']
  else if byte = 0x08 then ['\\', 'b']
  else if byte = 0x0C then ['\\', 'f']
  else if byte = 0x0A then ['\\', 'n']
  else if byte = 0x0D then ['\\', 'r']
  else if byte = 0x09 then ['\\', 't']
  else if byte = 0x0B then ['\\', 'v']
  else if 0x20 ≤ byte ∧ byte ≤ 0x7E then [Char.ofNat byte.toNat]
  else '\\' :: threeDigits byte.toNat

end Text

/-- A byte string as a quoted string of Lua source. -/
def ByteString.quoted (string : ByteString) : String :=
  String.ofList ('"' :: string.bytes.flatMap Text.quotedByte ++ ['"'])

end LuaChunk
