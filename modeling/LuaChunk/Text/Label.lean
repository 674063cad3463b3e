import LuaChunk.Text.Hexadecimal
import LuaChunk.Text.Invisible

/-!
# Labels between double quotes

The one-line form of an error quotes the label of a part of the chunk: the double quote and the
backslash after a backslash, the usual names for zero, tab, carriage return and line feed, and
the code point of every other character that has no shape of its own.
-/
namespace LuaChunk.Text

/-- The characters that stand for one character of a label. -/
def labelCharacter (character : Char) : List Char :=
  if character = '\x00' then ['\\', '0']
  else if character = '\t' then ['\\', 't']
  else if character = '\r' then ['\\', 'r']
  else if character = '\n' then ['\\', 'n']
  else if character = '"' then ['\\', '"']
  else if character = '\\' then ['\\', '\\']
  else if isInvisible character then
    '\\' :: 'u' :: '\x7b' :: hexadecimalDigits 1 character.toNat ++ ['\x7d']
  else [character]

/-- A text between double quotes. -/
def label (text : String) : String :=
  String.ofList ('"' :: text.toList.flatMap labelCharacter ++ ['"'])

end LuaChunk.Text
