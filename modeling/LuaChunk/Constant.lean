import LuaChunk.Decimal.Notation
import LuaChunk.Text.Escaped
import LuaChunk.Text.Outline
import LuaChunk.Text.Quoted

/-!
# Constants

A function keeps the literal values of its code in a list of constants. On the wire a constant
is a tag byte and a payload. Short and long strings have tags of their own but are the same kind
of value once read. Numbers are compared by their bits.
-/
namespace LuaChunk

/-- A constant of a function. -/
inductive Constant where
  /-- The value nil. -/
  | nil
  /-- A truth value. -/
  | boolean (value : Bool)
  /-- An integer of 64 bits. -/
  | integer (value : Int64)
  /-- A float. -/
  | number (value : Binary64)
  /-- A string. -/
  | string (value : ByteString)
  deriving DecidableEq, Inhabited

namespace Constant

/-- The tags of the wire format. -/
inductive Tag where
  /-- No payload. -/
  | nil
  /-- One byte, false exactly when it is zero. -/
  | boolean
  /-- The eight bytes of a float. -/
  | number
  /-- A string that the writer kept among its short strings. -/
  | shortString
  /-- The eight bytes of an integer. -/
  | integer
  /-- A string that the writer kept among its long strings. -/
  | longString
  deriving DecidableEq

namespace Tag

/-- All tags, by increasing tag byte. -/
def all : List Tag := [nil, boolean, number, shortString, integer, longString]

/-- The tag byte. -/
def byte : Tag → UInt8
  | nil => 0x00
  | boolean => 0x01
  | number => 0x03
  | shortString => 0x04
  | integer => 0x13
  | longString => 0x14

/-- The tag of a tag byte, if there is one. -/
def ofByte? (byte : UInt8) : Option Tag := all.find? fun tag => tag.byte = byte

/-- The name of a tag. -/
def name : Tag → String
  | nil => "Nil"
  | boolean => "Boolean"
  | number => "Number"
  | shortString => "ShortString"
  | integer => "Integer"
  | longString => "LongString"

/-- Every tag is found by its byte. -/
@[simp] theorem ofByte?_byte (tag : Tag) : ofByte? tag.byte = some tag := by
  cases tag <;> decide

/-- A byte denotes only the tag that has it. -/
theorem byte_of_ofByte? {byte : UInt8} {tag : Tag} (found : ofByte? byte = some tag) :
    tag.byte = byte := by
  simpa using List.find?_some found

end Tag

/-- A constant as the listing writes it. -/
def listed : Constant → String
  | nil => "nil"
  | boolean value => toString value
  | integer value => toString value.toInt
  | number value => value.listed
  | string value => value.quoted

/-- A constant laid out for the tree view and the log. -/
def outline : Constant → Outline
  | nil => .leaf "Nil"
  | boolean value => .variant "Boolean" (.leaf (toString value))
  | integer value => .variant "Integer" (.leaf (toString value.toInt))
  | number value => .variant "Number" (.leaf value.shown)
  | string value => .variant "String" (.leaf value.escaped)

end Constant

end LuaChunk
