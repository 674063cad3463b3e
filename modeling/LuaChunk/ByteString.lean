/-!
# Byte strings

A string of a chunk is a plain sequence of bytes: it carries no encoding, may hold any byte,
and is compared byte by byte. `ByteString.ofText` takes the UTF-8 bytes of a text; the way
back, which has to repair damaged bytes, is `ByteString.toText` in `LuaChunk.Text.Utf8`.
-/
namespace LuaChunk

/-- A string as a chunk stores it: bytes without an encoding. -/
structure ByteString where
  /-- The bytes in order. -/
  bytes : List UInt8
  deriving DecidableEq, Inhabited

namespace ByteString

/-- The string without bytes. -/
def empty : ByteString := ⟨[]⟩

/-- The number of bytes. -/
def size (string : ByteString) : Nat := string.bytes.length

/-- Whether the string has no bytes. -/
def isEmpty (string : ByteString) : Bool := string.bytes.isEmpty

/-- The UTF-8 bytes of a text. -/
def ofText (text : String) : ByteString := ⟨text.toUTF8.data.toList⟩

/-- The order of strings: the first byte that differs decides, and a proper beginning of a
string comes before it. -/
def order (left right : ByteString) : Ordering := compare left.bytes right.bytes

/-- This string if it has bytes, and otherwise the given one. -/
def orElse (string fallback : ByteString) : ByteString :=
  if string.isEmpty then fallback else string

/-- A string is empty exactly when it has no bytes. -/
theorem isEmpty_iff (string : ByteString) : string.isEmpty = true ↔ string = empty := by
  cases string with
  | mk bytes => cases bytes <;> simp [isEmpty, empty]

end ByteString

end LuaChunk
