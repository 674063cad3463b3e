import LuaChunk.Decimal.Binary64
import LuaChunk.LittleEndian
import LuaChunk.Decimal.Notation
import LuaChunk.Text.Outline

/-!
# The header of a chunk

A chunk begins with a signature, a version, and samples of the number formats of its writer.
A reader accepts exactly one header, the one a stock 64-bit build of Lua 5.3 writes, and names
the first field that differs. `Header.fields` lists the fields with their bytes in wire order,
so the bytes of a header, the width of a field and its place all come from one table.
-/
namespace LuaChunk

/-- A field of the header. -/
inductive HeaderField where
  /-- The four bytes every chunk begins with. -/
  | signature
  /-- The version of the language. -/
  | version
  /-- The version of the format. -/
  | format
  /-- Bytes that a transfer in text mode would damage. -/
  | transferCheck
  /-- The size of an int of the writer. -/
  | intSize
  /-- The size of a string size. -/
  | stringSizeSize
  /-- The size of an instruction. -/
  | instructionSize
  /-- The size of an integer. -/
  | integerSize
  /-- The size of a float. -/
  | numberSize
  /-- A sample integer, which shows the order of bytes. -/
  | integerSample
  /-- A sample float, which shows the float format. -/
  | numberSample
  deriving DecidableEq, Inhabited

namespace HeaderField

/-- What a wrong field means for the reader of a chunk. -/
def message : HeaderField → String
  | signature => "not a precompiled chunk"
  | version => "version mismatch"
  | format => "format mismatch"
  | transferCheck => "corrupted"
  | intSize => "int size mismatch"
  | stringSizeSize => "size_t size mismatch"
  | instructionSize => "Instruction size mismatch"
  | integerSize => "lua_Integer size mismatch"
  | numberSize => "lua_Number size mismatch"
  | integerSample => "endianness mismatch"
  | numberSample => "float format mismatch"

/-- The name of a field in the one-line form of an error. -/
def name : HeaderField → String
  | signature => "Signature"
  | version => "Version"
  | format => "Format"
  | transferCheck => "LuacData"
  | intSize => "IntSize"
  | stringSizeSize => "SizeTSize"
  | instructionSize => "InstructionSize"
  | integerSize => "IntegerSize"
  | numberSize => "NumberSize"
  | integerSample => "Endianness"
  | numberSample => "FloatFormat"

/-- The fields in wire order. -/
def all : List HeaderField :=
  [signature, version, format, transferCheck, intSize, stringSizeSize, instructionSize,
    integerSize, numberSize, integerSample, numberSample]

end HeaderField

/-- The fields of a header. -/
structure Header where
  /-- The four bytes every chunk begins with. -/
  signature : List UInt8
  /-- The version of the language, a digit of the major and one of the minor version. -/
  version : UInt8
  /-- The version of the format. -/
  format : UInt8
  /-- Bytes that a transfer in text mode would damage. -/
  transferCheck : List UInt8
  /-- The size of an int of the writer. -/
  intSize : UInt8
  /-- The size of a string size. -/
  stringSizeSize : UInt8
  /-- The size of an instruction. -/
  instructionSize : UInt8
  /-- The size of an integer. -/
  integerSize : UInt8
  /-- The size of a float. -/
  numberSize : UInt8
  /-- The sample integer. -/
  integerSample : Int64
  /-- The sample float. -/
  numberSample : Binary64
  deriving DecidableEq

namespace Header

/-- The header that a stock 64-bit build of Lua 5.3 writes. -/
def standard : Header where
  signature := [0x1B, 0x4C, 0x75, 0x61]
  version := 0x53
  format := 0
  transferCheck := [0x19, 0x93, 0x0D, 0x0A, 0x1A, 0x0A]
  intSize := 4
  stringSizeSize := 8
  instructionSize := 4
  integerSize := 8
  numberSize := 8
  integerSample := 0x5678
  numberSample := ⟨0x4077280000000000⟩

/-- The fields with their bytes, in wire order. -/
def fields (header : Header) : List (HeaderField × List UInt8) :=
  [(.signature, header.signature),
    (.version, [header.version]),
    (.format, [header.format]),
    (.transferCheck, header.transferCheck),
    (.intSize, [header.intSize]),
    (.stringSizeSize, [header.stringSizeSize]),
    (.instructionSize, [header.instructionSize]),
    (.integerSize, [header.integerSize]),
    (.numberSize, [header.numberSize]),
    (.integerSample, LittleEndian.encode 8 header.integerSample.toUInt64.toNat),
    (.numberSample, LittleEndian.encode 8 header.numberSample.bits.toNat)]

/-- The bytes of a header. -/
def bytes (header : Header) : List UInt8 := header.fields.flatMap Prod.snd

/-- Bytes laid out as a list of numbers. -/
def byteList (bytes : List UInt8) : Outline :=
  .list (bytes.map fun byte => .natural byte.toNat)

/-- A header laid out for the log. -/
def outline (header : Header) : Outline :=
  .record "Header"
    [.field "signature" (byteList header.signature),
      .field "version" (.natural header.version.toNat),
      .field "format" (.natural header.format.toNat),
      .field "luac_data" (byteList header.transferCheck),
      .field "size_int" (.natural header.intSize.toNat),
      .field "size_size_t" (.natural header.stringSizeSize.toNat),
      .field "size_instruction" (.natural header.instructionSize.toNat),
      .field "size_integer" (.natural header.integerSize.toNat),
      .field "size_number" (.natural header.numberSize.toNat),
      .field "luac_int" (.leaf (toString header.integerSample.toInt)),
      .field "luac_num" (.leaf header.numberSample.shown)]

/-- The standard header has 33 bytes. -/
theorem length_bytes_standard : standard.bytes.length = 33 := by decide

end Header

end LuaChunk
