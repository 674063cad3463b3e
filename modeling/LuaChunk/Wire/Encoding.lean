import LuaChunk.Wire.Header
import LuaChunk.Prototype

/-!
# Writing a chunk

A function stands on the wire with two choices that reading it does not keep: it may leave its
name out, and a string among its constants carries one of two tags. `WireFunction` keeps both
choices. `WireFunction.encode` writes the bytes, and `WireFunction.resolve` gives the function
that the bytes describe to a reader, with the names that were left out filled in.
-/
namespace LuaChunk

/-- A constant as it stands on the wire. -/
inductive WireConstant where
  /-- The value nil. -/
  | nil
  /-- A truth value. -/
  | boolean (value : Bool)
  /-- An integer of 64 bits. -/
  | integer (value : Int64)
  /-- A float. -/
  | number (value : Binary64)
  /-- A string that the writer kept among its short strings. -/
  | shortString (value : ByteString)
  /-- A string that the writer kept among its long strings. -/
  | longString (value : ByteString)
  deriving DecidableEq

/-- A function as it stands on the wire. -/
structure WireFunction where
  /-- The name of the chunk, unless it is left out. -/
  source : Option ByteString
  /-- The line where the function begins. -/
  lineDefined : UInt32
  /-- The line where the function ends. -/
  lastLineDefined : UInt32
  /-- The number of fixed parameters. -/
  parameterCount : UInt8
  /-- Not zero if the function takes further arguments. -/
  varargFlag : UInt8
  /-- The number of registers the function needs. -/
  stackSize : UInt8
  /-- The instruction words. -/
  code : List UInt32
  /-- The constants. -/
  constants : List WireConstant
  /-- The upvalues. -/
  upvalues : List Upvalue
  /-- The functions nested directly in this one. -/
  functions : List WireFunction
  /-- What is remembered of the source. -/
  debug : DebugInfo

/-- The bytes of a string: its size and one more in front, in one byte if that suffices, and in
eight bytes after the escape otherwise. -/
def ByteString.encode (string : ByteString) : List UInt8 :=
  if string.size + 1 < 0xFF then UInt8.ofNat (string.size + 1) :: string.bytes
  else 0xFF :: LittleEndian.encode 8 (string.size + 1) ++ string.bytes

namespace WireConstant

/-- The tag of a constant. -/
def tag : WireConstant → Constant.Tag
  | nil => .nil
  | boolean _ => .boolean
  | integer _ => .integer
  | number _ => .number
  | shortString _ => .shortString
  | longString _ => .longString

/-- The bytes after the tag. -/
def payload : WireConstant → List UInt8
  | nil => []
  | boolean value => [if value then 1 else 0]
  | integer value => LittleEndian.encode 8 value.toUInt64.toNat
  | number value => LittleEndian.encode 8 value.bits.toNat
  | shortString value => value.encode
  | longString value => value.encode

/-- The bytes of a constant. -/
def encode (constant : WireConstant) : List UInt8 := constant.tag.byte :: constant.payload

/-- The constant that a reader finds. -/
def value : WireConstant → Constant
  | nil => .nil
  | boolean value => .boolean value
  | integer value => .integer value
  | number value => .number value
  | shortString value => .string value
  | longString value => .string value

end WireConstant

/-- The four bytes of a word. -/
def encodeWord (word : UInt32) : List UInt8 := LittleEndian.encode 4 word.toNat

/-- The bytes of a list: its length and then its elements. -/
def encodeList {α : Type} (encode : α → List UInt8) (items : List α) : List UInt8 :=
  LittleEndian.encode 4 items.length ++ items.flatMap encode

/-- The bytes of an upvalue. -/
def Upvalue.encode (upvalue : Upvalue) : List UInt8 := [upvalue.stackFlag, upvalue.index]

/-- The bytes of a local variable. -/
def LocalVariable.encode (named : LocalVariable) : List UInt8 :=
  named.name.encode ++ encodeWord named.start ++ encodeWord named.stop

/-- The bytes of the debug information. -/
def DebugInfo.encode (debug : DebugInfo) : List UInt8 :=
  encodeList encodeWord debug.lines ++ encodeList LocalVariable.encode debug.locals ++
    encodeList ByteString.encode debug.upvalueNames

namespace WireFunction

/-- The bytes of the name: a zero byte if it is left out. -/
def encodeSource : Option ByteString → List UInt8
  | none => [0]
  | some source => source.encode

mutual

/-- The bytes of a function with everything nested in it. -/
def encode : WireFunction → List UInt8
  | ⟨source, lineDefined, lastLineDefined, parameterCount, varargFlag, stackSize, code, constants,
      upvalues, functions, debug⟩ =>
    encodeSource source ++ encodeWord lineDefined ++ encodeWord lastLineDefined ++
      [parameterCount, varargFlag, stackSize] ++ encodeList encodeWord code ++
      encodeList WireConstant.encode constants ++ encodeList Upvalue.encode upvalues ++
      (LittleEndian.encode 4 functions.length ++ encodeAll functions) ++ debug.encode

/-- The bytes of several functions. -/
def encodeAll : List WireFunction → List UInt8
  | [] => []
  | first :: further => first.encode ++ encodeAll further

end

mutual

/-- The function that a reader finds. A name that is left out or empty is inherited. -/
def resolve (inherited : ByteString) : WireFunction → Prototype
  | ⟨source, lineDefined, lastLineDefined, parameterCount, varargFlag, stackSize, code, constants,
      upvalues, functions, debug⟩ =>
    let name := (source.getD .empty).orElse inherited
    ⟨name, lineDefined, lastLineDefined, parameterCount, varargFlag, stackSize, code,
      constants.map WireConstant.value, upvalues, resolveAll name functions, debug⟩

/-- The functions that a reader finds. -/
def resolveAll (inherited : ByteString) : List WireFunction → List Prototype
  | [] => []
  | first :: further => first.resolve inherited :: resolveAll inherited further

end

/-- The bytes of a chunk with the given byte between its header and its main function. -/
def encodeChunk (upvalueCount : UInt8) (main : WireFunction) : List UInt8 :=
  Header.standard.bytes ++ upvalueCount :: main.encode

end WireFunction

end LuaChunk
