import LuaChunk.Wire.DecodeError
import LuaChunk.Wire.Record

/-!
# Steps of fixed size

A decoder takes bytes one block after the other, tells where it stands, keeps records and fails.
From these steps, which may be programs of any kind (`Primitives`), the numbers of the wire format
are read.
-/
namespace LuaChunk

/-- The steps from which a decoder is made, as programs of some kind. -/
structure Primitives (m : Type → Type) where
  /-- Where the decoder stands. -/
  position : m Nat
  /-- The number of bytes not read yet. -/
  remaining : m Nat
  /-- Fail here. -/
  fail {α : Type} : DecodeError → m α
  /-- Keep a record. -/
  log : Record → m Unit
  /-- Take a number of bytes. -/
  bytes : Nat → m (List UInt8)

namespace Primitives

variable {m : Type → Type} [Monad m] (primitives : Primitives m)

/-- The number that a given number of bytes denote. -/
def unsigned (width : Nat) : m Nat := return LittleEndian.decode (← primitives.bytes width)

/-- Read one byte. -/
def byte : m UInt8 := return UInt8.ofNat (← primitives.unsigned 1)

/-- Read a word of four bytes. -/
def word : m UInt32 := return UInt32.ofNat (← primitives.unsigned 4)

/-- Read a word of eight bytes. -/
def longWord : m UInt64 := return UInt64.ofNat (← primitives.unsigned 8)

/-- Read an integer: eight bytes in two's complement. -/
def integer : m Int64 := return (← primitives.longWord).toInt64

/-- Read a float: the eight bytes of its bits. -/
def number : m Binary64 := return ⟨← primitives.longWord⟩

end Primitives

end LuaChunk
