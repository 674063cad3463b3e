import LuaChunk.ByteString

/-!
# Bytes shown as text

`ByteString.toText` reads bytes as UTF-8. Bytes that spell no character are not dropped: each
longest run that begins a character without completing it, and each byte that can begin none,
becomes one replacement character. The reader is a fold over the bytes whose state is the text
so far and the character in progress, so the text of a concatenation continues the text of its
first part.
-/
namespace LuaChunk

namespace Utf8

/-- A character of several bytes that is not complete yet. The bounds on the next byte exclude
overlong forms, surrogates and numbers past the last code point. -/
structure Pending where
  /-- The bits read so far. -/
  scalar : Nat
  /-- The least next byte that continues the character. -/
  lowest : UInt8
  /-- The greatest next byte that continues the character. -/
  highest : UInt8
  /-- How many bytes follow the next one. -/
  further : Nat
  deriving DecidableEq

/-- What a byte means where a character may begin. -/
inductive Lead where
  /-- The byte is a character of its own. -/
  | character (character : Char)
  /-- The byte begins a character of several bytes. -/
  | opening (pending : Pending)
  /-- No character begins with the byte. -/
  | stray

/-- The meaning of a byte where a character may begin. -/
def lead (byte : UInt8) : Lead :=
  let value := byte.toNat
  if value < 0x80 then .character (Char.ofNat value)
  else if value < 0xC2 then .stray
  else if value < 0xE0 then .opening ⟨value - 0xC0, 0x80, 0xBF, 0⟩
  else if value = 0xE0 then .opening ⟨0x0, 0xA0, 0xBF, 1⟩
  else if value = 0xED then .opening ⟨0xD, 0x80, 0x9F, 1⟩
  else if value < 0xF0 then .opening ⟨value - 0xE0, 0x80, 0xBF, 1⟩
  else if value = 0xF0 then .opening ⟨0x0, 0x90, 0xBF, 2⟩
  else if value < 0xF4 then .opening ⟨value - 0xF0, 0x80, 0xBF, 2⟩
  else if value = 0xF4 then .opening ⟨0x4, 0x80, 0x8F, 2⟩
  else .stray

/-- The character that stands for bytes that spell none. -/
def replacement : Char := '\uFFFD'

/-- The state of the reader between two bytes. -/
structure State where
  /-- The text of the bytes already settled. -/
  text : String
  /-- The character in progress, if there is one. -/
  pending : Option Pending

/-- Take a byte where a character may begin, after the text so far. -/
def begin (text : String) (byte : UInt8) : State :=
  match lead byte with
  | .character character => ⟨text.push character, none⟩
  | .opening pending => ⟨text, some pending⟩
  | .stray => ⟨text.push replacement, none⟩

/-- Take one byte. A byte that does not continue the character in progress turns what was read
of it into a replacement character and then begins a character itself. -/
def step (state : State) (byte : UInt8) : State :=
  match state.pending with
  | none => begin state.text byte
  | some pending =>
    if pending.lowest ≤ byte ∧ byte ≤ pending.highest then
      let scalar := 64 * pending.scalar + (byte.toNat - 0x80)
      match pending.further with
      | 0 => ⟨state.text.push (Char.ofNat scalar), none⟩
      | further + 1 => ⟨state.text, some ⟨scalar, 0x80, 0xBF, further⟩⟩
    else begin (state.text.push replacement) byte

/-- The text of a state where the bytes end. -/
def State.finish (state : State) : String :=
  match state.pending with
  | none => state.text
  | some _ => state.text.push replacement

end Utf8

/-- The text of a byte string, with replacement characters for bytes that are not UTF-8. -/
def ByteString.toText (string : ByteString) : String :=
  (string.bytes.foldl Utf8.step ⟨"", none⟩).finish

end LuaChunk
