import LuaChunk.Wire.Primitives

/-!
# Reading bytes

A reader takes a value from the unread bytes at a cursor. It answers with the value or the
error, the cursor where it stopped, which is kept after an error too, and the records of what it
read. Readers compose in sequence: the first error ends the sequence where it arose.

All bytes are taken by `Reader.block`, which either takes all bytes asked for or fails without
moving. Repetition reads with accumulators, so that long lists need no deep recursion;
`Reader.times_succ` gives its meaning, one element and then the others.
-/
namespace LuaChunk

/-- A place in a chunk with the bytes from there on. -/
structure Cursor where
  /-- The number of bytes before the place. -/
  position : Nat
  /-- The bytes not read yet. -/
  unread : List UInt8
  deriving DecidableEq, Inhabited

namespace Cursor

/-- The cursor at the beginning of bytes. -/
def start (bytes : List UInt8) : Cursor := ⟨0, bytes⟩

/-- The number of bytes not read yet. -/
def remaining (cursor : Cursor) : Nat := cursor.unread.length

/-- Whether all bytes are read. -/
def atEnd (cursor : Cursor) : Bool := cursor.unread.isEmpty

end Cursor

/-- Equality of outcomes is decidable. -/
instance decidableEqOutcome {α β : Type} [DecidableEq α] [DecidableEq β] :
    DecidableEq (Except α β)
  | .error left, .error right => decidable_of_iff (left = right) (by simp)
  | .ok left, .ok right => decidable_of_iff (left = right) (by simp)
  | .error _, .ok _ => isFalse nofun
  | .ok _, .error _ => isFalse nofun

/-- What a reader answers. -/
structure Reading (α : Type) where
  /-- The value read, or why there is none. -/
  outcome : Except DecodeError α
  /-- Where the reader stopped. -/
  stop : Cursor
  /-- What it read, in order. -/
  records : List Record
  deriving DecidableEq

/-- A reader of values. -/
def Reader (α : Type) := Cursor → Reading α

namespace Reader

variable {α β : Type}

/-- Read with one reader and then with another one that may depend on the value. -/
def andThen (read : Reader α) (next : α → Reader β) : Reader β := fun cursor =>
  match read cursor with
  | ⟨.error error, stop, records⟩ => ⟨.error error, stop, records⟩
  | ⟨.ok value, stop, records⟩ =>
    let later := next value stop
    ⟨later.outcome, later.stop, records ++ later.records⟩

instance : Monad Reader where
  pure value := fun cursor => ⟨.ok value, cursor, []⟩
  bind := andThen

/-- Reading nothing before or after a reader changes nothing, and three readers in sequence may
be grouped either way. -/
instance : LawfulMonad Reader := LawfulMonad.mk' Reader
  (fun read => by
    funext cursor
    simp only [Functor.map, andThen, Function.comp]
    rcases read cursor with ⟨_ | _, _, _⟩ <;> simp)
  (fun value next => by
    funext cursor
    simp [bind, pure, andThen])
  (fun read next last => by
    funext cursor
    simp only [bind, andThen]
    rcases read cursor with ⟨_ | value, stop, _⟩
    · rfl
    · dsimp only
      rcases next value stop with ⟨_ | _, _, _⟩ <;> simp)

/-- Fail here. -/
def fail (error : DecodeError) : Reader α := fun cursor => ⟨.error error, cursor, []⟩

/-- Keep a record. -/
def log (record : Record) : Reader Unit := fun cursor => ⟨.ok (), cursor, [record]⟩

/-- Where the reader stands. -/
def position : Reader Nat := fun cursor => ⟨.ok cursor.position, cursor, []⟩

/-- The number of bytes not read yet. -/
def remaining : Reader Nat := fun cursor => ⟨.ok cursor.remaining, cursor, []⟩

/-- Take a number of bytes, or fail without moving. An error announces the given size. -/
def block (size announced : Nat) : Reader (List UInt8) := fun cursor =>
  let taken := cursor.unread.take size
  if taken.length = size then
    ⟨.ok taken, ⟨cursor.position + size, cursor.unread.drop size⟩, []⟩
  else ⟨.error (.truncated cursor.position announced cursor.remaining), cursor, []⟩

/-- Take a number of bytes. -/
def bytes (size : Nat) : Reader (List UInt8) := block size size

/-- Readers as the steps of a decoder. -/
def primitives : Primitives Reader where
  position := position
  remaining := remaining
  fail := fail
  log := log
  bytes := bytes

/-- The number that a given number of bytes denote. -/
def unsigned (width : Nat) : Reader Nat := primitives.unsigned width

/-- Read one byte. -/
def byte : Reader UInt8 := primitives.byte

/-- Read a word of four bytes. -/
def word : Reader UInt32 := primitives.word

/-- Read a word of eight bytes. -/
def longWord : Reader UInt64 := primitives.longWord

/-- Read an integer. -/
def integer : Reader Int64 := primitives.integer

/-- Read a float. -/
def number : Reader Binary64 := primitives.number

/-- Read a number of words of four bytes in one block. The size that an error announces is at
most the greatest number of eight bytes. -/
def words (count : Nat) : Reader (List UInt32) :=
  return LittleEndian.words (← block (4 * count) (min (4 * count) (Nat.pow 2 64 - 1)))

/-- The size byte that says that the size follows in eight bytes. -/
def sizeEscape : UInt8 := 0xFF

/-- Read the size in front of a string: one byte, or eight after the escape. -/
def stringSize : Reader Nat := do
  let first ← byte
  if first = sizeEscape then return (← longWord).toNat else return first.toNat

/-- Read a string. The size in front of it is one more than its number of bytes, and zero stands
for the empty string too. A string above the limit is refused before its bytes are looked at. -/
def string (limit : Nat) : Reader ByteString := do
  let offset ← position
  let size ← stringSize
  if size = 0 then return .empty
  else if limit < size - 1 then fail (.limitExceeded "string" (size - 1) limit offset)
  else return ⟨← bytes (size - 1)⟩

/-- Read a number of elements after those that are already read, all in reverse order. -/
def timesInto (element : Reader α) : Nat → List α → List Record → Reader (List α)
  | 0, values, records, cursor => ⟨.ok values.reverse, cursor, records.reverse⟩
  | count + 1, values, records, cursor =>
    match element cursor with
    | ⟨.error error, stop, further⟩ =>
      ⟨.error error, stop, (further.reverse ++ records).reverse⟩
    | ⟨.ok value, stop, further⟩ =>
      timesInto element count (value :: values) (further.reverse ++ records) stop

/-- Read a number of elements. -/
def times (element : Reader α) (count : Nat) : Reader (List α) :=
  timesInto element count [] []

/-- What is read already stays in front of what is read next. -/
theorem timesInto_eq (element : Reader α) (count : Nat) (values : List α)
    (records : List Record) (cursor : Cursor) :
    timesInto element count values records cursor =
      ⟨(times element count cursor).outcome.map (values.reverse ++ ·),
        (times element count cursor).stop,
        records.reverse ++ (times element count cursor).records⟩ := by
  induction count generalizing values records cursor with
  | zero => simp [times, timesInto, Except.map]
  | succ count ih =>
    simp only [times, timesInto]
    rcases element cursor with ⟨outcome | value, stop, further⟩
    · simp [Except.map]
    · simp only [List.append_nil]
      rw [ih (value :: values), ih [value]]
      cases (times element count stop).outcome <;> simp [Except.map]

/-- No element is read without moving. -/
theorem times_zero (element : Reader α) : times element 0 = pure [] := rfl

/-- Several elements are read one after the other. -/
theorem times_succ (element : Reader α) (count : Nat) :
    times element (count + 1) = (do
      let first ← element
      let further ← times element count
      return first :: further) := by
  funext cursor
  simp only [times, timesInto, bind, andThen, pure]
  rcases element cursor with ⟨outcome | value, stop, records⟩
  · simp
  · simp only [List.append_nil]
    rw [timesInto_eq, ← times]
    rcases times element count stop with ⟨outcome | values, last, further⟩ <;>
      simp [Except.map]

end Reader

end LuaChunk
