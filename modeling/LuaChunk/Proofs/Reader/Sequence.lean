import LuaChunk.Proofs.Reader.Acceptance

/-!
# Readers as sequences

The readers of a chunk are sequences: they take blocks of bytes one after the other, keep
records, ask for their place, and give up (`Reader.Sequential`). What holds of each of these steps
and passes from two readers to the one after the other holds of every such reader. Two things
are shown in this way. A reader only goes forward (`Reader.Sequential.passes`). And more bytes
behind the unread ones change what a reader answers in one case only, which is that it ran out
of bytes: then it runs out of them later or goes on behind the bytes that it asked for
(`Reader.Sequential.grows`).
-/
namespace LuaChunk

namespace Cursor

/-- The same place with more bytes behind the unread ones. -/
def extend (cursor : Cursor) (more : List UInt8) : Cursor :=
  ⟨cursor.position, cursor.unread ++ more⟩

/-- More bytes are more remaining ones. -/
theorem remaining_extend (cursor : Cursor) (more : List UInt8) :
    (cursor.extend more).remaining = cursor.remaining + more.length := List.length_append

end Cursor

namespace Reader

variable {α β : Type}

/-- A reader may answer with a value. -/
def Returns (read : Reader α) (value : α) : Prop :=
  ∃ cursor, (read cursor).outcome = .ok value

/-- The error is not that bytes are missing. -/
def Settled (error : DecodeError) : Prop :=
  ∀ offset needed available, error ≠ .truncated offset needed available

/-- The readers that take bytes in blocks, one after the other. -/
inductive Sequential : {α : Type} → Reader α → Prop where
  /-- Read nothing. -/
  | pure {α : Type} (value : α) : Sequential (Pure.pure value : Reader α)
  /-- Give up, but not for want of bytes. -/
  | fail {α : Type} (error : DecodeError) (settled : Settled error) :
      Sequential (Reader.fail error : Reader α)
  /-- Keep a record. -/
  | log (record : Record) : Sequential (Reader.log record)
  /-- Ask for the place. -/
  | position : Sequential Reader.position
  /-- Take a block and announce its size if it is missing. -/
  | block (size : Nat) : Sequential (Reader.block size size)
  /-- Read one after the other. -/
  | bind {α β : Type} {read : Reader α} {next : α → Reader β} (head : Sequential read)
      (tail : ∀ value, read.Returns value → Sequential (next value)) : Sequential (read >>= next)

/-- A reader passes the bytes between the place where it begins and the place where it stops,
also if it fails. -/
theorem Sequential.passes {read : Reader α} (sequential : Sequential read) (cursor : Cursor) :
    ∃ written, cursor.Passes written (read cursor).stop := by
  induction sequential generalizing cursor with
  | pure value => exact ⟨[], (cursor.passes_nil cursor).mpr rfl⟩
  | fail error settled => exact ⟨[], (cursor.passes_nil cursor).mpr rfl⟩
  | log record => exact ⟨[], (cursor.passes_nil cursor).mpr rfl⟩
  | position => exact ⟨[], (cursor.passes_nil cursor).mpr rfl⟩
  | block size =>
    by_cases enough : size ≤ cursor.remaining
    · rw [block_of_le enough size]
      refine ⟨cursor.unread.take size, (List.take_append_drop size cursor.unread).symm, ?_⟩
      rw [List.length_take_of_le enough]
    · rw [block_of_lt (by omega) size]
      exact ⟨[], (cursor.passes_nil cursor).mpr rfl⟩
  | @bind _ _ read next _ _ ihHead ihTail =>
    obtain ⟨front, passesFront⟩ := ihHead cursor
    cases outcome : (read cursor).outcome with
    | error error =>
      rw [(bind_of_error outcome next).2]
      exact ⟨front, passesFront⟩
    | ok value =>
      obtain ⟨back, passesBack⟩ := ihTail value ⟨cursor, outcome⟩ (read cursor).stop
      rw [(bind_of_yields ⟨outcome, rfl⟩ next).2]
      exact ⟨front ++ back, (cursor.passes_append front back _).mpr ⟨_, passesFront, passesBack⟩⟩

/-- How a reading changes when more bytes stand behind the unread ones. -/
inductive Grows {α : Type} (more : List UInt8) : Reading α → Reading α → Prop where
  /-- The reader did not run out of bytes and does the same. -/
  | same (outcome : Except DecodeError α) (stop : Cursor) (records : List Record)
      (settled : ∀ error, outcome = .error error → Settled error) :
      Grows more ⟨outcome, stop, records⟩ ⟨outcome, stop.extend more, records⟩
  /-- The reader ran out of bytes and still does where it did. -/
  | short (needed : Nat) (stop : Cursor) (records : List Record)
      (short : stop.remaining + more.length < needed) :
      Grows more ⟨.error (.truncated stop.position needed stop.remaining), stop, records⟩
        ⟨.error (.truncated stop.position needed (stop.remaining + more.length)),
          stop.extend more, records⟩
  /-- The reader ran out of bytes and now takes those that it needed. -/
  | further (needed : Nat) (stop : Cursor) (records : List Record) (later : Reading α)
      (missing : stop.remaining < needed) (enough : needed ≤ stop.remaining + more.length)
      (reached : stop.position + needed ≤ later.stop.position)
      (kept : records <+: later.records) :
      Grows more ⟨.error (.truncated stop.position needed stop.remaining), stop, records⟩ later

/-- Records kept before change nothing. -/
theorem Grows.after {more : List UInt8} {reading later : Reading α}
    (grows : Grows more reading later) (earlier : List Record) :
    Grows more ⟨reading.outcome, reading.stop, earlier ++ reading.records⟩
      ⟨later.outcome, later.stop, earlier ++ later.records⟩ := by
  cases grows with
  | same outcome stop records settled => exact .same outcome stop _ settled
  | short needed stop records short => exact .short needed stop _ short
  | further needed stop records later missing enough reached kept =>
    have keptAll := (List.prefix_append_right_inj earlier).mpr kept
    exact .further needed stop _ _ missing enough reached keptAll

/-- A block is taken from more bytes as before, or it is still missing, or it is there now. -/
theorem block_grows (size : Nat) (cursor : Cursor) (more : List UInt8) :
    Grows more (block size size cursor) (block size size (cursor.extend more)) := by
  have remaining := cursor.remaining_extend more
  by_cases enough : size ≤ cursor.remaining
  · have within : size ≤ cursor.unread.length := enough
    have sameTaken : (cursor.extend more).unread.take size = cursor.unread.take size :=
      List.take_append_of_le_length within
    have sameRest : (cursor.extend more).unread.drop size = cursor.unread.drop size ++ more :=
      List.drop_append_of_le_length within
    have enoughMore : size ≤ (cursor.extend more).remaining := by omega
    rw [block_of_le enough size, block_of_le enoughMore size, sameTaken, sameRest]
    exact .same _ ⟨cursor.position + size, cursor.unread.drop size⟩ [] nofun
  · have missing : cursor.remaining < size := by omega
    rw [block_of_lt missing size]
    by_cases enoughMore : size ≤ (cursor.extend more).remaining
    · rw [block_of_le enoughMore size]
      rw [remaining] at enoughMore
      exact .further size cursor [] _ missing enoughMore (Nat.le_refl _) List.nil_prefix
    · have missingMore : (cursor.extend more).remaining < size := by omega
      rw [block_of_lt missingMore size, remaining]
      rw [remaining] at missingMore
      exact .short size cursor [] missingMore

/-- More bytes behind the unread ones matter only to a reader that ran out of them. -/
theorem Sequential.grows {read : Reader α} (sequential : Sequential read) (cursor : Cursor)
    (more : List UInt8) : Grows more (read cursor) (read (cursor.extend more)) := by
  induction sequential generalizing cursor with
  | pure value => exact .same (.ok value) cursor [] nofun
  | fail error settled =>
    refine .same (.error error) cursor [] fun other failed => ?_
    rw [← Except.error.inj failed]
    exact settled
  | log record => exact .same (.ok ()) cursor [record] nofun
  | position => exact .same (.ok cursor.position) cursor [] nofun
  | block size => exact block_grows size cursor more
  | @bind _ _ read next head tail ihHead ihTail =>
    have grows := ihHead cursor
    simp only [Bind.bind, andThen]
    generalize reading : read cursor = before at grows
    generalize readingMore : read (cursor.extend more) = after at grows
    cases grows with
    | same outcome stop records settled =>
      cases outcome with
      | error error =>
        exact .same (.error error) stop records fun other failed =>
          settled other (congrArg Except.error (Except.error.inj failed))
      | ok value =>
        have returns : read.Returns value := ⟨cursor, congrArg Reading.outcome reading⟩
        exact (ihTail value returns stop).after records
    | short needed stop records short => exact .short needed stop records short
    | further needed stop records _ missing enough reached kept =>
      -- What is read behind the bytes that were missing only goes on from there.
      obtain ⟨outcome, last, further⟩ := after
      cases outcome with
      | error error => exact .further needed stop records _ missing enough reached kept
      | ok value =>
        have returns : read.Returns value := ⟨_, congrArg Reading.outcome readingMore⟩
        obtain ⟨written, passes⟩ := (tail value returns).passes last
        have position := passes.position
        have forward : stop.position + needed ≤ (next value last).stop.position := by
          have here : stop.position + needed ≤ last.position := reached
          omega
        exact .further needed stop records _ missing enough forward
          (kept.trans (List.prefix_append _ _))

/-- A sequence whose second reader changes the value. -/
theorem Sequential.map {read : Reader α} (sequential : Sequential read) (change : α → β) :
    Sequential (read >>= fun value => Pure.pure (change value)) :=
  sequential.bind fun value _ => .pure (change value)

/-- A reader that knows its place is a sequence if it is one at every place. -/
theorem sequential_position_bind {next : Nat → Reader β}
    (every : ∀ place, Sequential (next place)) :
    Sequential (position >>= next) := Sequential.position.bind fun place _ => every place

/-- A record in front of a sequence. -/
theorem sequential_log_bind {record : Record} {next : Reader β} (sequential : Sequential next) :
    Sequential (log record >>= fun _ => next) :=
  (Sequential.log record).bind fun _ _ => sequential

/-- What a reader may answer is spelled in the grammar that it accepts. -/
theorem Accepts.of_returns {read : Reader α} {grammar : α → List UInt8 → Prop}
    (accepts : read.Accepts grammar) {value : α} (returns : read.Returns value) :
    ∃ written, grammar value written := by
  obtain ⟨cursor, answers⟩ := returns
  obtain ⟨written, spelled, _⟩ := (accepts.yields_iff cursor value _).mp ⟨answers, rfl⟩
  exact ⟨written, spelled⟩

/-- A number is read as one block. -/
theorem unsigned_sequential (width : Nat) : Sequential (unsigned width) :=
  (Sequential.block width).map LittleEndian.decode

/-- A byte is read as one block. -/
theorem byte_sequential : Sequential byte := (unsigned_sequential 1).map UInt8.ofNat

/-- A word is read as one block. -/
theorem word_sequential : Sequential word := (unsigned_sequential 4).map UInt32.ofNat

/-- A word of eight bytes is read as one block. -/
theorem longWord_sequential : Sequential longWord := (unsigned_sequential 8).map UInt64.ofNat

/-- An integer is read as one block. -/
theorem integer_sequential : Sequential integer := longWord_sequential.map UInt64.toInt64

/-- A float is read as one block. -/
theorem number_sequential : Sequential number := longWord_sequential.map Binary64.mk

/-- Words are read as one block that announces its size, if their number comes from four bytes. -/
theorem words_sequential (count : Nat) (fits : count < Nat.pow 2 32) :
    Sequential (words count) := by
  rw [words_eq count fits]
  exact (Sequential.block (4 * count)).map LittleEndian.words

/-- The size of a string is read in one or two blocks. -/
theorem stringSize_sequential : Sequential stringSize := by
  apply byte_sequential.bind
  intro first _
  split
  · exact longWord_sequential.map UInt64.toNat
  · exact .pure first.toNat

/-- A string is read in blocks. -/
theorem string_sequential (limit : Nat) : Sequential (string limit) := by
  apply sequential_position_bind
  intro offset
  apply stringSize_sequential.bind
  intro size _
  split
  · exact .pure _
  split
  · exact .fail _ nofun
  · exact (Sequential.block (size - 1)).map ByteString.mk

/-- Several elements are read as sequences one after the other. -/
theorem times_sequential {element : Reader α} (sequential : Sequential element) (count : Nat) :
    Sequential (times element count) := by
  induction count with
  | zero =>
    rw [times_zero]
    exact .pure []
  | succ count ih =>
    rw [times_succ]
    exact sequential.bind fun first _ => ih.map (first :: ·)

end Reader

end LuaChunk
