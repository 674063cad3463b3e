import LuaChunk.Proofs.Faults
import LuaChunk.Proofs.Truncation

/-!
# Errors when more bytes follow

An error also says what becomes of it when more bytes are put behind the chunk
(`DecodeError.Announces`). An error about bytes that are there stays as it is. Bytes that are
missing stay missing until as many have been added as the error asks for, and then reading gets
at least as far as the last of these. `decode_append_announced` says that every error announces
this rightly.
-/
namespace LuaChunk

/-- What an error says about longer bytes that begin with those it was reported for. -/
def DecodeError.Announces (policy : Policy) (longer : List UInt8) : DecodeError → Prop
  -- All bytes from the same place on are trailing.
  | trailingBytes offset _ =>
    ∃ count, offset + count = longer.length ∧
      decode policy longer = .error (.trailingBytes offset count)
  -- The same bytes are missing until there are enough, and after that only later ones are.
  | truncated offset needed _ =>
    (longer.length < offset + needed → ∃ available, offset + available = longer.length ∧
      decode policy longer = .error (.truncated offset needed available)) ∧
    (offset + needed ≤ longer.length → ∀ later wanted available,
      decode policy longer = .error (.truncated later wanted available) →
        offset + needed ≤ later)
  -- The error is about bytes that are there.
  | error => decode policy longer = .error error

/-- If the beginning of a chunk is cut off, then its reader stops where bytes are missing. -/
theorem Reader.mainFunction_truncated_stop {policy : Policy} {bytes : List UInt8}
    {offset needed available : Nat}
    (failed : (mainFunction policy (.start bytes)).outcome =
      .error (.truncated offset needed available)) :
    (mainFunction policy (.start bytes)).stop.position = offset := by
  have faults := (mainFunction_failsBy policy bytes).faults _ failed
  have stop : (mainFunction policy (Cursor.inside bytes 0)).stop.position = offset := by
    generalize (mainFunction policy (Cursor.inside bytes 0)).stop.position = place at faults ⊢
    rcases faults with fault | fault
    · cases fault
      rfl
    · cases fault
      rfl
  exact stop

/-- Reading the beginning of a chunk does not fail because bytes follow. -/
theorem Reader.mainFunction_error_ne_trailingBytes {policy : Policy} {bytes : List UInt8}
    {error : DecodeError} (failed : (mainFunction policy (.start bytes)).outcome = .error error)
    (offset count : Nat) : error ≠ .trailingBytes offset count := by
  rintro rfl
  have faults := (mainFunction_failsBy policy bytes).faults _ failed
  rcases faults with fault | fault
  · cases fault
  · cases fault

/-- An error that is not about missing bytes is reported again if the beginning of the longer
chunk fails with it. -/
theorem DecodeError.announces_of_settled {policy : Policy} {longer : List UInt8}
    {error : DecodeError} (settled : Reader.Settled error)
    (failed : (Reader.mainFunction policy (.start longer)).outcome = .error error) :
    error.Announces policy longer := by
  have again := (Reader.chunk_fails_iff policy (.start longer) error).mpr (.inl failed)
  cases error with
  | truncated offset needed available => exact absurd rfl (settled offset needed available)
  | trailingBytes offset count =>
    exact absurd rfl (Reader.mainFunction_error_ne_trailingBytes failed offset count)
  | headerMismatch => exact again
  | unknownTag => exact again
  | limitExceeded => exact again
  | nestedTooDeep => exact again

/-- How the reading of the beginning of a chunk grows with more bytes behind the chunk. -/
theorem Reader.mainFunction_grows (policy : Policy) (bytes more : List UInt8) :
    Grows more (mainFunction policy (.start bytes))
      (mainFunction policy (.start (bytes ++ more))) :=
  (mainFunction_sequential policy).grows (.start bytes) more

/-- An error in the beginning of a chunk announces rightly what reading longer bytes leads to. -/
theorem DecodeError.announces_of_mainFunction {policy : Policy} {bytes : List UInt8}
    {error : DecodeError} (more : List UInt8)
    (failed : (Reader.mainFunction policy (.start bytes)).outcome = .error error) :
    error.Announces policy (bytes ++ more) := by
  have grows := Reader.mainFunction_grows policy bytes more
  have total := Reader.mainFunction_stop_total policy bytes
  have length : (bytes ++ more).length = bytes.length + more.length := List.length_append
  have reported := Reader.chunk_fails_iff policy (.start (bytes ++ more))
  generalize before : Reader.mainFunction policy (.start bytes) = reading at failed grows total
  generalize after : Reader.mainFunction policy (.start (bytes ++ more)) = readingMore at grows
  cases grows with
  | same outcome stop records settled =>
    apply announces_of_settled (settled error failed)
    rw [after]
    exact failed
  | short needed stop records short =>
    obtain rfl := Except.error.inj failed
    have place : stop.position + stop.remaining = bytes.length := total
    constructor
    · intro _
      refine ⟨stop.remaining + more.length, by omega, (reported _).mpr (.inl ?_)⟩
      rw [after]
    · intro enough
      omega
  | further needed stop records _ missing enough reached kept =>
    obtain rfl := Except.error.inj failed
    have place : stop.position + stop.remaining = bytes.length := total
    constructor
    · intro short
      omega
    · intro _ later wanted available failedLater
      rcases (reported _).mp failedLater with beginning | ⟨_, _, _, _, _, other⟩
      · have laterStop := Reader.mainFunction_truncated_stop beginning
        rw [after] at laterStop
        rw [← laterStop]
        exact reached
      · contradiction

/-- Every error announces rightly what reading longer bytes leads to. -/
theorem decode_append_announced (policy : Policy) (bytes more : List UInt8) (error : DecodeError)
    (failed : decode policy bytes = .error error) :
    error.Announces policy (bytes ++ more) := by
  rcases (Reader.chunk_fails_iff policy (.start bytes) error).mp failed with
    beginning | ⟨tree, stop, yields, some, strict, rfl⟩
  · exact DecodeError.announces_of_mainFunction more beginning
  · -- The main function ends where it did, and what follows it has become longer.
    have total := Reader.mainFunction_stop_total policy bytes
    rw [yields.2] at total
    have within : stop.position ≤ bytes.length := by omega
    have same : (bytes ++ more).take stop.position = bytes.take stop.position :=
      List.take_append_of_le_length within
    have yieldsMore := Reader.mainFunction_yields_of_take_eq policy yields same
    have left : 0 < stop.remaining := List.length_pos_iff.mpr some
    have leftMore : ((bytes ++ more).drop stop.position).length =
        bytes.length + more.length - stop.position := by
      rw [List.length_drop, List.length_append]
    have someMore : (bytes ++ more).drop stop.position ≠ [] := by
      apply List.ne_nil_of_length_pos
      omega
    refine ⟨((bytes ++ more).drop stop.position).length, ?_, ?_⟩
    · rw [leftMore, List.length_append]
      omega
    · exact (Reader.chunk_fails_iff policy (.start (bytes ++ more)) _).mpr
        (.inr ⟨tree, _, yieldsMore, someMore, strict, rfl⟩)

/-- A name of four bytes, one of which is there, is still cut off with one more byte. With all of
them the line behind it is missing. -/
theorem decode_append_announced_name :
    let bytes := Header.standard.bytes ++ [1, 5, 0x61]
    decode .default bytes = .error (.truncated 35 4 1) ∧
      (DecodeError.truncated 35 4 1).Announces .default (bytes ++ [0x62]) ∧
      (∃ available, 35 + available = 37 ∧
        decode .default (bytes ++ [0x62]) = .error (.truncated 35 4 available)) ∧
      ∀ later wanted available,
        decode .default (bytes ++ [0x62, 0x63, 0x64]) = .error (.truncated later wanted available) →
          39 ≤ later := by
  intro bytes
  have failed : decode .default bytes = .error (.truncated 35 4 1) := by decide +kernel
  have short := decode_append_announced .default bytes [0x62] _ failed
  have enough := decode_append_announced .default bytes [0x62, 0x63, 0x64] _ failed
  exact ⟨failed, short, short.1 (by decide), enough.2 (by decide)⟩

end LuaChunk
