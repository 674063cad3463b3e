import LuaChunk.Proofs.Reader.Acceptance

/-!
# How readers fail

A reader that begins inside some bytes stops inside them, and its failures can be described by
the error and the place where it stops (`Reader.FailsBy`). The description speaks about the bytes
as a whole and not about the part where a reader begins, so that it stays true when the reader is
the second of a sequence: what fails in a sequence fails in one of its readers, and the second
one begins where the first one stops. A failure to take bytes is described by one assumption,
that bytes which end too early are a fault.
-/
namespace LuaChunk

/-- Some bytes stand at a place in others. -/
def StandsAt (bytes : List UInt8) (place : Nat) (part : List UInt8) : Prop :=
  part <+: bytes.drop place

/-- The cursor at a place in bytes. -/
def Cursor.inside (bytes : List UInt8) (place : Nat) : Cursor := ⟨place, bytes.drop place⟩

/-- The bytes that a cursor passes stand where it begins, and it stops in the same bytes. -/
theorem Cursor.passes_inside_iff (bytes : List UInt8) (place : Nat) (written : List UInt8)
    (stop : Cursor) :
    (Cursor.inside bytes place).Passes written stop ↔
      StandsAt bytes place written ∧ stop = Cursor.inside bytes (place + written.length) := by
  constructor
  · intro passes
    obtain ⟨unread, position⟩ := passes
    have rest : bytes.drop place = written ++ stop.unread := unread
    refine ⟨⟨stop.unread, rest.symm⟩, ?_⟩
    have behind : bytes.drop (place + written.length) = stop.unread := by
      rw [← List.drop_drop, rest, List.drop_left]
    cases stop
    simp only [inside, behind]
    exact congrArg (Cursor.mk · _) position
  · intro stands
    obtain ⟨⟨rest, same⟩, rfl⟩ := stands
    have behind : bytes.drop (place + written.length) = rest := by
      rw [← List.drop_drop, ← same, List.drop_left]
    refine ⟨?_, rfl⟩
    rw [inside, inside, behind]
    exact same.symm

/-- Bytes that stand at a place are not longer than what follows the place. -/
theorem StandsAt.length_le {bytes : List UInt8} {place : Nat} {part : List UInt8}
    (stands : StandsAt bytes place part) (within : place ≤ bytes.length) :
    place + part.length ≤ bytes.length := by
  have shorter := List.IsPrefix.length_le stands
  rw [List.length_drop] at shorter
  omega

/-- Two byte lists stand one behind the other. -/
theorem standsAt_append (bytes : List UInt8) (place : Nat) (front back : List UInt8) :
    StandsAt bytes place (front ++ back) ↔
      StandsAt bytes place front ∧ StandsAt bytes (place + front.length) back := by
  constructor
  · intro stands
    obtain ⟨rest, same⟩ := stands
    rw [List.append_assoc] at same
    refine ⟨⟨back ++ rest, same⟩, ⟨rest, ?_⟩⟩
    rw [← List.drop_drop, ← same, List.drop_left]
  · intro stands
    obtain ⟨⟨restFront, sameFront⟩, ⟨rest, same⟩⟩ := stands
    rw [← List.drop_drop, ← sameFront, List.drop_left] at same
    refine ⟨rest, ?_⟩
    rw [List.append_assoc, same, sameFront]

namespace Reader

variable {α β : Type} {bytes : List UInt8} {fault : DecodeError → Nat → Prop} {place : Nat}

/-- A reader that begins at a place in bytes does not leave them and does not go back, and if it
fails then its error and the place where it stops are a fault. -/
structure FailsBy (bytes : List UInt8) (fault : DecodeError → Nat → Prop) (read : Reader α)
    (place : Nat) : Prop where
  /-- Where the reader stops. -/
  stays : ∃ last, place ≤ last ∧ last ≤ bytes.length ∧
    (read (.inside bytes place)).stop = .inside bytes last
  /-- How the reader fails. -/
  faults : ∀ error, (read (.inside bytes place)).outcome = .error error →
    fault error (read (.inside bytes place)).stop.position

/-- What a reader took stands where it began. -/
theorem Accepts.stands {read : Reader α} {grammar : α → List UInt8 → Prop}
    (accepts : read.Accepts grammar) {value : α} {stop : Cursor}
    (yields : read.Yields (.inside bytes place) value stop) :
    ∃ written, grammar value written ∧ StandsAt bytes place written ∧
      stop = .inside bytes (place + written.length) := by
  obtain ⟨written, spelled, passes⟩ := (accepts.yields_iff _ _ _).mp yields
  exact ⟨written, spelled, (Cursor.passes_inside_iff bytes place written stop).mp passes⟩

/-- Reading nothing does not fail. -/
theorem failsBy_pure (value : α) (within : place ≤ bytes.length) :
    FailsBy bytes fault (pure value : Reader α) place where
  stays := ⟨place, Nat.le_refl place, within, rfl⟩
  faults := by
    intro error failed
    contradiction

/-- A failure is a fault if its error is one here. -/
theorem failsBy_fail (error : DecodeError) (within : place ≤ bytes.length)
    (isFault : fault error place) : FailsBy bytes fault (fail error : Reader α) place where
  stays := ⟨place, Nat.le_refl place, within, rfl⟩
  faults := by
    intro other failed
    have same : error = other := Except.error.inj failed
    rw [← same]
    exact isFault

/-- A sequence fails as its first reader does, or as its second one does where the first one
stops. -/
theorem FailsBy.bind {read : Reader α} {next : α → Reader β}
    (head : FailsBy bytes fault read place)
    (tail : ∀ first last, last ≤ bytes.length →
      read.Yields (.inside bytes place) first (.inside bytes last) →
        FailsBy bytes fault (next first) last) :
    FailsBy bytes fault (read >>= next) place := by
  obtain ⟨last, forward, within, stopped⟩ := head.stays
  cases outcome : (read (.inside bytes place)).outcome with
  | error error =>
    obtain ⟨sameOutcome, sameStop⟩ := bind_of_error outcome next
    constructor
    · rw [sameStop]
      exact head.stays
    · intro other failed
      have same : error = other := Except.error.inj (sameOutcome.symm.trans failed)
      rw [sameStop, ← same]
      exact head.faults error outcome
  | ok first =>
    have yields : read.Yields (.inside bytes place) first (.inside bytes last) :=
      ⟨outcome, stopped⟩
    obtain ⟨sameOutcome, sameStop⟩ := bind_of_yields yields next
    have second := tail first last within yields
    constructor
    · obtain ⟨final, further, inside, stoppedFinally⟩ := second.stays
      rw [sameStop]
      exact ⟨final, Nat.le_trans forward further, inside, stoppedFinally⟩
    · intro error failed
      rw [sameStop]
      exact second.faults error (sameOutcome.symm.trans failed)

/-- A reader whose values are changed fails as before. -/
theorem FailsBy.map {read : Reader α} (head : FailsBy bytes fault read place) (change : α → β) :
    FailsBy bytes fault (read >>= fun value => pure (change value)) place :=
  head.bind fun first _ within _ => failsBy_pure (change first) within

/-- A reader that knows its place fails as it does there. -/
theorem failsBy_position_bind {next : Nat → Reader β}
    (here : FailsBy bytes fault (next place) place) :
    FailsBy bytes fault (position >>= next) place := ⟨here.stays, here.faults⟩

/-- A record is no failure. -/
theorem failsBy_log_bind {record : Record} {next : Reader β}
    (here : FailsBy bytes fault next place) :
    FailsBy bytes fault (log record >>= fun _ => next) place := ⟨here.stays, here.faults⟩

/-- Bytes are not taken only where too few are left. -/
theorem block_failsBy (size announced : Nat) (within : place ≤ bytes.length)
    (short : bytes.length - place < size →
      fault (.truncated place announced (bytes.length - place)) place) :
    FailsBy bytes fault (block size announced) place := by
  have left : (Cursor.inside bytes place).remaining = bytes.length - place := List.length_drop
  by_cases enough : size ≤ bytes.length - place
  · have reading := block_of_le (left ▸ enough) announced
    constructor
    · refine ⟨place + size, Nat.le_add_right place size, by omega, ?_⟩
      rw [reading]
      exact congrArg (Cursor.mk _) List.drop_drop
    · intro error failed
      rw [reading] at failed
      contradiction
  · have missing : bytes.length - place < size := by omega
    have reading := block_of_lt (left ▸ missing) announced
    constructor
    · rw [reading]
      exact ⟨place, Nat.le_refl place, within, rfl⟩
    · intro error failed
      rw [reading] at failed ⊢
      have same := Except.error.inj failed
      rw [← same, left]
      exact short missing

/-- Several elements fail as one of them does. -/
theorem times_failsBy {element : Reader α}
    (every : ∀ place ≤ bytes.length, FailsBy bytes fault element place) (count : Nat)
    (within : place ≤ bytes.length) : FailsBy bytes fault (times element count) place := by
  induction count generalizing place with
  | zero =>
    rw [times_zero]
    exact failsBy_pure [] within
  | succ count ih =>
    rw [times_succ]
    apply (every place within).bind
    intro first last within _
    exact (ih within).map (first :: ·)

section Truncated

variable (short : ∀ place needed, place ≤ bytes.length → bytes.length - place < needed →
  fault (.truncated place needed (bytes.length - place)) place)

include short

/-- A number of a width is missing only where too few bytes are left. -/
theorem unsigned_failsBy (width : Nat) (within : place ≤ bytes.length) :
    FailsBy bytes fault (unsigned width) place :=
  (block_failsBy width width within (short place width within)).map LittleEndian.decode

/-- A byte is missing only at the end. -/
theorem byte_failsBy (within : place ≤ bytes.length) : FailsBy bytes fault byte place :=
  (unsigned_failsBy short 1 within).map UInt8.ofNat

/-- A word is missing only where too few bytes are left. -/
theorem word_failsBy (within : place ≤ bytes.length) : FailsBy bytes fault word place :=
  (unsigned_failsBy short 4 within).map UInt32.ofNat

/-- A word of eight bytes is missing only where too few bytes are left. -/
theorem longWord_failsBy (within : place ≤ bytes.length) : FailsBy bytes fault longWord place :=
  (unsigned_failsBy short 8 within).map UInt64.ofNat

/-- An integer is missing only where too few bytes are left. -/
theorem integer_failsBy (within : place ≤ bytes.length) : FailsBy bytes fault integer place :=
  (longWord_failsBy short within).map UInt64.toInt64

/-- A float is missing only where too few bytes are left. -/
theorem number_failsBy (within : place ≤ bytes.length) : FailsBy bytes fault number place :=
  (longWord_failsBy short within).map Binary64.mk

/-- The size of a string is missing only where too few bytes are left. -/
theorem stringSize_failsBy (within : place ≤ bytes.length) :
    FailsBy bytes fault stringSize place := by
  apply (byte_failsBy short within).bind
  intro first last within _
  split
  · exact (longWord_failsBy short within).map UInt64.toNat
  · exact failsBy_pure first.toNat within

/-- Words are missing only where too few bytes are left for them, if their number comes from four
bytes. -/
theorem words_failsBy (count : Nat) (fits : count < Nat.pow 2 32)
    (within : place ≤ bytes.length) : FailsBy bytes fault (words count) place := by
  rw [words_eq count fits]
  exact (block_failsBy (4 * count) (4 * count) within (short place _ within)).map LittleEndian.words

end Truncated

end Reader

end LuaChunk
