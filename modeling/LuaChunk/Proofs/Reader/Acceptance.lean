import LuaChunk.Wire.Reader

/-!
# Readers and grammars

A reader accepts a grammar when its successful readings are exactly the spellings of the
grammar: it answers with a value and stops behind some bytes if and only if these bytes spell
the value (`Reader.Accepts`). The bytes after them are arbitrary, so a reader that accepts a
grammar neither looks ahead nor depends on where it stands. What a sequence of readers accepts
follows from what each of them accepts.
-/
namespace LuaChunk

/-- The bytes between two cursors, the first of which stands in front of them. -/
structure Cursor.Passes (cursor : Cursor) (written : List UInt8) (stop : Cursor) : Prop where
  /-- They are the first unread bytes. -/
  unread : cursor.unread = written ++ stop.unread
  /-- The second cursor stands behind them. -/
  position : stop.position = cursor.position + written.length

namespace Cursor

/-- No bytes lie between a cursor and itself. -/
@[simp] theorem passes_nil (cursor stop : Cursor) : cursor.Passes [] stop ↔ stop = cursor := by
  constructor
  · intro spelled
    obtain ⟨unread, position⟩ := spelled
    cases stop
    cases cursor
    simp_all
  · intro spelled
    subst spelled
    exact ⟨rfl, rfl⟩

/-- A cursor passes two byte lists when it passes them one after the other. -/
theorem passes_append (cursor : Cursor) (front back : List UInt8) (stop : Cursor) :
    cursor.Passes (front ++ back) stop ↔
      ∃ middle : Cursor, cursor.Passes front middle ∧ middle.Passes back stop := by
  constructor
  · intro spelled
    obtain ⟨unread, position⟩ := spelled
    refine ⟨⟨cursor.position + front.length, back ++ stop.unread⟩, ⟨?_, rfl⟩, ⟨rfl, ?_⟩⟩
    · rw [unread, List.append_assoc]
    · rw [position, List.length_append, Nat.add_assoc]
  · intro spelled
    obtain ⟨middle, ⟨headUnread, headPosition⟩, ⟨tailUnread, tailPosition⟩⟩ := spelled
    refine ⟨?_, ?_⟩
    · rw [headUnread, tailUnread, List.append_assoc]
    · rw [tailPosition, headPosition, List.length_append, Nat.add_assoc]

/-- The place and the number of the bytes behind it make up the same sum wherever a cursor
stands. -/
theorem Passes.total {cursor stop : Cursor} {written : List UInt8}
    (passes : cursor.Passes written stop) :
    stop.position + stop.remaining = cursor.position + cursor.remaining := by
  have length : cursor.remaining = written.length + stop.remaining := by
    rw [remaining, passes.unread, List.length_append]
    rfl
  have position := passes.position
  omega

end Cursor

namespace Reader

variable {α β : Type}

/-- A reader answers with a value and stops at a cursor. -/
def Yields (read : Reader α) (cursor : Cursor) (value : α) (stop : Cursor) : Prop :=
  (read cursor).outcome = .ok value ∧ (read cursor).stop = stop

/-- A reader answers with a value and stops behind some bytes exactly when they spell it. -/
def Accepts (read : Reader α) (grammar : α → List UInt8 → Prop) : Prop :=
  ∀ cursor value stop, read.Yields cursor value stop ↔
    ∃ written, grammar value written ∧ cursor.Passes written stop

/-- What a reader that accepts a grammar yields. -/
theorem Accepts.yields_iff {read : Reader α} {grammar : α → List UInt8 → Prop}
    (accepts : read.Accepts grammar) (cursor : Cursor) (value : α) (stop : Cursor) :
    read.Yields cursor value stop ↔
      ∃ written, grammar value written ∧ cursor.Passes written stop :=
  accepts cursor value stop

/-- A sequence ends where its first reader fails. -/
theorem bind_of_error {read : Reader α} {cursor : Cursor} {error : DecodeError}
    (failed : (read cursor).outcome = .error error) (next : α → Reader β) :
    ((read >>= next) cursor).outcome = .error error ∧
      ((read >>= next) cursor).stop = (read cursor).stop := by
  simp only [bind, andThen]
  rcases reading : read cursor with ⟨outcome, stop, records⟩
  rw [reading] at failed
  subst failed
  exact ⟨rfl, rfl⟩

/-- A sequence goes on with its second reader where the first one stops. -/
theorem bind_of_yields {read : Reader α} {cursor stop : Cursor} {value : α}
    (yields : read.Yields cursor value stop) (next : α → Reader β) :
    ((read >>= next) cursor).outcome = (next value stop).outcome ∧
      ((read >>= next) cursor).stop = (next value stop).stop := by
  obtain ⟨answers, stops⟩ := yields
  simp only [bind, andThen]
  rcases reading : read cursor with ⟨outcome, last, records⟩
  rw [reading] at answers stops
  subst answers stops
  exact ⟨rfl, rfl⟩

/-- A sequence yields what its second reader yields where the first one stops. -/
theorem yields_bind (read : Reader α) (next : α → Reader β) (cursor : Cursor) (value : β)
    (stop : Cursor) :
    (read >>= next).Yields cursor value stop ↔
      ∃ first middle, read.Yields cursor first middle ∧
        (next first).Yields middle value stop := by
  constructor
  · intro yields
    obtain ⟨answers, stops⟩ := yields
    cases outcome : (read cursor).outcome with
    | error error =>
      rw [(bind_of_error outcome next).1] at answers
      contradiction
    | ok first =>
      obtain ⟨sameOutcome, sameStop⟩ := bind_of_yields ⟨outcome, rfl⟩ next
      rw [sameOutcome] at answers
      rw [sameStop] at stops
      exact ⟨first, (read cursor).stop, ⟨outcome, rfl⟩, answers, stops⟩
  · intro yields
    obtain ⟨first, middle, yieldsFirst, answers, stops⟩ := yields
    obtain ⟨sameOutcome, sameStop⟩ := bind_of_yields yieldsFirst next
    exact ⟨sameOutcome.trans answers, sameStop.trans stops⟩

/-- A sequence fails as its first reader does or as its second one where the first one stops. -/
theorem bind_fails_iff (read : Reader α) (next : α → Reader β) (cursor : Cursor)
    (error : DecodeError) :
    ((read >>= next) cursor).outcome = .error error ↔
      (read cursor).outcome = .error error ∨
        ∃ first middle, read.Yields cursor first middle ∧
          (next first middle).outcome = .error error := by
  constructor
  · intro failed
    cases outcome : (read cursor).outcome with
    | error earlier =>
      rw [(bind_of_error outcome next).1] at failed
      exact .inl (congrArg Except.error (Except.error.inj failed))
    | ok first =>
      rw [(bind_of_yields ⟨outcome, rfl⟩ next).1] at failed
      exact .inr ⟨first, (read cursor).stop, ⟨outcome, rfl⟩, failed⟩
  · intro failed
    rcases failed with failed | ⟨first, middle, yields, failed⟩
    · exact (bind_of_error failed next).1
    · exact (bind_of_yields yields next).1.trans failed

/-- A grammar with the same spellings is accepted too. -/
theorem Accepts.congr {read : Reader α} {grammar other : α → List UInt8 → Prop}
    (accepts : read.Accepts grammar)
    (same : ∀ value written, grammar value written ↔ other value written) :
    read.Accepts other := by
  intro cursor value stop
  simp only [accepts.yields_iff, same]

/-- A grammar that some reader accepts is unambiguous: no byte list begins with two spellings. -/
theorem Accepts.unique {read : Reader α} {grammar : α → List UInt8 → Prop}
    (accepts : read.Accepts grammar) {left right : α}
    {leftBytes rightBytes leftRest rightRest : List UInt8} (leftSpelled : grammar left leftBytes)
    (rightSpelled : grammar right rightBytes)
    (same : leftBytes ++ leftRest = rightBytes ++ rightRest) :
    left = right ∧ leftBytes = rightBytes ∧ leftRest = rightRest := by
  have leftYields := (accepts.yields_iff (.start (leftBytes ++ leftRest)) left
    ⟨leftBytes.length, leftRest⟩).mpr ⟨leftBytes, leftSpelled, rfl, (Nat.zero_add _).symm⟩
  have rightYields := (accepts.yields_iff (.start (leftBytes ++ leftRest)) right
    ⟨rightBytes.length, rightRest⟩).mpr ⟨rightBytes, rightSpelled, same, (Nat.zero_add _).symm⟩
  have value := Except.ok.inj (leftYields.1.symm.trans rightYields.1)
  have stop := Cursor.mk.inj (leftYields.2.symm.trans rightYields.2)
  exact ⟨value, (List.append_inj same stop.1).1, stop.2⟩

/-- Reading nothing accepts no bytes. -/
theorem accepts_pure (result : α) :
    (pure result : Reader α).Accepts fun value written => result = value ∧ written = [] := by
  intro cursor value stop
  have yields : (pure result : Reader α).Yields cursor value stop ↔
      result = value ∧ stop = cursor := by
    simp [Yields, pure, eq_comm]
  rw [yields]
  constructor
  · intro spelled
    obtain ⟨same, stays⟩ := spelled
    exact ⟨[], ⟨same, rfl⟩, (cursor.passes_nil stop).mpr stays⟩
  · intro spelled
    obtain ⟨_, ⟨same, rfl⟩, passes⟩ := spelled
    exact ⟨same, (cursor.passes_nil stop).mp passes⟩

/-- A failure accepts a grammar without spellings. -/
theorem accepts_fail (error : DecodeError) {grammar : α → List UInt8 → Prop}
    (empty : ∀ value written, ¬grammar value written) :
    (fail error : Reader α).Accepts grammar := by
  intro cursor value stop
  simp [Yields, fail, empty]

/-- Readers in sequence accept what the first one accepts and then the second one. -/
theorem Accepts.bind {read : Reader α} {next : α → Reader β}
    {grammar : α → List UInt8 → Prop} {further : α → β → List UInt8 → Prop}
    (head : read.Accepts grammar) (tail : ∀ first, (next first).Accepts (further first)) :
    (read >>= next).Accepts fun value written =>
      ∃ first front back, grammar first front ∧ further first value back ∧
        written = front ++ back := by
  intro cursor value stop
  rw [yields_bind]
  constructor
  · intro spelled
    obtain ⟨first, middle, yieldsFirst, yieldsValue⟩ := spelled
    obtain ⟨front, spelledFront, passesFront⟩ := (head.yields_iff _ _ _).mp yieldsFirst
    obtain ⟨back, spelledBack, passesBack⟩ := ((tail first).yields_iff _ _ _).mp yieldsValue
    exact ⟨front ++ back, ⟨first, front, back, spelledFront, spelledBack, rfl⟩,
      (cursor.passes_append front back stop).mpr ⟨middle, passesFront, passesBack⟩⟩
  · intro spelled
    obtain ⟨_, ⟨first, front, back, spelledFront, spelledBack, rfl⟩, passes⟩ := spelled
    obtain ⟨middle, passesFront, passesBack⟩ := (cursor.passes_append front back stop).mp passes
    exact ⟨first, middle, (head.yields_iff _ _ _).mpr ⟨front, spelledFront, passesFront⟩,
      ((tail first).yields_iff _ _ _).mpr ⟨back, spelledBack, passesBack⟩⟩

/-- A reader whose values are changed accepts the spellings of the values they come from. -/
theorem Accepts.map {read : Reader α} {grammar : α → List UInt8 → Prop}
    (accepts : read.Accepts grammar) (change : α → β) :
    (read >>= fun value => pure (change value)).Accepts
      fun value written => ∃ source, grammar source written ∧ change source = value := by
  refine (accepts.bind fun source => accepts_pure (change source)).congr ?_
  intro value written
  constructor
  · intro spelled
    obtain ⟨source, _, _, spelled, ⟨changed, rfl⟩, rfl⟩ := spelled
    rw [List.append_nil]
    exact ⟨source, spelled, changed⟩
  · intro spelled
    obtain ⟨source, spelled, changed⟩ := spelled
    exact ⟨source, written, [], spelled, ⟨changed, rfl⟩, (List.append_nil written).symm⟩

/-- If every value comes from one source, the changed reader accepts the spellings of that
source. -/
theorem Accepts.mapInverse {read : Reader α} {grammar : α → List UInt8 → Prop}
    (accepts : read.Accepts grammar) {change : α → β} {source : β → α}
    (sourceChange : ∀ origin written, grammar origin written → source (change origin) = origin)
    (changeSource : ∀ value, change (source value) = value) :
    (read >>= fun value => pure (change value)).Accepts
      fun value written => grammar (source value) written := by
  refine (accepts.map change).congr ?_
  intro value written
  constructor
  · intro spelled
    obtain ⟨origin, spelledOrigin, changed⟩ := spelled
    rw [← changed, sourceChange origin written spelledOrigin]
    exact spelledOrigin
  · intro spelled
    exact ⟨source value, spelled, changeSource value⟩

/-- A reader that knows its place accepts what it accepts at every place. -/
theorem accepts_position_bind {next : Nat → Reader β} {grammar : β → List UInt8 → Prop}
    (accepts : ∀ place, (next place).Accepts grammar) : (position >>= next).Accepts grammar := by
  intro cursor value stop
  exact accepts cursor.position cursor value stop

/-- A record changes nothing that is read. -/
theorem accepts_log_bind {record : Record} {next : Reader β} {grammar : β → List UInt8 → Prop}
    (accepts : next.Accepts grammar) : (log record >>= fun _ => next).Accepts grammar := by
  intro cursor value stop
  exact accepts cursor value stop

/-- Enough bytes are taken. -/
theorem block_of_le {size : Nat} {cursor : Cursor} (enough : size ≤ cursor.remaining)
    (announced : Nat) :
    block size announced cursor =
      ⟨.ok (cursor.unread.take size),
        ⟨cursor.position + size, cursor.unread.drop size⟩, []⟩ := by
  have full : (cursor.unread.take size).length = size := List.length_take_of_le enough
  simp only [block, if_pos full]

/-- Too few bytes are left where they are. -/
theorem block_of_lt {size : Nat} {cursor : Cursor} (missing : cursor.remaining < size)
    (announced : Nat) :
    block size announced cursor =
      ⟨.error (.truncated cursor.position announced cursor.remaining), cursor, []⟩ := by
  have short : ¬(cursor.unread.take size).length = size := by
    have length : cursor.unread.length < size := missing
    rw [List.length_take]
    omega
  simp only [block, if_neg short]

/-- Taking a number of bytes accepts each list of that many bytes as itself. -/
theorem block_accepts (size announced : Nat) :
    (block size announced).Accepts
      fun value written => value.length = size ∧ written = value := by
  intro cursor value stop
  constructor
  · intro yields
    by_cases enough : size ≤ cursor.remaining
    · rw [Yields, block_of_le enough announced] at yields
      have taken : cursor.unread.take size = value := Except.ok.inj yields.1
      have stopped : (⟨cursor.position + size, cursor.unread.drop size⟩ : Cursor) = stop := yields.2
      have full : (cursor.unread.take size).length = size := List.length_take_of_le enough
      rw [taken] at full
      refine ⟨value, ⟨full, rfl⟩, ?_, ?_⟩
      · rw [← taken, ← stopped]
        exact (List.take_append_drop size cursor.unread).symm
      · rw [full, ← stopped]
    · rw [Yields, block_of_lt (by omega) announced] at yields
      exact absurd yields.1 nofun
  · intro spelled
    obtain ⟨written, ⟨full, same⟩, unread, place⟩ := spelled
    subst same
    have enough : size ≤ cursor.remaining := by
      rw [Cursor.remaining, unread, List.length_append]
      omega
    have taken : cursor.unread.take size = written := by rw [unread, ← full, List.take_left]
    have dropped : cursor.unread.drop size = stop.unread := by
      rw [unread, ← full, List.drop_left]
    rw [Yields, block_of_le enough announced, taken, dropped, ← full, ← place]
    exact ⟨rfl, rfl⟩

/-- Bytes of a width denote a number that they encode. -/
theorem unsigned_accepts (width : Nat) :
    (unsigned width).Accepts fun value written =>
      value < Nat.pow 256 width ∧ written = LittleEndian.encode width value := by
  refine ((block_accepts width width).map LittleEndian.decode).congr ?_
  intro value written
  constructor
  · intro spelled
    obtain ⟨taken, ⟨rfl, rfl⟩, rfl⟩ := spelled
    exact ⟨LittleEndian.decode_lt _, (LittleEndian.encode_decode _).symm⟩
  · intro spelled
    obtain ⟨fits, rfl⟩ := spelled
    exact ⟨_, ⟨LittleEndian.length_encode width value, rfl⟩,
      LittleEndian.decode_encode width value fits⟩

/-- A byte is spelled by itself. -/
theorem byte_accepts : byte.Accepts fun value written => written = [value] := by
  refine ((unsigned_accepts 1).mapInverse ?_ fun value => UInt8.ofNat_toNat).congr ?_
  · intro number written spelled
    exact UInt8.toNat_ofNat_of_lt' spelled.1
  · intro value written
    have small : value.toNat < 256 := value.toNat_lt
    have encoded : LittleEndian.encode 1 value.toNat = [value] := by
      simp [LittleEndian.encode, Nat.mod_eq_of_lt small]
    rw [encoded]
    exact and_iff_right small

/-- A word is spelled by its four bytes. -/
theorem word_accepts :
    word.Accepts fun value written => written = LittleEndian.encode 4 value.toNat := by
  refine ((unsigned_accepts 4).mapInverse ?_ fun value => UInt32.ofNat_toNat).congr ?_
  · intro number written spelled
    exact UInt32.toNat_ofNat_of_lt' spelled.1
  · intro value written
    exact and_iff_right value.toNat_lt

/-- A word of eight bytes is spelled by them. -/
theorem longWord_accepts :
    longWord.Accepts fun value written => written = LittleEndian.encode 8 value.toNat := by
  refine ((unsigned_accepts 8).mapInverse ?_ fun value => UInt64.ofNat_toNat).congr ?_
  · intro number written spelled
    exact UInt64.toNat_ofNat_of_lt' spelled.1
  · intro value written
    exact and_iff_right value.toNat_lt

/-- An integer is spelled by the eight bytes of its two's complement. -/
theorem integer_accepts :
    integer.Accepts fun value written => written = LittleEndian.encode 8 value.toUInt64.toNat :=
  longWord_accepts.mapInverse (fun word _ _ => word.toUInt64_toInt64) Int64.toInt64_toUInt64

/-- A float is spelled by the eight bytes of its bits. -/
theorem number_accepts :
    number.Accepts fun value written => written = LittleEndian.encode 8 value.bits.toNat :=
  longWord_accepts.mapInverse (fun _ _ _ => rfl) fun _ => rfl

/-- If the number of words comes from four bytes, then an error announces the size of all of
them. -/
theorem words_eq (count : Nat) (fits : count < Nat.pow 2 32) :
    words count = (do return LittleEndian.words (← bytes (4 * count))) := by
  have announced : min (4 * count) (Nat.pow 2 64 - 1) = 4 * count := by
    have bound : 4 * Nat.pow 2 32 < Nat.pow 2 64 := by decide
    omega
  rw [words, announced]
  rfl

/-- Several elements are spelled one after the other, each in some way. -/
theorem times_accepts {element : Reader α} {grammar : α → List UInt8 → Prop}
    (accepts : element.Accepts grammar) (count : Nat) :
    (times element count).Accepts fun values written =>
      ∃ entries : List (α × List UInt8), entries.length = count ∧
        (∀ entry ∈ entries, grammar entry.1 entry.2) ∧
        values = entries.map Prod.fst ∧ written = entries.flatMap Prod.snd := by
  induction count with
  | zero =>
    rw [times_zero]
    refine (accepts_pure []).congr ?_
    intro values written
    constructor
    · intro spelled
      obtain ⟨rfl, rfl⟩ := spelled
      exact ⟨[], rfl, by simp, rfl, rfl⟩
    · intro spelled
      obtain ⟨entries, none, -, rfl, rfl⟩ := spelled
      obtain rfl := List.length_eq_zero_iff.mp none
      exact ⟨rfl, rfl⟩
  | succ count ih =>
    rw [times_succ]
    refine (accepts.bind fun first => ih.map (first :: ·)).congr ?_
    intro values written
    constructor
    · intro spelled
      obtain ⟨first, front, _, spelled, ⟨_, ⟨entries, rfl, each, rfl, rfl⟩, rfl⟩, rfl⟩ := spelled
      exact ⟨(first, front) :: entries, rfl, List.forall_mem_cons.mpr ⟨spelled, each⟩, rfl, rfl⟩
    · intro spelled
      obtain ⟨entries, length, each, rfl, rfl⟩ := spelled
      obtain ⟨⟨first, front⟩, further, rfl⟩ := List.exists_cons_of_length_eq_add_one length
      obtain ⟨spelled, eachFurther⟩ := List.forall_mem_cons.mp each
      exact ⟨first, front, _, spelled,
        ⟨_, ⟨further, by simpa using length, eachFurther, rfl, rfl⟩, rfl⟩, rfl⟩

end Reader

end LuaChunk
