import LuaChunk.Proofs.Reader.Records

/-!
# Strings, case by case

The reader of strings takes the size, compares it with the limit, and looks at the bytes behind it
last. So what it does follows from the size that stands in front and from the number of bytes that
are left behind the size, and in which of the two ways the size is written matters for the places
in the answer only (`Reader.string_exact`).
-/
namespace LuaChunk

/-- The error with its place taken away. -/
def DecodeError.withoutPlace : DecodeError → DecodeError
  | headerMismatch field _ => headerMismatch field 0
  | truncated _ needed available => truncated 0 needed available
  | unknownTag tag _ => unknownTag tag 0
  | limitExceeded what declared limit _ => limitExceeded what declared limit 0
  | nestedTooDeep limit _ => nestedTooDeep limit 0
  | trailingBytes _ count => trailingBytes 0 count

/-- A size takes nine bytes if it begins with the escape, and one byte otherwise. -/
theorem SizeSpelledBy.length_eq {size : Nat} {written : List UInt8}
    (spelled : SizeSpelledBy size written) :
    written.length = if written.head? = some Reader.sizeEscape then 9 else 1 := by
  cases spelled with
  | short size direct =>
    have other : ¬[size].head? = some Reader.sizeEscape := fun same => direct (Option.some.inj same)
    rw [if_neg other]
    rfl
  | long size =>
    rw [if_pos (by rfl), List.length_cons, LittleEndian.length_encode]

/-- Unread bytes are none, or they are the escape with fewer than eight bytes behind it, or they
begin with a size. -/
theorem exists_sizeSpelledBy (unread : List UInt8) :
    unread = [] ∨ (∃ rest, rest.length < 8 ∧ unread = Reader.sizeEscape :: rest) ∨
      ∃ size written rest, SizeSpelledBy size written ∧ unread = written ++ rest := by
  cases unread with
  | nil => exact .inl rfl
  | cons first rest =>
    by_cases escaped : first = Reader.sizeEscape
    · by_cases short : rest.length < 8
      · exact .inr (.inl ⟨rest, short, by rw [escaped]⟩)
      · have full : (rest.take 8).length = 8 := List.length_take_of_le (Nat.le_of_not_lt short)
        have fits := LittleEndian.decode_lt (rest.take 8)
        rw [full] at fits
        have word : (UInt64.ofNat (LittleEndian.decode (rest.take 8))).toNat =
            LittleEndian.decode (rest.take 8) := UInt64.toNat_ofNat_of_lt' fits
        have spelling := LittleEndian.encode_decode (rest.take 8)
        rw [full] at spelling
        have spelled := SizeSpelledBy.long (UInt64.ofNat (LittleEndian.decode (rest.take 8)))
        rw [word, spelling] at spelled
        refine .inr (.inr ⟨_, _, rest.drop 8, spelled, ?_⟩)
        rw [List.cons_append, List.take_append_drop, escaped]
        rfl
    · exact .inr (.inr ⟨first.toNat, [first], rest, .short first escaped, rfl⟩)

namespace Reader

variable {α β : Type}

/-- A quiet reader that yields a value keeps no records on the way. -/
theorem Yields.eq_of_quiet {read : Reader α} {cursor stop : Cursor} {value : α}
    (yields : read.Yields cursor value stop) (quiet : read.Quiet) :
    read cursor = ⟨.ok value, stop, []⟩ := by
  have records := quiet.records_eq_nil cursor
  obtain ⟨answers, stops⟩ := yields
  generalize read cursor = reading at answers stops records
  obtain ⟨outcome, last, kept⟩ := reading
  subst answers stops records
  rfl

/-- A sequence whose first reader answers without records is the second one from there on. -/
theorem bind_eq_of_eq_ok {read : Reader α} {cursor stop : Cursor} {value : α}
    (reading : read cursor = ⟨.ok value, stop, []⟩) (next : α → Reader β) :
    (read >>= next) cursor = next value stop := by
  simp only [bind, andThen, reading, List.nil_append]

/-- A sequence whose first reader fails is that failure. -/
theorem bind_eq_of_eq_error {read : Reader α} {cursor stop : Cursor} {error : DecodeError}
    {records : List Record} (reading : read cursor = ⟨.error error, stop, records⟩)
    (next : α → Reader β) : (read >>= next) cursor = ⟨.error error, stop, records⟩ := by
  simp only [bind, andThen, reading]

/-- Where too few bytes are left for a number, it is missing. -/
theorem unsigned_of_lt {width : Nat} {cursor : Cursor} (missing : cursor.remaining < width) :
    unsigned width cursor =
      ⟨.error (.truncated cursor.position width cursor.remaining), cursor, []⟩ :=
  bind_eq_of_eq_error (block_of_lt missing width) _

/-- A byte is read from bytes that begin with it. -/
theorem byte_cons (place : Nat) (first : UInt8) (rest : List UInt8) :
    byte ⟨place, first :: rest⟩ = ⟨.ok first, ⟨place + 1, rest⟩, []⟩ :=
  Yields.eq_of_quiet ((byte_accepts.yields_iff _ _ _).mpr ⟨[first], rfl, rfl, rfl⟩) byte_quiet

/-- Without bytes the size of a string is missing. -/
theorem stringSize_nil (place : Nat) :
    stringSize ⟨place, []⟩ = ⟨.error (.truncated place 1 0), ⟨place, []⟩, []⟩ := by
  have missing : (Cursor.mk place []).remaining < 1 := Nat.one_pos
  exact bind_eq_of_eq_error (bind_eq_of_eq_error (unsigned_of_lt missing) _) _

/-- With fewer than eight bytes behind the escape the size of a string is cut off. -/
theorem stringSize_escape {rest : List UInt8} (short : rest.length < 8) (place : Nat) :
    stringSize ⟨place, sizeEscape :: rest⟩ =
      ⟨.error (.truncated (place + 1) 8 rest.length), ⟨place + 1, rest⟩, []⟩ := by
  have missing : (Cursor.mk (place + 1) rest).remaining < 8 := short
  rw [stringSize, bind_eq_of_eq_ok (byte_cons place sizeEscape rest), if_pos rfl]
  exact bind_eq_of_eq_error (bind_eq_of_eq_error (unsigned_of_lt missing) _) _

/-- A size is read in either spelling. -/
theorem stringSize_append {size : Nat} {written : List UInt8}
    (spelled : SizeSpelledBy size written) (place : Nat) (rest : List UInt8) :
    stringSize ⟨place, written ++ rest⟩ = ⟨.ok size, ⟨place + written.length, rest⟩, []⟩ :=
  Yields.eq_of_quiet ((stringSize_accepts.yields_iff _ _ _).mpr ⟨written, spelled, rfl, rfl⟩)
    stringSize_quiet

/-- Read what stands behind the size of a string that begins at an offset. -/
def stringBehind (limit offset size : Nat) : Reader ByteString :=
  if size = 0 then return .empty
  else if limit < size - 1 then fail (.limitExceeded "string" (size - 1) limit offset)
  else do return ⟨← bytes (size - 1)⟩

/-- Without bytes a string is missing. -/
theorem string_nil (limit place : Nat) :
    string limit ⟨place, []⟩ = ⟨.error (.truncated place 1 0), ⟨place, []⟩, []⟩ :=
  bind_eq_of_eq_error (stringSize_nil place) (stringBehind limit place)

/-- With fewer than eight bytes behind the escape a string is cut off in its size. -/
theorem string_escape {rest : List UInt8} (short : rest.length < 8) (limit place : Nat) :
    string limit ⟨place, sizeEscape :: rest⟩ =
      ⟨.error (.truncated (place + 1) 8 rest.length), ⟨place + 1, rest⟩, []⟩ :=
  bind_eq_of_eq_error (stringSize_escape short place) (stringBehind limit place)

/-- Behind its size a string is read as the size says. -/
theorem string_append (limit : Nat) {size : Nat} {written : List UInt8}
    (spelled : SizeSpelledBy size written) (place : Nat) (rest : List UInt8) :
    string limit ⟨place, written ++ rest⟩ =
      stringBehind limit place size ⟨place + written.length, rest⟩ :=
  bind_eq_of_eq_ok (stringSize_append spelled place rest) (stringBehind limit place)

section Behind

variable {limit offset size place : Nat} {rest : List UInt8}

/-- The size zero stands for the empty string. -/
theorem stringBehind_zero (limit offset : Nat) (cursor : Cursor) :
    stringBehind limit offset 0 cursor = ⟨.ok .empty, cursor, []⟩ := rfl

/-- A size above the limit is refused, whatever follows. -/
theorem stringBehind_of_limit_lt (above : limit < size - 1) :
    stringBehind limit offset size ⟨place, rest⟩ =
      ⟨.error (.limitExceeded "string" (size - 1) limit offset), ⟨place, rest⟩, []⟩ := by
  have some : size ≠ 0 := by omega
  rw [stringBehind, if_neg some, if_pos above]
  rfl

/-- Within the limit, a string is cut off where too few bytes are left. -/
theorem stringBehind_of_lt (some : size ≠ 0) (within : size - 1 ≤ limit)
    (missing : rest.length < size - 1) :
    stringBehind limit offset size ⟨place, rest⟩ =
      ⟨.error (.truncated place (size - 1) rest.length), ⟨place, rest⟩, []⟩ := by
  have short : (Cursor.mk place rest).remaining < size - 1 := missing
  rw [stringBehind, if_neg some, if_neg (Nat.not_lt.mpr within)]
  exact bind_eq_of_eq_error (block_of_lt short (size - 1)) _

/-- Within the limit, a string is the next bytes if there are enough of them. -/
theorem stringBehind_of_le (some : size ≠ 0) (within : size - 1 ≤ limit)
    (enough : size - 1 ≤ rest.length) :
    stringBehind limit offset size ⟨place, rest⟩ =
      ⟨.ok ⟨rest.take (size - 1)⟩, ⟨place + (size - 1), rest.drop (size - 1)⟩, []⟩ := by
  have full : size - 1 ≤ (Cursor.mk place rest).remaining := enough
  rw [stringBehind, if_neg some, if_neg (Nat.not_lt.mpr within)]
  exact bind_eq_of_eq_ok (block_of_le full (size - 1)) _

end Behind

/-- In two places a string behind its size is the same or fails in the same way, and the same bytes
are left. -/
theorem stringBehind_elsewhere (limit size : Nat) (rest : List UInt8)
    (offset place otherOffset otherPlace : Nat) :
    let here := stringBehind limit offset size ⟨place, rest⟩
    let there := stringBehind limit otherOffset size ⟨otherPlace, rest⟩
    here.outcome.mapError DecodeError.withoutPlace =
        there.outcome.mapError DecodeError.withoutPlace ∧
      here.stop.unread = there.stop.unread := by
  intro here there
  by_cases none : size = 0
  · subst none
    exact ⟨rfl, rfl⟩
  by_cases above : limit < size - 1
  · rw [show here = _ from stringBehind_of_limit_lt above,
      show there = _ from stringBehind_of_limit_lt above]
    exact ⟨rfl, rfl⟩
  have within : size - 1 ≤ limit := Nat.le_of_not_lt above
  by_cases enough : size - 1 ≤ rest.length
  · rw [show here = _ from stringBehind_of_le none within enough,
      show there = _ from stringBehind_of_le none within enough]
    exact ⟨rfl, rfl⟩
  · have missing : rest.length < size - 1 := Nat.lt_of_not_le enough
    rw [show here = _ from stringBehind_of_lt none within missing,
      show there = _ from stringBehind_of_lt none within missing]
    exact ⟨rfl, rfl⟩

/-- What the reader of strings does wherever it stands. If the size is missing or cut off, that is
the error. A size above the limit is refused whatever follows it, a smaller one takes the bytes that
it says or finds that there are fewer of them. The cases are all cases, and for a size below the
escape the two spellings give the same string or the same error but for its place, and leave the
same bytes. -/
theorem string_exact (limit place : Nat) :
    string limit ⟨place, []⟩ = ⟨.error (.truncated place 1 0), ⟨place, []⟩, []⟩ ∧
    (∀ rest, rest.length < 8 → string limit ⟨place, sizeEscape :: rest⟩ =
      ⟨.error (.truncated (place + 1) 8 rest.length), ⟨place + 1, rest⟩, []⟩) ∧
    (∀ size written rest, SizeSpelledBy size written →
      let behind : Cursor := ⟨place + written.length, rest⟩
      let reading := string limit ⟨place, written ++ rest⟩
      written.length = (if written.head? = some sizeEscape then 9 else 1) ∧
      (size = 0 → reading = ⟨.ok .empty, behind, []⟩) ∧
      (limit < size - 1 →
        reading = ⟨.error (.limitExceeded "string" (size - 1) limit place), behind, []⟩) ∧
      (size ≠ 0 → size - 1 ≤ limit → rest.length < size - 1 →
        reading =
          ⟨.error (.truncated (place + written.length) (size - 1) rest.length), behind, []⟩) ∧
      (size ≠ 0 → size - 1 ≤ limit → size - 1 ≤ rest.length →
        reading = ⟨.ok ⟨rest.take (size - 1)⟩,
          ⟨place + written.length + (size - 1), rest.drop (size - 1)⟩, []⟩)) ∧
    (∀ unread : List UInt8, unread = [] ∨
      (∃ rest, rest.length < 8 ∧ unread = sizeEscape :: rest) ∨
      ∃ size written rest, SizeSpelledBy size written ∧ unread = written ++ rest) ∧
    ∀ (size : UInt8) (rest : List UInt8) (other : Nat), size ≠ sizeEscape →
      let inline := string limit ⟨place, size :: rest⟩
      let escaped :=
        string limit ⟨other, sizeEscape :: LittleEndian.encode 8 size.toNat ++ rest⟩
      inline.outcome.mapError DecodeError.withoutPlace =
          escaped.outcome.mapError DecodeError.withoutPlace ∧
        inline.stop.unread = escaped.stop.unread := by
  refine ⟨string_nil limit place, ?_, ?_, exists_sizeSpelledBy, ?_⟩
  · intro rest short
    exact string_escape short limit place
  · intro size written rest spelled behind reading
    have same : reading = stringBehind limit place size behind :=
      string_append limit spelled place rest
    rw [same]
    refine ⟨spelled.length_eq, ?_, ?_, ?_, ?_⟩
    · intro none
      rw [none]
      exact stringBehind_zero limit place behind
    · exact stringBehind_of_limit_lt
    · exact stringBehind_of_lt
    · exact stringBehind_of_le
  · intro size rest other direct inline escaped
    have short : inline = stringBehind limit place size.toNat _ :=
      string_append limit (.short size direct) place rest
    have long : escaped = stringBehind limit other size.toNat _ :=
      string_append limit (.long size.toUInt64) other rest
    rw [short, long]
    exact stringBehind_elsewhere limit size.toNat rest _ _ _ _

/-- Two letters behind the escape are read, refused by a limit of one, or cut off; the size may be
cut off as well, and in one byte it has the same two letters behind it. -/
theorem string_exact_letters :
    let size : List UInt8 := [0xFF, 3, 0, 0, 0, 0, 0, 0, 0]
    string 2 ⟨7, size ++ [0x61, 0x62, 9]⟩ = ⟨.ok ⟨[0x61, 0x62]⟩, ⟨18, [9]⟩, []⟩ ∧
      string 1 ⟨7, size ++ [0x61]⟩ =
        ⟨.error (.limitExceeded "string" 2 1 7), ⟨16, [0x61]⟩, []⟩ ∧
      string 2 ⟨7, size ++ [0x61]⟩ = ⟨.error (.truncated 16 2 1), ⟨16, [0x61]⟩, []⟩ ∧
      string 2 ⟨7, [0xFF, 3, 0]⟩ = ⟨.error (.truncated 8 8 2), ⟨8, [3, 0]⟩, []⟩ ∧
      (string 2 ⟨7, [3, 0x61, 0x62, 9]⟩).stop.unread = [9] := by
  intro size
  have spelled : SizeSpelledBy 3 size := .long 3
  obtain ⟨_, cut, within, _, agree⟩ := string_exact 2 7
  obtain ⟨_, above, _, _⟩ := ((string_exact 1 7).2.2.1 3 size [0x61] spelled).2
  obtain ⟨_, _, missing, _⟩ := (within 3 size [0x61] spelled).2
  obtain ⟨_, _, _, enough⟩ := (within 3 size [0x61, 0x62, 9] spelled).2
  have whole := enough (by decide) (by decide) (by decide)
  refine ⟨whole, above (by decide), missing (by decide) (by decide) (by decide),
    cut [3, 0] (by decide), ?_⟩
  have rest := (agree 3 [0x61, 0x62, 9] 7 (by decide)).2
  exact rest.trans (congrArg (fun reading => reading.stop.unread) whole)

end Reader

end LuaChunk
