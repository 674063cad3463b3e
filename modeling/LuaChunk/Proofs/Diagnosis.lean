import LuaChunk.Proofs.Faults

/-!
# Errors tell the truth

Every error that reading a chunk can end with says something about the bytes of the chunk and
about the policy. `DecodeError.IsTrue` spells this out, error by error and field by field, and
`decode_error_isTrue` says that it holds of every error that is reported. In particular an error
points into the chunk or to its end.
-/
namespace LuaChunk

/-- What an error says about the bytes of a chunk and the policy under which they are read. -/
def DecodeError.IsTrue (policy : Policy) (bytes : List UInt8) : DecodeError → Prop
  -- The bytes are those of the standard header up to the field, which is there and differs.
  | headerMismatch field offset =>
    ∃ (earlier later : List (HeaderField × List UInt8)) (expected found : List UInt8),
      Header.standard.fields = earlier ++ (field, expected) :: later ∧
        offset = (earlier.flatMap Prod.snd).length ∧
        bytes.take offset = Header.standard.bytes.take offset ∧
        StandsAt bytes offset found ∧ found.length = expected.length ∧ found ≠ expected
  -- All bytes from the offset on are available, and they are too few.
  | truncated offset needed available =>
    offset + available = bytes.length ∧ available < needed
  -- The byte at the offset is the tag of no constant.
  | unknownTag tag offset =>
    bytes[offset]? = some tag ∧ ∀ known : Constant.Tag, known.byte ≠ tag
  -- The size of a string or the length of a list stands at the offset and is above its bound.
  | limitExceeded what declared limit offset =>
    limit < declared ∧
      ((what = "string" ∧ limit = policy.maxString ∧
          ∃ size, SizeSpelledBy (declared + 1) size ∧ StandsAt bytes offset size) ∨
        ((∃ part : Part, what = part.label) ∧ limit = policy.maxSequence ∧
          ∃ length : UInt32, length.toNat = declared ∧
            StandsAt bytes offset (encodeWord length)))
  -- The length of a list of functions stands in front of the offset.
  | nestedTooDeep limit offset =>
    limit = policy.maxDepth ∧ 4 ≤ offset ∧
      ∃ count : UInt32, 1 ≤ count.toNat ∧ count.toNat ≤ policy.maxSequence ∧
        StandsAt bytes (offset - 4) (encodeWord count)
  -- The bytes in front of the offset are a chunk, and those that follow are not allowed.
  | trailingBytes offset count =>
    policy.allowTrailing = false ∧ 1 ≤ count ∧ offset + count = bytes.length ∧
      ∃ tree, decode policy (bytes.take offset) = .ok tree

/-- Bytes that stand at a place are there, if they are any. -/
theorem StandsAt.lt_length {bytes : List UInt8} {place : Nat} {part : List UInt8}
    (stands : StandsAt bytes place part) (some : 0 < part.length) : place < bytes.length := by
  have shorter := List.IsPrefix.length_le stands
  rw [List.length_drop] at shorter
  omega

/-- The header begins with the fields in front of a field. -/
theorem Header.take_earlier {earlier later : List (HeaderField × List UInt8)}
    {field : HeaderField} {expected : List UInt8}
    (fields : Header.standard.fields = earlier ++ (field, expected) :: later) :
    Header.standard.bytes.take (earlier.flatMap Prod.snd).length = earlier.flatMap Prod.snd := by
  rw [Header.bytes, fields, List.flatMap_append, List.take_left]

/-- A true error points into the bytes or to their end. -/
theorem DecodeError.IsTrue.offset_le {policy : Policy} {bytes : List UInt8} {error : DecodeError}
    (isTrue : error.IsTrue policy bytes) : error.offset ≤ bytes.length := by
  cases error with
  | headerMismatch field offset =>
    obtain ⟨earlier, later, expected, found, fields, rfl, agree, _⟩ := isTrue
    rw [Header.take_earlier fields] at agree
    have shorter := congrArg List.length agree
    rw [List.length_take] at shorter
    show (earlier.flatMap Prod.snd).length ≤ bytes.length
    omega
  | truncated offset needed available =>
    have all := isTrue.1
    show offset ≤ bytes.length
    omega
  | unknownTag tag offset =>
    obtain ⟨there, _⟩ := List.getElem?_eq_some_iff.mp isTrue.1
    exact Nat.le_of_lt there
  | limitExceeded what declared limit offset =>
    obtain ⟨_, ⟨_, _, size, spelled, stands⟩ | ⟨_, _, length, _, stands⟩⟩ := isTrue
    · exact Nat.le_of_lt (stands.lt_length spelled.length_pos)
    · exact Nat.le_of_lt (stands.lt_length (Nat.succ_pos _))
  | nestedTooDeep limit offset =>
    obtain ⟨_, behind, count, _, _, stands⟩ := isTrue
    have front : offset - 4 < bytes.length := stands.lt_length (Nat.succ_pos _)
    have shorter := stands.length_le (Nat.le_of_lt front)
    have four : (encodeWord count).length = 4 := LittleEndian.length_encode 4 _
    show offset ≤ bytes.length
    omega
  | trailingBytes offset count =>
    have all := isTrue.2.2.1
    show offset ≤ bytes.length
    omega

/-- The ways in which reading a function fails are true. -/
theorem Fault.isTrue {policy : Policy} {bytes : List UInt8} {error : DecodeError} {stop : Nat}
    (fault : Fault policy bytes error stop) : error.IsTrue policy bytes := by
  cases fault with
  | truncated left short => exact ⟨left, short⟩
  | @unknownTag place tag stands unknown =>
    obtain ⟨rest, same⟩ := stands
    constructor
    · have first : (bytes.drop place)[0]? = some tag := by
        rw [← same]
        rfl
      rw [List.getElem?_drop, Nat.add_zero] at first
      exact first
    · intro known same
      rw [← same, Constant.Tag.ofByte?_byte] at unknown
      contradiction
  | longString spelled stands above => exact ⟨above, .inl ⟨rfl, rfl, _, spelled, stands⟩⟩
  | longList part stands above => exact ⟨above, .inr ⟨⟨part, rfl⟩, rfl, _, rfl, stands⟩⟩
  | tooDeep stands some within =>
    refine ⟨rfl, Nat.le_add_left 4 _, _, some, within, ?_⟩
    rw [Nat.add_sub_cancel]
    exact stands

/-- The ways in which reading the header at the beginning of the bytes fails are true. -/
theorem HeaderFault.isTrue {policy : Policy} {bytes : List UInt8} {error : DecodeError} {stop : Nat}
    (fault : HeaderFault bytes 0 error stop) : error.IsTrue policy bytes := by
  cases fault with
  | @mismatch earlier later field expected found fields stands complete differs =>
    rw [Nat.zero_add]
    obtain ⟨rest, same⟩ := stands
    rw [List.drop_zero, List.append_assoc] at same
    refine ⟨earlier, later, expected, found, fields, rfl, ?_, ⟨rest, ?_⟩, complete, differs⟩
    · rw [Header.take_earlier fields, ← same, List.take_left]
    · rw [← same, List.drop_left]
  | truncated fields stands left short => exact ⟨left, short⟩

/-- What was read up to the end of the main function is a chunk on its own. -/
theorem decode_take_of_yields {policy : Policy} {bytes : List UInt8} {tree : Prototype}
    {stop : Cursor} (yields : (Reader.mainFunction policy).Yields (.start bytes) tree stop) :
    decode policy (bytes.take stop.position) = .ok tree := by
  have same : (bytes.take stop.position).take stop.position = bytes.take stop.position := by
    rw [List.take_take, Nat.min_self]
  have alone := Reader.mainFunction_yields_of_take_eq policy yields same
  have nothing : (bytes.take stop.position).drop stop.position = [] :=
    List.drop_eq_nil_of_le (List.length_take_le stop.position bytes)
  exact ((Reader.chunk_yields_iff policy _ _ _).mpr ⟨alone, .inl nothing⟩).1

/-- Every error that reading bytes ends with is true of the bytes and the policy, and it points
into the bytes or to their end. -/
theorem decode_error_isTrue (policy : Policy) (bytes : List UInt8) (error : DecodeError)
    (failed : decode policy bytes = .error error) :
    error.IsTrue policy bytes ∧ error.offset ≤ bytes.length := by
  have isTrue : error.IsTrue policy bytes := by
    rcases (Reader.chunk_fails_iff policy (.start bytes) error).mp failed with
      beginning | ⟨tree, stop, yields, some, strict, rfl⟩
    · have faults := (Reader.mainFunction_failsBy policy bytes).faults error beginning
      rcases faults with fault | fault
      · exact fault.isTrue
      · exact fault.isTrue
    · obtain ⟨front, _, passes⟩ := ((Reader.mainFunction_accepts policy).yields_iff _ _ _).mp yields
      have count : 1 ≤ stop.remaining := List.length_pos_iff.mpr some
      have total : stop.position + stop.remaining = bytes.length :=
        passes.total.trans (Nat.zero_add bytes.length)
      exact ⟨strict, count, total, tree, decode_take_of_yields yields⟩
  exact ⟨isTrue, isTrue.offset_le⟩

/-- A function below the greatest depth is reported right behind the length of its list. -/
theorem decode_error_isTrue_nested :
    decode ⟨1, 1, 0, true⟩ (Header.standard.bytes ++ List.replicate 25 0 ++ [1, 0, 0, 0]) =
        .error (.nestedTooDeep 0 62) ∧
      (DecodeError.nestedTooDeep 0 62).IsTrue ⟨1, 1, 0, true⟩
        (Header.standard.bytes ++ List.replicate 25 0 ++ [1, 0, 0, 0]) := by
  have failed : decode ⟨1, 1, 0, true⟩
      (Header.standard.bytes ++ List.replicate 25 0 ++ [1, 0, 0, 0]) =
        .error (.nestedTooDeep 0 62) := by
    decide +kernel
  have isTrue := decode_error_isTrue _ _ _ failed
  exact ⟨failed, isTrue.1⟩

end LuaChunk
