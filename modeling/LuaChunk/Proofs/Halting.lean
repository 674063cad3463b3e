import LuaChunk.Proofs.DepthCounter
import LuaChunk.Proofs.Faults
import LuaChunk.Proofs.Header
import LuaChunk.Wire.Session

/-!
# Where failures stop

A failure is the failure of one innermost read, and the reader stops where that read leaves it. No
state says where that is, but the error does: in front of bytes that are missing or of a function
that is nested too deeply, behind a header field that differs, behind an unknown tag, and behind the
size that is above its limit (`DecodeError.halt`). This holds of every step that fails, wherever it
begins (`failures_halt`). Steps that read a fixed number of bytes, or as many as they are told,
fail without moving, and the reader of strings fails in front of its size, inside of it or behind
it.
-/
namespace LuaChunk

/-- Where a reader stands after an error. The size of a string takes nine bytes if it begins with
the escape and one byte otherwise. -/
def DecodeError.halt (bytes : List UInt8) : DecodeError → Nat
  | headerMismatch field offset => offset + field.width
  | truncated offset _ _ => offset
  | unknownTag _ offset => offset + 1
  | limitExceeded what _ _ offset =>
    if what = "string" then
      if bytes[offset]? = some Reader.sizeEscape then offset + 9 else offset + 1
    else offset + 4
  | nestedTooDeep _ offset => offset
  | trailingBytes offset _ => offset

/-- A failure that begins at a place in bytes stops in the same bytes where the error says. -/
structure DecodeError.Halts (bytes : List UInt8) (place : Nat) (error : DecodeError)
    (stop : Cursor) : Prop where
  /-- It stops where the error says. -/
  stops : stop = .inside bytes (error.halt bytes)
  /-- It does not go back. -/
  forward : place ≤ error.halt bytes
  /-- It does not leave the bytes. -/
  within : error.halt bytes ≤ bytes.length
  /-- If bytes are missing then those that the error counts are left. -/
  left : ∀ offset needed available, error = .truncated offset needed available →
    stop.remaining = available

/-- The place where a failure stops is the one that the error says, and all bytes from there on are
available if some are missing. -/
structure DecodeError.HaltsAt (bytes : List UInt8) (error : DecodeError) (stop : Nat) : Prop where
  /-- It stops where the error says. -/
  stops : stop = error.halt bytes
  /-- If bytes are missing then all those that are left are available. -/
  left : ∀ offset needed available, error = .truncated offset needed available →
    offset + available = bytes.length

namespace DecodeError

/-- An error other than that of missing bytes says only where it stops. -/
theorem HaltsAt.of_stop {bytes : List UInt8} {error : DecodeError} {stop : Nat}
    (stops : stop = error.halt bytes)
    (other : ∀ offset needed available, error ≠ .truncated offset needed available) :
    error.HaltsAt bytes stop := ⟨stops, fun _ _ _ same => absurd same (other _ _ _)⟩

/-- Missing bytes are missing where the reader stands. -/
theorem haltsAt_truncated {bytes : List UInt8} {place needed available : Nat}
    (left : place + available = bytes.length) :
    (truncated place needed available).HaltsAt bytes place where
  stops := rfl
  left := by
    intro offset other rest same
    obtain ⟨rfl, -, rfl⟩ := truncated.inj same
    exact left

end DecodeError

/-- No list is called a string. -/
theorem Part.label_ne_string (part : Part) : part.label ≠ "string" := by
  cases part <;> decide

/-- Fields stand in the standard header with their widths. -/
theorem Header.length_of_fields_eq {earlier later : List (HeaderField × List UInt8)}
    {field : HeaderField} {expected : List UInt8}
    (fields : Header.standard.fields = earlier ++ (field, expected) :: later) :
    expected.length = field.width := by
  have widths : ∀ entry ∈ Header.standard.fields, entry.2.length = entry.1.width := by decide
  have member : (field, expected) ∈ Header.standard.fields := by
    rw [fields]
    exact List.mem_append_right earlier List.mem_cons_self
  exact widths _ member

/-- A reader that fails in a function stops where the error says. -/
theorem Fault.haltsAt {policy : Policy} {bytes : List UInt8} {error : DecodeError} {stop : Nat}
    (fault : Fault policy bytes error stop) : error.HaltsAt bytes stop := by
  cases fault with
  | truncated left short => exact DecodeError.haltsAt_truncated left
  | unknownTag stands unknown => exact .of_stop rfl nofun
  | @longString place declared size spelled stands above =>
    refine .of_stop ?_ nofun
    -- The first byte of the size tells how long it is.
    have first : bytes[place]? = size.head? := by
      obtain ⟨rest, same⟩ := stands
      have some : size ≠ [] := List.ne_nil_of_length_pos spelled.length_pos
      rw [← Nat.add_zero place, ← List.getElem?_drop, ← List.head?_eq_getElem?, ← same,
        List.head?_append_of_ne_nil _ some]
    rw [DecodeError.halt, if_pos rfl, first, spelled.length_eq]
    split <;> rfl
  | longList part stands above =>
    refine .of_stop ?_ nofun
    rw [DecodeError.halt, if_neg part.label_ne_string]
  | tooDeep stands some within => exact .of_stop rfl nofun

/-- A reader that fails in a header stops where the error says. -/
theorem HeaderFault.haltsAt {bytes : List UInt8} {start : Nat} {error : DecodeError} {stop : Nat}
    (fault : HeaderFault bytes start error stop) : error.HaltsAt bytes stop := by
  cases fault with
  | mismatch fields stands complete differs =>
    refine .of_stop ?_ nofun
    rw [DecodeError.halt, Header.length_of_fields_eq fields]
  | truncated fields stands left short => exact DecodeError.haltsAt_truncated left

namespace Reader

variable {α β : Type} {bytes : List UInt8} {place : Nat}

/-- If the place where a reader fails is the one that the error says, then its failures halt. -/
theorem FailsBy.halts {read : Reader α}
    (fails : FailsBy bytes (DecodeError.HaltsAt bytes) read place) {error : DecodeError}
    (failed : (read (.inside bytes place)).outcome = .error error) :
    error.Halts bytes place (read (.inside bytes place)).stop := by
  obtain ⟨last, forward, within, stopped⟩ := fails.stays
  obtain ⟨stops, left⟩ := fails.faults error failed
  rw [stopped] at stops ⊢
  obtain rfl : last = error.halt bytes := stops
  refine ⟨rfl, forward, within, ?_⟩
  intro offset needed available truncated
  have total := left offset needed available truncated
  have here : error.halt bytes = offset := by rw [truncated]; rfl
  show (bytes.drop (error.halt bytes)).length = available
  rw [List.length_drop, here]
  omega

/-- Bytes that end too early halt where they are missing. -/
theorem haltsAt_short (place needed : Nat) (within : place ≤ bytes.length)
    (_ : bytes.length - place < needed) :
    (DecodeError.truncated place needed (bytes.length - place)).HaltsAt bytes place :=
  DecodeError.haltsAt_truncated (Nat.add_sub_of_le within)

/-- A reader does not move where it fails. -/
def Still (read : Reader α) : Prop :=
  ∀ cursor error, (read cursor).outcome = .error error → (read cursor).stop = cursor

/-- Bytes are taken all together or not at all. -/
theorem block_still (size announced : Nat) : (block size announced).Still := by
  intro cursor error failed
  by_cases enough : size ≤ cursor.remaining
  · rw [block_of_le enough] at failed
    contradiction
  · rw [block_of_lt (Nat.lt_of_not_le enough)]

/-- A reader whose values are changed moves as before. -/
theorem Still.map {read : Reader α} (still : read.Still) (change : α → β) :
    (read >>= fun value => pure (change value)).Still := by
  intro cursor error failed
  cases answer : (read cursor).outcome with
  | error earlier =>
    rw [bind_eq_of_error answer]
    exact still cursor earlier answer
  | ok value =>
    rw [bind_eq_of_ok answer] at failed
    contradiction

/-- Reading nothing does not fail. -/
theorem still_pure (value : α) : (pure value : Reader α).Still := nofun

/-- Reading a number does not move where it fails. -/
theorem unsigned_still (width : Nat) : (unsigned width).Still := (block_still width width).map _

/-- Reading a word of eight bytes does not move where it fails. -/
theorem longWord_still : longWord.Still := (unsigned_still 8).map _

/-- Behind its size a string fails without moving. -/
theorem stringBehind_still (limit offset size : Nat) :
    (stringBehind limit offset size).Still := by
  rw [stringBehind]
  split
  · exact still_pure _
  split
  · exact fun _ _ _ => rfl
  · exact (block_still _ _).map _

/-- How many bytes the reader of strings takes until it knows the size or finds that it is cut
off: none, a size in one byte, the escape alone, or a size behind the escape. -/
def sizeTaken : List UInt8 → Nat
  | [] => 0
  | first :: rest => if first = sizeEscape then if rest.length < 8 then 1 else 9 else 1

/-- The escape is taken alone if the size behind it is cut off. -/
theorem sizeTaken_escape (rest : List UInt8) :
    sizeTaken (sizeEscape :: rest) = if rest.length < 8 then 1 else 9 := by
  rw [sizeTaken, if_pos rfl]

/-- A size is taken as a whole. -/
theorem sizeTaken_append {size : Nat} {written : List UInt8} (spelled : SizeSpelledBy size written)
    (rest : List UInt8) : sizeTaken (written ++ rest) = written.length := by
  cases spelled with
  | short first direct => exact if_neg direct
  | long size =>
    have full : ¬(LittleEndian.encode 8 size.toNat ++ rest).length < 8 := by
      rw [List.length_append, LittleEndian.length_encode]
      omega
    rw [List.length_cons, LittleEndian.length_encode]
    exact (sizeTaken_escape _).trans (if_neg full)

/-- A string that cannot be read is given up behind what is taken for its size. -/
theorem string_stops {limit place : Nat} {unread : List UInt8} {error : DecodeError}
    (failed : (string limit ⟨place, unread⟩).outcome = .error error) :
    (string limit ⟨place, unread⟩).stop =
      ⟨place + sizeTaken unread, unread.drop (sizeTaken unread)⟩ := by
  rcases exists_sizeSpelledBy unread with
    rfl | ⟨rest, short, rfl⟩ | ⟨size, written, rest, spelled, rfl⟩
  · rw [string_nil]
    rfl
  · rw [string_escape short, sizeTaken_escape, if_pos short]
    rfl
  · rw [string_append limit spelled] at failed ⊢
    rw [stringBehind_still _ _ _ _ _ failed, sizeTaken_append spelled, List.drop_left]

end Reader

namespace WireStep

/-- Every step that reads an item halts where its error says. -/
theorem reader_failsBy (step : WireStep) (maxString : Nat) {bytes : List UInt8} {place : Nat}
    (within : place ≤ bytes.length) :
    Reader.FailsBy bytes (DecodeError.HaltsAt bytes) (step.reader maxString) place := by
  cases step with
  | byte => exact (Reader.byte_failsBy Reader.haltsAt_short within).map WireItem.byte
  | word => exact (Reader.word_failsBy Reader.haltsAt_short within).map WireItem.word
  | longWord => exact (Reader.longWord_failsBy Reader.haltsAt_short within).map WireItem.longWord
  | integer => exact (Reader.integer_failsBy Reader.haltsAt_short within).map WireItem.integer
  | number => exact (Reader.number_failsBy Reader.haltsAt_short within).map WireItem.number
  | bytes count =>
    exact (Reader.block_failsBy count count within (Reader.haltsAt_short place count within)).map
      WireItem.bytes
  | words count =>
    have block : Reader.FailsBy bytes (DecodeError.HaltsAt bytes)
        (Reader.block (4 * count) (min (4 * count) (Nat.pow 2 64 - 1))) place :=
      Reader.block_failsBy _ _ within fun _ =>
        DecodeError.haltsAt_truncated (Nat.add_sub_of_le within)
    exact (block.map LittleEndian.words).map WireItem.words
  | string =>
    let policy : Policy := { Policy.default with maxString }
    have string :
        Reader.FailsBy bytes (Fault policy bytes) (Reader.string policy.maxString) place :=
      Reader.string_failsBy within
    exact (string.weaken fun _ _ => Fault.haltsAt).map WireItem.string
  | limit chosen => exact Reader.failsBy_pure _ within

/-- A step other than reading a string does not move where it fails. -/
theorem reader_still {step : WireStep} (other : step ≠ string) (maxString : Nat) :
    (step.reader maxString).Still := by
  cases step with
  | byte => exact ((Reader.unsigned_still 1).map _).map WireItem.byte
  | word => exact ((Reader.unsigned_still 4).map _).map WireItem.word
  | longWord => exact Reader.longWord_still.map WireItem.longWord
  | integer => exact (Reader.longWord_still.map _).map WireItem.integer
  | number => exact (Reader.longWord_still.map _).map WireItem.number
  | bytes count => exact (Reader.block_still count count).map WireItem.bytes
  | words count => exact ((Reader.block_still _ _).map _).map WireItem.words
  | string => exact absurd rfl other
  | limit chosen => exact Reader.still_pure _

/-- A step that reads a string gives it up behind what is taken for its size. -/
theorem string_stops {maxString place : Nat} {bytes : List UInt8} {error : DecodeError}
    (failed : (string.reader maxString (.inside bytes place)).outcome = .error error) :
    (string.reader maxString (.inside bytes place)).stop =
      .inside bytes (place + Reader.sizeTaken (bytes.drop place)) := by
  rcases (Reader.bind_fails_iff _ _ _ error).mp failed with cut | ⟨value, middle, _, failed⟩
  · have stops := Reader.string_stops cut
    rw [List.drop_drop] at stops
    exact (Reader.bind_of_error cut _).2.trans stops
  · contradiction

end WireStep

/-- Every step that reads a part of a chunk halts where its error says. -/
theorem ChunkStep.reader_failsBy (policy : Policy) {step : ChunkStep} (part : step ≠ chunk)
    {bytes : List UInt8} {place : Nat} (within : place ≤ bytes.length) :
    Reader.FailsBy bytes (DecodeError.HaltsAt bytes) (step.reader policy) place := by
  cases step with
  | header =>
    have header : Reader.FailsBy bytes (HeaderFault bytes place) Reader.header place :=
      Reader.header_failsBy place within
    exact (header.weaken fun _ _ => HeaderFault.haltsAt).map ChunkItem.header
  | constant =>
    have constant : Reader.FailsBy bytes (Fault policy bytes) (Reader.constant policy) place :=
      Reader.constant_failsBy within
    exact (constant.weaken fun _ _ => Fault.haltsAt).map ChunkItem.constant
  | function inherited =>
    have function : Reader.FailsBy bytes (Fault policy bytes)
        (Reader.function policy inherited) place := Reader.function_failsBy inherited within
    exact (function.weaken fun _ _ => Fault.haltsAt).map ChunkItem.function
  | chunk => exact absurd rfl part

/-- After a failure a reader stands where the error says, in the bytes and not in front of the place
where it began. This is so for every step that reads an item of the wire format, under any limit on
strings, for every step that reads a part of a chunk, and for functions at any depth. A step that
reads an item other than a string does not move where it fails, and a string is given up behind what
is taken for its size. -/
theorem failures_halt (policy : Policy) (bytes : List UInt8) (place : Nat)
    (within : place ≤ bytes.length) :
    (∀ (step : WireStep) (maxString : Nat) (error : DecodeError) (after : WireState),
      step.take ⟨.inside bytes place, maxString⟩ = (.error error, after) →
        error.Halts bytes place after.cursor ∧
          after.cursor = .inside bytes
            (if step = .string then place + Reader.sizeTaken (bytes.drop place) else place)) ∧
    (∀ (step : ChunkStep) (error : DecodeError) (after : Cursor), step ≠ .chunk →
      step.take policy (.inside bytes place) = (.error error, after) →
        error.Halts bytes place after) ∧
    ∀ (beyond : ByteString → Counting Prototype) (depth spare : Nat) (inherited : ByteString)
      (error : DecodeError),
      let calls := policy.maxDepth - depth + 1 + spare
      let counted :=
        Counting.function policy beyond calls inherited depth (.inside bytes place)
      counted.1.outcome = .error error → error.Halts bytes place counted.1.stop := by
  refine ⟨?_, ?_, ?_⟩
  · intro step maxString error after taken
    obtain ⟨failed, rfl⟩ := Prod.mk.inj taken
    refine ⟨(step.reader_failsBy maxString within).halts failed, ?_⟩
    by_cases string : step = .string
    · rw [if_pos string]
      subst string
      exact WireStep.string_stops failed
    · rw [if_neg string]
      exact WireStep.reader_still string maxString _ _ failed
  · intro step error after part taken
    obtain ⟨failed, rfl⟩ := Prod.mk.inj taken
    rw [if_neg part]
    exact (ChunkStep.reader_failsBy policy part within).halts failed
  · intro beyond depth spare inherited error calls counted failed
    have reads :
        counted = (Reader.functionAt policy depth inherited (.inside bytes place), depth) :=
      Counting.function_eq policy beyond depth spare inherited _
    rw [reads] at failed ⊢
    have function : Reader.FailsBy bytes (Fault policy bytes)
        (Reader.functionAt policy depth inherited) place :=
      Reader.functionWith_failsBy (fun name _ within =>
        Reader.functions_failsBy (policy.maxDepth - depth) name within) inherited within
    exact (function.weaken fun _ _ => Fault.haltsAt).halts failed

/-- A string with its size behind the escape and above the limit stops nine bytes further on, a
header with a wrong version behind the version, and a function that may not have functions nested in
it behind their number, which says that there is one. -/
theorem failures_halt_inside :
    let string : List UInt8 := [7, 0xFF, 3, 0, 0, 0, 0, 0, 0, 0, 0x61]
    let version : List UInt8 := [0x1B, 0x4C, 0x75, 0x61, 0x52, 9]
    let function : List UInt8 := List.replicate 24 0 ++ [1, 0, 0, 0, 9]
    let policy : Policy := ⟨1, 1, 3, true⟩
    (WireStep.string.take ⟨.inside string 1, 1⟩).2.cursor = ⟨10, [0x61]⟩ ∧
      (ChunkStep.header.take policy (.inside version 0)).2 = ⟨5, [9]⟩ ∧
      (Counting.function policy (fun _ => pure default) (policy.maxDepth - 3 + 1 + 0) .empty 3
        (.inside function 0)).1.stop = ⟨28, [9]⟩ := by
  intro string version function policy
  have long : (WireStep.string.take ⟨.inside string 1, 1⟩).1 =
      .error (.limitExceeded "string" 2 1 1) := by decide
  have wrong : (ChunkStep.header.take policy (.inside version 0)).1 =
      .error (.headerMismatch .version 4) := by decide
  have deep : (Counting.function policy (fun _ => pure default) (policy.maxDepth - 3 + 1 + 0)
      .empty 3 (.inside function 0)).1.outcome = .error (.nestedTooDeep 3 28) := by
    decide +kernel
  have tenth : Cursor.inside string (DecodeError.halt string (.limitExceeded "string" 2 1 1)) =
      ⟨10, [0x61]⟩ := by decide
  have fifth : Cursor.inside version 5 = ⟨5, [9]⟩ := by decide
  have last : Cursor.inside function 28 = ⟨28, [9]⟩ := by decide
  have within : 1 ≤ string.length := by decide
  -- What is to be read is forgotten here, so that nothing is read once more.
  clear_value string version function policy
  obtain ⟨wire, _, _⟩ := failures_halt policy string 1 within
  obtain ⟨_, chunk, _⟩ := failures_halt policy version 0 (Nat.zero_le _)
  obtain ⟨_, _, nested⟩ := failures_halt policy function 0 (Nat.zero_le _)
  refine ⟨?_, ?_, ?_⟩
  · exact (wire .string 1 _ _ (Prod.ext long rfl)).1.stops.trans tenth
  · exact (chunk .header _ _ nofun (Prod.ext wrong rfl)).stops.trans fifth
  · exact (nested (fun _ => pure default) 3 0 .empty _ deep).stops.trans last

end LuaChunk
