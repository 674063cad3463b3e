import Mathlib.Data.Nat.Find
import LuaChunk.Proofs.Acceptance
import LuaChunk.Proofs.Progress
import LuaChunk.Proofs.Reader.Strings

/-!
# The first wrong field of a header

The fields of the header lie side by side in its 33 bytes, each with its start and its width. A
field is right where all of its bytes are there and are those of the standard header, and the
reader of headers names the first field that is not right (`Reader.header_names_first_wrong`). Its
fields are of four kinds, and each can be read and compared as a value of its kind: this is the
same as comparing the bytes, because a value of each kind has one spelling
(`Reader.headerByKind_eq`).
-/
namespace LuaChunk

namespace HeaderField

/-- The number of bytes of a field. -/
def width : HeaderField → Nat
  | signature => 4
  | version => 1
  | format => 1
  | transferCheck => 6
  | intSize => 1
  | stringSizeSize => 1
  | instructionSize => 1
  | integerSize => 1
  | numberSize => 1
  | integerSample => 8
  | numberSample => 8

/-- The fields in front of a field. -/
def before (field : HeaderField) : List HeaderField := all.takeWhile (· ≠ field)

/-- The fields behind a field. -/
def behind (field : HeaderField) : List HeaderField := (all.dropWhile (· ≠ field)).tail

/-- How many bytes of a header stand in front of a field. -/
def start (field : HeaderField) : Nat := (field.before.map width).sum

/-- The bytes of a field in the standard header. -/
def reference (field : HeaderField) : List UInt8 :=
  (Header.standard.bytes.drop field.start).take field.width

/-- A field with its bytes in the standard header. -/
def entry (field : HeaderField) : HeaderField × List UInt8 := (field, field.reference)

/-- Every byte of a field is there and is that of the standard header. -/
def IsRight (field : HeaderField) (unread : List UInt8) : Prop :=
  ∀ index < field.width,
    unread[field.start + index]? = Header.standard.bytes[field.start + index]?

/-- Whether a field is right is decidable. -/
instance decidableIsRight (field : HeaderField) (unread : List UInt8) :
    Decidable (field.IsRight unread) := inferInstanceAs (Decidable (∀ index < _, _))

/-- A field is not right, and the fields in front of it are. -/
structure IsFirstWrong (field : HeaderField) (unread : List UInt8) : Prop where
  /-- Some byte of the field is missing or differs. -/
  wrong : ¬field.IsRight unread
  /-- The fields in front of it are right. -/
  earlier : ∀ other : HeaderField, other.start < field.start → other.IsRight unread

/-- The widths of the fields in wire order. -/
example : all.map width = [4, 1, 1, 6, 1, 1, 1, 1, 1, 8, 8] := rfl

/-- Each field is listed. -/
theorem mem_all (field : HeaderField) : field ∈ all := by cases field <;> decide

/-- The standard header consists of the fields with their bytes. -/
theorem fields_standard (field : HeaderField) :
    Header.standard.fields = field.before.map entry ++ field.entry :: field.behind.map entry := by
  cases field <;> decide

/-- The fields in front of a field have the bytes in front of it. -/
theorem flatMap_before (field : HeaderField) :
    (field.before.map entry).flatMap Prod.snd = Header.standard.bytes.take field.start := by
  cases field <;> decide

/-- A field has its width. -/
theorem length_reference (field : HeaderField) : field.reference.length = field.width := by
  cases field <;> decide

/-- A field ends inside the header. -/
theorem start_add_width_le (field : HeaderField) : field.start + field.width ≤ 33 := by
  cases field <;> decide

/-- Each place inside a header lies in a field. -/
theorem exists_field : ∀ index < 33, ∃ field ∈ all,
    field.start ≤ index ∧ index < field.start + field.width := by decide

/-- A field that starts in front of another one ends in front of it. -/
theorem add_width_le_start {field other : HeaderField} (front : other.start < field.start) :
    other.start + other.width ≤ field.start := by
  have disjoint : ∀ field ∈ all, ∀ other ∈ all, other.start < field.start →
      other.start + other.width ≤ field.start := by decide
  exact disjoint field (mem_all field) other (mem_all other) front

/-- A field is right if and only if its bytes are those of the standard header. -/
theorem isRight_iff (field : HeaderField) (unread : List UInt8) :
    field.IsRight unread ↔ (unread.drop field.start).take field.width = field.reference := by
  rw [List.ext_getElem?_iff]
  simp only [reference, List.getElem?_take, List.getElem?_drop]
  constructor
  · intro right index
    split
    · exact right index ‹_›
    · rfl
  · intro same index inside
    have here := same index
    rwa [if_pos inside, if_pos inside] at here

/-- The field in which the first bytes differ is the first wrong one. -/
theorem isFirstWrong_of_first {field : HeaderField} {unread : List UInt8} {index : Nat}
    (agree : ∀ earlier < index, unread[earlier]? = Header.standard.bytes[earlier]?)
    (differs : unread[index]? ≠ Header.standard.bytes[index]?)
    (begins : field.start ≤ index) (ends : index < field.start + field.width) :
    field.IsFirstWrong unread where
  wrong := by
    intro right
    have here := right (index - field.start) (by omega)
    rw [Nat.add_sub_cancel' begins] at here
    exact differs here
  earlier := by
    intro other front offset inside
    have apart := add_width_le_start front
    exact agree _ (by omega)

/-- In front of the first wrong field the bytes are those of the standard header. -/
theorem IsFirstWrong.take_eq {field : HeaderField} {unread : List UInt8}
    (first : field.IsFirstWrong unread) :
    unread.take field.start = Header.standard.bytes.take field.start := by
  apply List.ext_getElem?
  intro index
  rw [List.getElem?_take, List.getElem?_take]
  by_cases inside : index < field.start
  · rw [if_pos inside, if_pos inside]
    have within := start_add_width_le field
    obtain ⟨other, _, begins, ends⟩ := exists_field index (by omega)
    have right := first.earlier other (by omega) (index - other.start) (by omega)
    rwa [Nat.add_sub_cancel' begins] at right
  · rw [if_neg inside, if_neg inside]

end HeaderField

/-- Bytes that do not begin with the standard header have a first place where they differ from it,
and it lies in a field. -/
theorem Header.exists_first_difference {unread : List UInt8}
    (other : unread.take 33 ≠ standard.bytes) :
    ∃ (index : Nat) (field : HeaderField),
      (∀ earlier < index, unread[earlier]? = standard.bytes[earlier]?) ∧
        unread[index]? ≠ standard.bytes[index]? ∧
        field.start ≤ index ∧ index < field.start + field.width := by
  -- If no place differed then the first 33 bytes would be the same.
  have some : ∃ index, index < 33 ∧ unread[index]? ≠ standard.bytes[index]? := by
    by_contra none
    apply other
    apply List.ext_getElem?
    intro index
    rw [List.getElem?_take]
    by_cases inside : index < 33
    · rw [if_pos inside]
      by_contra differs
      exact none ⟨index, inside, differs⟩
    · rw [if_neg inside, List.getElem?_eq_none (by rw [length_bytes_standard]; omega)]
  obtain ⟨inside, differs⟩ := Nat.find_spec some
  obtain ⟨field, _, begins, ends⟩ := HeaderField.exists_field _ inside
  refine ⟨_, field, ?_, differs, begins, ends⟩
  intro earlier front
  by_contra differsEarlier
  exact Nat.find_min some front ⟨by omega, differsEarlier⟩

namespace Reader

variable {α β : Type}

section Expect

variable {field : HeaderField} {expected : List UInt8}
  {further : List (HeaderField × List UInt8)} {cursor : Cursor}

/-- Fields that are there as expected are passed. -/
theorem expect_append (earlier later : List (HeaderField × List UInt8)) (place : Nat)
    (rest : List UInt8) :
    expect (earlier ++ later) ⟨place, earlier.flatMap Prod.snd ++ rest⟩ =
      expect later ⟨place + (earlier.flatMap Prod.snd).length, rest⟩ := by
  induction earlier generalizing place with
  | nil => rfl
  | cons first further ih =>
    obtain ⟨field, expected⟩ := first
    have taken : bytes expected.length ⟨place, expected ++ (further.flatMap Prod.snd ++ rest)⟩ =
        ⟨.ok expected, ⟨place + expected.length, further.flatMap Prod.snd ++ rest⟩, []⟩ :=
      Yields.eq_of_quiet ((block_accepts _ _).yields_iff _ _ _ |>.mpr
        ⟨expected, ⟨rfl, rfl⟩, rfl, rfl⟩) (block_quiet _ _)
    rw [List.flatMap_cons, List.append_assoc, List.length_append, ← Nat.add_assoc, ← ih]
    show (bytes expected.length >>= fun found => if found = expected then
      expect (further ++ later) else fail (.headerMismatch field place)) _ = _
    rw [bind_eq_of_eq_ok taken, if_pos rfl]

/-- A field is read as a whole, compared, and followed by the further ones. -/
theorem expect_cons (field : HeaderField) (expected : List UInt8)
    (further : List (HeaderField × List UInt8)) :
    expect ((field, expected) :: further) = (do
      let offset ← position
      let found ← bytes expected.length
      if found = expected then expect further else fail (.headerMismatch field offset)) := rfl

/-- A field for which too few bytes are left is missing. -/
theorem expect_of_lt (missing : cursor.remaining < expected.length) :
    expect ((field, expected) :: further) cursor =
      ⟨.error (.truncated cursor.position expected.length cursor.remaining), cursor, []⟩ :=
  bind_eq_of_eq_error (block_of_lt missing _) _

/-- A field that is there and differs is refused behind it. -/
theorem expect_of_ne (enough : expected.length ≤ cursor.remaining)
    (differs : cursor.unread.take expected.length ≠ expected) :
    expect ((field, expected) :: further) cursor =
      ⟨.error (.headerMismatch field cursor.position),
        ⟨cursor.position + expected.length, cursor.unread.drop expected.length⟩, []⟩ := by
  refine (bind_eq_of_eq_ok (block_of_le enough _) _).trans ?_
  rw [if_neg differs]
  rfl

end Expect

/-- The header is read field by field and kept in a record. -/
theorem header_eq :
    header = (do
      expect Header.standard.fields
      log (.header .standard)
      return .standard) := rfl

/-- The reader of headers gives up at the first wrong field. It stops in front of a field that is
not there as a whole, even if some of its bytes are there and differ, and behind one that is. -/
theorem header_of_isFirstWrong {field : HeaderField} {cursor : Cursor}
    (first : field.IsFirstWrong cursor.unread) :
    header cursor =
      if cursor.remaining - field.start < field.width then
        ⟨.error (.truncated (cursor.position + field.start) field.width
          (cursor.remaining - field.start)),
          ⟨cursor.position + field.start, cursor.unread.drop field.start⟩, []⟩
      else
        ⟨.error (.headerMismatch field (cursor.position + field.start)),
          ⟨cursor.position + field.start + field.width,
            cursor.unread.drop (field.start + field.width)⟩, []⟩ := by
  obtain ⟨place, unread⟩ := cursor
  have front := first.take_eq
  have differs := (field.isRight_iff unread).not.mp first.wrong
  have left : (Cursor.mk place unread).remaining - field.start =
      (unread.drop field.start).length := List.length_drop.symm
  have startLength : (Header.standard.bytes.take field.start).length = field.start := by
    have within := field.start_add_width_le
    rw [List.length_take, Header.length_bytes_standard]
    omega
  -- The fields in front are passed, so the reader comes to the field as if it had begun there.
  have passed : expect Header.standard.fields ⟨place, unread⟩ =
      expect (field.entry :: field.behind.map HeaderField.entry)
        ⟨place + field.start, unread.drop field.start⟩ := by
    have parts : unread = (field.before.map HeaderField.entry).flatMap Prod.snd ++
        unread.drop field.start := by
      rw [field.flatMap_before, ← front, List.take_append_drop]
    rw [field.fields_standard]
    conv_lhs => rw [parts]
    rw [expect_append, field.flatMap_before, startLength]
  rw [left]
  by_cases missing : (unread.drop field.start).length < field.width
  · rw [if_pos missing]
    refine bind_eq_of_eq_error (passed.trans ?_) _
    have short : (Cursor.mk (place + field.start) (unread.drop field.start)).remaining <
        field.reference.length := by
      rw [field.length_reference]
      exact missing
    rw [HeaderField.entry, expect_of_lt short, field.length_reference]
    rfl
  · rw [if_neg missing]
    refine bind_eq_of_eq_error (passed.trans ?_) _
    have enough : field.reference.length ≤
        (Cursor.mk (place + field.start) (unread.drop field.start)).remaining := by
      rw [field.length_reference]
      exact Nat.le_of_not_lt missing
    rw [HeaderField.entry, expect_of_ne enough (by rwa [field.length_reference]),
      field.length_reference, List.drop_drop]

section Kinds

/-- Read a value of a field and compare it with the one expected. -/
def expectValue [DecidableEq α] (field : HeaderField) (read : Reader α) (expected : α) :
    Reader α := do
  let offset ← position
  let found ← read
  if found = expected then return found else fail (.headerMismatch field offset)

/-- Read the header with each field as a value of its kind: byte arrays, bytes, an integer and a
float, which is compared by its bits. -/
def headerByKind : Reader Header := do
  let signature ← expectValue .signature (bytes 4) Header.standard.signature
  let version ← expectValue .version byte Header.standard.version
  let format ← expectValue .format byte Header.standard.format
  let transferCheck ← expectValue .transferCheck (bytes 6) Header.standard.transferCheck
  let intSize ← expectValue .intSize byte Header.standard.intSize
  let stringSizeSize ← expectValue .stringSizeSize byte Header.standard.stringSizeSize
  let instructionSize ← expectValue .instructionSize byte Header.standard.instructionSize
  let integerSize ← expectValue .integerSize byte Header.standard.integerSize
  let numberSize ← expectValue .numberSize byte Header.standard.numberSize
  let integerSample ← expectValue .integerSample integer Header.standard.integerSample
  let numberSample ← expectValue .numberSample number Header.standard.numberSample
  let header : Header := {
    signature, version, format, transferCheck, intSize, stringSizeSize, instructionSize,
    integerSize, numberSize, integerSample, numberSample }
  log (.header header)
  return header

variable {width : Nat} {read : Reader α} {decode : List UInt8 → α}

/-- If a reader takes bytes of a width as a value, and each value has one spelling, then bytes are
taken as a value exactly if they spell it. -/
theorem decode_eq_iff {spell : α → List UInt8}
    (form : read = bytes width >>= fun found => pure (decode found))
    (accepts : read.Accepts fun value written => written = spell value)
    {found : List UInt8} (full : found.length = width) (value : α) :
    decode found = value ↔ found = spell value := by
  have passes : (Cursor.start found).Passes found ⟨width, []⟩ :=
    ⟨(List.append_nil found).symm, by rw [full]; exact (Nat.zero_add width).symm⟩
  have reads : read.Yields (.start found) (decode found) ⟨width, []⟩ := by
    rw [form, yields_bind]
    exact ⟨found, ⟨width, []⟩, ((block_accepts width width).yields_iff _ _ _).mpr
      ⟨found, ⟨full, rfl⟩, passes⟩, rfl, rfl⟩
  constructor
  · intro same
    obtain ⟨written, spelled, unread, _⟩ := (accepts.yields_iff _ _ _).mp reads
    have whole : found = written ++ [] := unread
    rw [whole, List.append_nil, spelled, same]
  · intro spelled
    have yields := (accepts.yields_iff (.start found) value _).mpr ⟨found, spelled, passes⟩
    exact Except.ok.inj (reads.1.symm.trans yields.1)

/-- A field that is compared as a value is compared as the bytes that are taken as that value. -/
theorem expectValue_bind_eq [DecidableEq α] (field : HeaderField) {value : α}
    {expected : List UInt8} (form : read = bytes width >>= fun found => pure (decode found))
    (full : expected.length = width)
    (spelled : ∀ found : List UInt8, found.length = width →
      (decode found = value ↔ found = expected))
    {further : List (HeaderField × List UInt8)} {next : α → Reader β} {last : Unit → Reader β}
    (tail : next value = (expect further >>= last)) :
    (expectValue field read value >>= next) =
      (expect ((field, expected) :: further) >>= last) := by
  rw [expect_cons]
  simp only [expectValue, form, bind_assoc, pure_bind, full]
  refine congrArg (position >>= ·) (funext fun offset => funext fun cursor => ?_)
  apply bind_congr_of_yields
  intro found stop yields
  obtain ⟨_, ⟨complete, _⟩, _⟩ := ((block_accepts width width).yields_iff _ _ _).mp yields
  have same := spelled found complete
  by_cases matched : found = expected
  · rw [if_pos (same.mpr matched), if_pos matched, pure_bind, same.mpr matched, tail]
  · rw [if_neg (mt same.mp matched), if_neg matched]
    rfl

variable {further : List (HeaderField × List UInt8)} {last : Unit → Reader β}

/-- A byte array is compared as its bytes. -/
theorem expectValue_bytes_bind (field : HeaderField) {expected : List UInt8}
    (full : expected.length = width) {next : List UInt8 → Reader β}
    (tail : next expected = (expect further >>= last)) :
    (expectValue field (bytes width) expected >>= next) =
      (expect ((field, expected) :: further) >>= last) :=
  expectValue_bind_eq field (bind_pure (bytes width)).symm full (fun _ _ => Iff.rfl) tail

/-- A byte is compared as itself. -/
theorem expectValue_byte_bind (field : HeaderField) {value : UInt8} {next : UInt8 → Reader β}
    (tail : next value = (expect further >>= last)) :
    (expectValue field byte value >>= next) = (expect ((field, [value]) :: further) >>= last) := by
  have form : byte = bytes 1 >>= fun found =>
      pure (UInt8.ofNat (LittleEndian.decode found)) := by
    simp only [byte, Primitives.byte, Primitives.unsigned, bind_assoc, pure_bind]
    rfl
  exact expectValue_bind_eq field form rfl
    (fun _ full => decode_eq_iff form byte_accepts full value) tail

/-- An integer is compared as the eight bytes of its two's complement. -/
theorem expectValue_integer_bind (field : HeaderField) {value : Int64} {next : Int64 → Reader β}
    (tail : next value = (expect further >>= last)) :
    (expectValue field integer value >>= next) =
      (expect ((field, LittleEndian.encode 8 value.toUInt64.toNat) :: further) >>= last) := by
  have form : integer = bytes 8 >>= fun found =>
      pure (UInt64.ofNat (LittleEndian.decode found)).toInt64 := by
    simp only [integer, Primitives.integer, Primitives.longWord, Primitives.unsigned, bind_assoc,
      pure_bind]
    rfl
  exact expectValue_bind_eq field form (LittleEndian.length_encode 8 _)
    (fun _ full => decode_eq_iff form integer_accepts full value) tail

/-- A float is compared as the eight bytes of its bits. -/
theorem expectValue_number_bind (field : HeaderField) {value : Binary64}
    {next : Binary64 → Reader β} (tail : next value = (expect further >>= last)) :
    (expectValue field number value >>= next) =
      (expect ((field, LittleEndian.encode 8 value.bits.toNat) :: further) >>= last) := by
  have form : number = bytes 8 >>= fun found =>
      pure (Binary64.mk (UInt64.ofNat (LittleEndian.decode found))) := by
    simp only [number, Primitives.number, Primitives.longWord, Primitives.unsigned, bind_assoc,
      pure_bind]
    rfl
  exact expectValue_bind_eq field form (LittleEndian.length_encode 8 _)
    (fun _ full => decode_eq_iff form number_accepts full value) tail

/-- Comparing values is comparing bytes. -/
theorem headerByKind_eq : headerByKind = header := by
  rw [headerByKind, header_eq, Header.fields]
  refine expectValue_bytes_bind .signature (by rfl) ?_
  refine expectValue_byte_bind .version ?_
  refine expectValue_byte_bind .format ?_
  refine expectValue_bytes_bind .transferCheck (by rfl) ?_
  refine expectValue_byte_bind .intSize ?_
  refine expectValue_byte_bind .stringSizeSize ?_
  refine expectValue_byte_bind .instructionSize ?_
  refine expectValue_byte_bind .integerSize ?_
  refine expectValue_byte_bind .numberSize ?_
  refine expectValue_integer_bind .integerSample ?_
  exact expectValue_number_bind .numberSample rfl

end Kinds

/-- The header is read if and only if the next 33 bytes are those of the standard header. -/
theorem header_yields_iff (cursor : Cursor) (value : Header) (stop : Cursor) :
    header.Yields cursor value stop ↔
      value = .standard ∧ cursor.unread.take 33 = Header.standard.bytes ∧
        stop = ⟨cursor.position + 33, cursor.unread.drop 33⟩ := by
  rw [header_accepts.yields_iff]
  constructor
  · intro spelled
    obtain ⟨_, ⟨rfl, rfl⟩, unread, place⟩ := spelled
    rw [Header.length_bytes_standard] at place
    refine ⟨rfl, ?_, ?_⟩
    · rw [unread, ← Header.length_bytes_standard, List.take_left]
    · rw [unread, ← Header.length_bytes_standard, List.drop_left, Header.length_bytes_standard,
        ← place]
  · intro reads
    obtain ⟨rfl, same, rfl⟩ := reads
    refine ⟨_, ⟨rfl, rfl⟩, ?_, ?_⟩
    · show cursor.unread = _
      rw [← same, List.take_append_drop]
    · rw [Header.length_bytes_standard]

/-- The reader of headers compares the next bytes with the standard header field by field, as bytes
or each as a value of its kind. It reads the header if and only if the next 33 bytes are there and
are those of the standard header. Otherwise there is a first wrong field, and that field is reported
with the place where it starts: as truncated if not all of it is there, and as a mismatch if it is.
So a header that is there as a whole, with any of its bytes changed, is a mismatch of the field of
the first changed byte, whatever follows. -/
theorem header_names_first_wrong (cursor : Cursor) :
    headerByKind = header ∧
    (∀ value stop, header.Yields cursor value stop ↔
      value = .standard ∧ cursor.unread.take 33 = Header.standard.bytes ∧
        stop = ⟨cursor.position + 33, cursor.unread.drop 33⟩) ∧
    (cursor.unread.take 33 ≠ Header.standard.bytes →
      ∃ field : HeaderField, field.IsFirstWrong cursor.unread) ∧
    (∀ field : HeaderField, field.IsFirstWrong cursor.unread →
      (header cursor).outcome = .error
        (if cursor.remaining - field.start < field.width then
          .truncated (cursor.position + field.start) field.width (cursor.remaining - field.start)
        else .headerMismatch field (cursor.position + field.start))) ∧
    ∀ changed rest : List UInt8, changed.length = 33 → changed ≠ Header.standard.bytes →
      cursor.unread = changed ++ rest →
      ∃ (index : Nat) (field : HeaderField),
        (∀ earlier < index, changed[earlier]? = Header.standard.bytes[earlier]?) ∧
          changed[index]? ≠ Header.standard.bytes[index]? ∧
          field.start ≤ index ∧ index < field.start + field.width ∧
          (header cursor).outcome =
            .error (.headerMismatch field (cursor.position + field.start)) := by
  refine ⟨headerByKind_eq, header_yields_iff cursor, ?_, ?_, ?_⟩
  · intro other
    obtain ⟨index, field, agree, differs, begins, ends⟩ := Header.exists_first_difference other
    exact ⟨field, HeaderField.isFirstWrong_of_first agree differs begins ends⟩
  · intro field first
    rw [header_of_isFirstWrong first]
    split <;> rfl
  · intro changed rest full differs unread
    have taken : changed.take 33 = changed := by rw [← full, List.take_length]
    obtain ⟨index, field, agree, first, begins, ends⟩ :=
      Header.exists_first_difference (taken.symm ▸ differs)
    have within := field.start_add_width_le
    have inside : ∀ place < 33, cursor.unread[place]? = changed[place]? := by
      intro place inside
      rw [unread, List.getElem?_append_left (by omega)]
    have wrong : field.IsFirstWrong cursor.unread := by
      refine HeaderField.isFirstWrong_of_first ?_ ?_ begins ends
      · intro earlier front
        rw [inside earlier (by omega), agree earlier front]
      · rw [inside index (by omega)]
        exact first
    have enough : ¬cursor.remaining - field.start < field.width := by
      rw [Cursor.remaining, unread, List.length_append, full]
      omega
    refine ⟨index, field, agree, first, begins, ends, ?_⟩
    rw [header_of_isFirstWrong wrong, if_neg enough]

/-- Four bytes of a signature are no header yet, and it does not matter whether they are right; a
header with a wrong version and a wrong sample integer has a wrong version. -/
theorem header_names_first_wrong_version :
    let wrong : List UInt8 := Header.standard.bytes.set 4 0x52 |>.set 17 0
    (header ⟨7, [0x1B, 0x4C, 0]⟩).outcome = .error (.truncated 7 4 3) ∧
      (header ⟨7, wrong ++ [1]⟩).outcome = .error (.headerMismatch .version 11) ∧
      (header ⟨7, Header.standard.bytes ++ [1]⟩).outcome = .ok .standard := by
  intro wrong
  obtain ⟨_, _, _, cut, _⟩ := header_names_first_wrong ⟨7, [0x1B, 0x4C, 0]⟩
  obtain ⟨_, _, _, whole, _⟩ := header_names_first_wrong ⟨7, wrong ++ [1]⟩
  obtain ⟨_, reads, _⟩ := header_names_first_wrong ⟨7, Header.standard.bytes ++ [1]⟩
  have signature : HeaderField.signature.IsFirstWrong [0x1B, 0x4C, 0] :=
    @HeaderField.isFirstWrong_of_first _ _ 2 (by decide) (by decide) (by decide) (by decide)
  have version : HeaderField.version.IsFirstWrong (wrong ++ [1]) :=
    @HeaderField.isFirstWrong_of_first _ _ 4 (by decide) (by decide) (by decide) (by decide)
  exact ⟨cut .signature signature, whole .version version,
    ((reads .standard ⟨40, [1]⟩).mpr ⟨rfl, rfl, rfl⟩).1⟩

end Reader

end LuaChunk
