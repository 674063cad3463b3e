import LuaChunk.Proofs.Parts

/-!
# Readers and the records they keep

Two things can be said about the records of a reader. All of them have a property, also those of a
reading that fails (`Reader.Logs`); a reader is quiet if it keeps none at all. And where a reader
answers with a value, its records follow from the value, the bytes it passed and the place where
they stand (`Reader.Reports`). A list of elements reports them in a row: each element with its own
bytes, its own records and its own place, which is where the elements in front of it end (`Row`).
-/
namespace LuaChunk

section Rows

variable {α : Type}

/-- Elements that stand one behind the other from a place on, with the bytes and the records of each
one. -/
inductive Row (element : Nat → α → List UInt8 → List Record → Prop) :
    Nat → List α → List UInt8 → List Record → Prop where
  /-- No elements, no bytes and no records. -/
  | nil (place : Nat) : Row element place [] [] []
  /-- The first element stands at the place, the others behind its bytes. -/
  | cons {place : Nat} {value : α} {values : List α} {front back : List UInt8}
      {earlier later : List Record} (first : element place value front earlier)
      (further : Row element (place + front.length) values back later) :
      Row element place (value :: values) (front ++ back) (earlier ++ later)

/-- A row with the number of its elements in the four bytes in front of it. -/
inductive CountedRow (element : Nat → α → List UInt8 → List Record → Prop) :
    Nat → List α → List UInt8 → List Record → Prop where
  /-- The row stands behind the four bytes. -/
  | intro {place : Nat} {values : List α} {written : List UInt8} {records : List Record}
      (fits : values.length < Nat.pow 2 32)
      (row : Row element (place + 4) values written records) :
      CountedRow element place values (LittleEndian.encode 4 values.length ++ written) records

end Rows

namespace Reader

variable {α β : Type} {holds : Record → Prop}

/-- A sequence whose first reader fails is that failure. -/
theorem bind_eq_of_error {read : Reader α} {cursor : Cursor} {error : DecodeError}
    (failed : (read cursor).outcome = .error error) (next : α → Reader β) :
    (read >>= next) cursor = ⟨.error error, (read cursor).stop, (read cursor).records⟩ := by
  simp only [bind, andThen]
  generalize read cursor = reading at failed ⊢
  obtain ⟨outcome, stop, records⟩ := reading
  subst failed
  rfl

/-- A sequence whose first reader answers goes on with the second one, and its records are those of
both. -/
theorem bind_eq_of_ok {read : Reader α} {cursor : Cursor} {value : α}
    (answers : (read cursor).outcome = .ok value) (next : α → Reader β) :
    (read >>= next) cursor =
      ⟨(next value (read cursor).stop).outcome, (next value (read cursor).stop).stop,
        (read cursor).records ++ (next value (read cursor).stop).records⟩ := by
  simp only [bind, andThen]
  generalize read cursor = reading at answers ⊢
  obtain ⟨outcome, stop, records⟩ := reading
  subst answers
  rfl

/-- The records of a sequence begin with those of its first reader. -/
theorem bind_records_prefix (read : Reader α) (next : α → Reader β) (cursor : Cursor) :
    (read cursor).records <+: ((read >>= next) cursor).records := by
  cases answer : (read cursor).outcome with
  | error error =>
    simp only [bind_eq_of_error answer, List.prefix_refl]
  | ok value =>
    rw [bind_eq_of_ok answer]
    exact List.prefix_append _ _

/-- Every record that a reader keeps has a property, whether the reader fails or not. -/
def Logs (holds : Record → Prop) (read : Reader α) : Prop :=
  ∀ cursor, ∀ record ∈ (read cursor).records, holds record

/-- A reader keeps no records. -/
def Quiet (read : Reader α) : Prop := Logs (fun _ => False) read

/-- No record of a quiet reader. -/
theorem Quiet.records_eq_nil {read : Reader α} (quiet : read.Quiet) (cursor : Cursor) :
    (read cursor).records = [] := List.eq_nil_iff_forall_not_mem.mpr (quiet cursor)

/-- What a quiet reader logs has any property. -/
theorem Quiet.logs {read : Reader α} (quiet : read.Quiet) : read.Logs holds :=
  fun cursor record member => (quiet cursor record member).elim

/-- Reading nothing logs nothing. -/
theorem logs_pure (value : α) : (pure value : Reader α).Logs holds := nofun

/-- Giving up logs nothing. -/
theorem logs_fail (error : DecodeError) : (fail error : Reader α).Logs holds := nofun

/-- A record that has the property may be kept. -/
theorem logs_log {record : Record} (given : holds record) : (log record).Logs holds :=
  fun _ _ member => List.mem_singleton.mp member ▸ given

/-- A sequence logs what its readers log. -/
theorem Logs.bind {read : Reader α} {next : α → Reader β} (head : read.Logs holds)
    (tail : ∀ value, (next value).Logs holds) : (read >>= next).Logs holds := by
  intro cursor record member
  cases answer : (read cursor).outcome with
  | error error =>
    rw [bind_eq_of_error answer] at member
    exact head cursor record member
  | ok value =>
    rw [bind_eq_of_ok answer] at member
    rcases List.mem_append.mp member with earlier | later
    · exact head cursor record earlier
    · exact tail value _ record later

/-- Asking for the place logs nothing. -/
theorem logs_position_bind {next : Nat → Reader β} (tail : ∀ place, (next place).Logs holds) :
    (position >>= next).Logs holds := Logs.bind nofun tail

/-- A list of elements logs what the elements log. -/
theorem Logs.times {element : Reader α} (logs : element.Logs holds) (count : Nat) :
    (times element count).Logs holds := by
  induction count with
  | zero => exact logs_pure []
  | succ count ih =>
    rw [times_succ]
    exact logs.bind fun first => ih.bind fun further => logs_pure (first :: further)

/-- Taking a block logs nothing. -/
theorem block_quiet (size announced : Nat) : (block size announced).Quiet := by
  intro cursor record member
  by_cases enough : size ≤ cursor.remaining
  · rw [block_of_le enough] at member
    contradiction
  · rw [block_of_lt (by omega)] at member
    contradiction

/-- Reading a number logs nothing. -/
theorem unsigned_quiet (width : Nat) : (unsigned width).Quiet :=
  (block_quiet width width).bind fun _ => logs_pure _

/-- Reading a byte logs nothing. -/
theorem byte_quiet : byte.Quiet := (unsigned_quiet 1).bind fun _ => logs_pure _

/-- Reading a word logs nothing. -/
theorem word_quiet : word.Quiet := (unsigned_quiet 4).bind fun _ => logs_pure _

/-- Reading a word of eight bytes logs nothing. -/
theorem longWord_quiet : longWord.Quiet := (unsigned_quiet 8).bind fun _ => logs_pure _

/-- An integer. -/
theorem integer_quiet : integer.Quiet := longWord_quiet.bind fun _ => logs_pure _

/-- A float. -/
theorem number_quiet : number.Quiet := longWord_quiet.bind fun _ => logs_pure _

/-- Reading the size of a string logs nothing. -/
theorem stringSize_quiet : stringSize.Quiet := by
  apply byte_quiet.bind
  intro first
  split
  · exact longWord_quiet.bind fun _ => logs_pure _
  · exact logs_pure _

/-- Reading a string logs nothing. -/
theorem string_quiet (limit : Nat) : (string limit).Quiet := by
  apply logs_position_bind
  intro offset
  apply stringSize_quiet.bind
  intro size
  split
  · exact logs_pure _
  split
  · exact logs_fail _
  · exact (block_quiet _ _).bind fun _ => logs_pure _

/-- Reading the length of a list logs nothing. -/
theorem length_quiet (policy : Policy) (part : Part) : (length policy part).Quiet := by
  apply logs_position_bind
  intro offset
  apply word_quiet.bind
  intro declared
  split
  · exact logs_pure _
  · exact logs_fail _

/-- A list logs what its elements log. -/
theorem Logs.list {element : Reader α} (logs : element.Logs holds) (policy : Policy) (part : Part) :
    (list policy part element).Logs holds :=
  (length_quiet policy part).logs.bind fun count => logs.times count

/-- Reading a list of words logs nothing. -/
theorem wordList_quiet (policy : Policy) (part : Part) : (wordList policy part).Quiet :=
  (length_quiet policy part).bind fun _ => (block_quiet _ _).bind fun _ => logs_pure _

/-- Reading what follows a tag logs nothing. -/
theorem payload_quiet (policy : Policy) (tag : Constant.Tag) : (payload policy tag).Quiet := by
  cases tag with
  | nil => exact logs_pure _
  | boolean => exact byte_quiet.bind fun _ => logs_pure _
  | number => exact number_quiet.bind fun _ => logs_pure _
  | shortString => exact (string_quiet _).bind fun _ => logs_pure _
  | integer => exact integer_quiet.bind fun _ => logs_pure _
  | longString => exact (string_quiet _).bind fun _ => logs_pure _

/-- Reading an upvalue logs nothing. -/
theorem upvalue_quiet : upvalue.Quiet :=
  byte_quiet.bind fun _ => byte_quiet.bind fun _ => logs_pure _

/-- Reading a local variable logs nothing. -/
theorem localVariable_quiet (policy : Policy) : (localVariable policy).Quiet :=
  (string_quiet _).bind fun _ => word_quiet.bind fun _ => word_quiet.bind fun _ => logs_pure _

/-- Reading debug information logs nothing. -/
theorem debugInfo_quiet (policy : Policy) : (debugInfo policy).Quiet :=
  (wordList_quiet policy .lines).bind fun _ =>
    ((localVariable_quiet policy).list policy .locals).bind fun _ =>
      ((string_quiet _).list policy .upvalueNames).bind fun _ => logs_pure _

/-- Reading header fields logs nothing. -/
theorem expect_quiet (fields : List (HeaderField × List UInt8)) : (expect fields).Quiet := by
  induction fields with
  | nil => exact logs_pure ()
  | cons entry further ih =>
    apply logs_position_bind
    intro offset
    apply (block_quiet _ _).bind
    intro found
    split
    · exact ih
    · exact logs_fail _

/-- Where a reader answers with a value, it passed some bytes, and an account of the place, the
value, the bytes and the records is true. -/
def Reports (read : Reader α) (account : Nat → α → List UInt8 → List Record → Prop) : Prop :=
  ∀ cursor value, (read cursor).outcome = .ok value →
    ∃ written, cursor.Passes written (read cursor).stop ∧
      account cursor.position value written (read cursor).records

section Reports

variable {read : Reader α} {account : Nat → α → List UInt8 → List Record → Prop}

/-- A weaker account is true as well. -/
theorem Reports.mono {other : Nat → α → List UInt8 → List Record → Prop}
    (reports : read.Reports account)
    (weaker : ∀ place value written records, account place value written records →
      other place value written records) : read.Reports other := by
  intro cursor value answers
  obtain ⟨written, passes, told⟩ := reports cursor value answers
  exact ⟨written, passes, weaker _ _ _ _ told⟩

/-- A quiet reader that accepts a grammar reports a spelling and no records. -/
theorem Accepts.reports {grammar : α → List UInt8 → Prop} (accepts : read.Accepts grammar)
    (quiet : read.Quiet) :
    read.Reports fun _ value written records => grammar value written ∧ records = [] := by
  intro cursor value answers
  obtain ⟨written, spelled, passes⟩ := (accepts.yields_iff cursor value _).mp ⟨answers, rfl⟩
  exact ⟨written, passes, spelled, quiet.records_eq_nil cursor⟩

/-- Reading nothing passes no bytes and keeps no records. -/
theorem reports_pure (result : α) :
    (pure result : Reader α).Reports fun _ value written records =>
      result = value ∧ written = [] ∧ records = [] := by
  intro cursor value answers
  exact ⟨[], (cursor.passes_nil cursor).mpr rfl, Except.ok.inj answers, rfl, rfl⟩

/-- A failure never answers. -/
theorem reports_fail (error : DecodeError) : (fail error : Reader α).Reports account := nofun

/-- Readers in sequence report what the first one reports and then the second one, which begins
where the first one stops. -/
theorem Reports.bind {next : α → Reader β}
    {further : α → Nat → β → List UInt8 → List Record → Prop} (head : read.Reports account)
    (tail : ∀ first, (next first).Reports (further first)) :
    (read >>= next).Reports fun place value written records =>
      ∃ first front back earlier later, account place first front earlier ∧
        further first (place + front.length) value back later ∧
        written = front ++ back ∧ records = earlier ++ later := by
  intro cursor value answers
  cases answer : (read cursor).outcome with
  | error error =>
    rw [bind_eq_of_error answer] at answers
    contradiction
  | ok first =>
    rw [bind_eq_of_ok answer] at answers ⊢
    obtain ⟨front, passesFront, toldFront⟩ := head cursor first answer
    obtain ⟨back, passesBack, toldBack⟩ := tail first _ value answers
    rw [passesFront.position] at toldBack
    exact ⟨front ++ back, (cursor.passes_append front back _).mpr ⟨_, passesFront, passesBack⟩,
      first, front, back, _, _, toldFront, toldBack, rfl, rfl⟩

/-- A reader that knows its place reports what it reports there. -/
theorem reports_position_bind {next : Nat → Reader α}
    {told : Nat → Nat → α → List UInt8 → List Record → Prop}
    (every : ∀ place, (next place).Reports (told place)) :
    (position >>= next).Reports fun place => told place place :=
  fun cursor value answers => every cursor.position cursor value answers

/-- A record stands in front of the records that follow. -/
theorem reports_log_bind {record : Record} {next : Reader α} (tail : next.Reports account) :
    (log record >>= fun _ => next).Reports fun place value written records =>
      ∃ later, account place value written later ∧ records = record :: later := by
  intro cursor value answers
  obtain ⟨written, passes, told⟩ := tail cursor value answers
  exact ⟨written, passes, _, told, rfl⟩

/-- Several elements are reported in a row. -/
theorem Reports.times (reports : read.Reports account) (count : Nat) :
    (times read count).Reports fun place values written records =>
      values.length = count ∧ Row account place values written records := by
  induction count with
  | zero =>
    rw [times_zero]
    refine (reports_pure []).mono ?_
    intro place values written records told
    obtain ⟨rfl, rfl, rfl⟩ := told
    exact ⟨rfl, .nil place⟩
  | succ count ih =>
    rw [times_succ]
    refine (reports.bind fun first => ih.bind fun further =>
      reports_pure (first :: further)).mono ?_
    intro place values written records told
    obtain ⟨first, front, _, earlier, _, toldFirst, toldFurther, rfl, rfl⟩ := told
    obtain ⟨further, back, _, later, _, ⟨length, row⟩, ⟨rfl, rfl, rfl⟩, rfl, rfl⟩ := toldFurther
    rw [List.append_nil, List.append_nil]
    exact ⟨congrArg Nat.succ length, .cons toldFirst row⟩

/-- A list is reported in a row behind its length. -/
theorem Reports.list (reports : read.Reports account) (policy : Policy) (part : Part) :
    (list policy part read).Reports (CountedRow account) := by
  refine (((length_accepts policy part).reports (length_quiet policy part)).bind
    reports.times).mono ?_
  intro place values written records told
  obtain ⟨count, _, back, _, later, ⟨⟨fits, -, rfl⟩, rfl⟩, ⟨rfl, row⟩, rfl, rfl⟩ := told
  rw [LittleEndian.length_encode] at row
  exact .intro fits row

end Reports

end Reader

end LuaChunk
