import LuaChunk.Proofs.Correspondence
import LuaChunk.Proofs.Reader.Records

/-!
# Readers with a log level

A reader that is told the greatest severity of a log decides at every record whether to keep it.
Such readers read the same as those of this library, which keep every record, and what they log is
what is left of that where records beyond the level are taken away (`readAt_eq`).
-/
namespace LuaChunk

/-- A reading without the records beyond a level. -/
def Reading.upTo {α : Type} (limit : Option Severity) (reading : Reading α) : Reading α :=
  { reading with records := reading.records.filter fun record => record.severity.isAdmitted limit }

namespace Leveled

section Readers

variable (limit : Option Severity) (policy : Policy)

/-- Keep a record unless it is beyond the level. -/
def log (record : Record) : Reader Unit :=
  if record.severity.isAdmitted limit then Reader.log record else return ()

/-- Readers as the steps of a decoder that keeps the records up to the level. -/
def operations : Operations Reader := { Reader.operations policy with log := log limit }

/-- Read a function where a number of levels of nesting are left. -/
def nestedFunction : Nat → ByteString → Reader Prototype
  | 0, _ => do Reader.fail (.nestedTooDeep policy.maxDepth (← Reader.position))
  | levels + 1, inherited =>
    (operations limit policy).functionWith (nestedFunction levels) inherited

/-- Read a chunk. -/
def chunk : Reader Prototype :=
  let operations := operations limit policy
  operations.chunk (operations.functionWith (nestedFunction limit policy policy.maxDepth))
    fun main => return main.functionCount

end Readers

/-- A reader with a level does what another one does and keeps the records up to the level. -/
def Filters {α : Type} (limit : Option Severity) (leveled read : Reader α) : Prop :=
  ∀ cursor, leveled cursor = (read cursor).upTo limit

section Filters

variable {α β : Type} {limit : Option Severity} {leveled read : Reader α}

/-- There is nothing to take away from a quiet reader. -/
theorem filters_of_quiet (quiet : read.Quiet) : Filters limit read read := by
  intro cursor
  have none := quiet.records_eq_nil cursor
  generalize read cursor = reading at none ⊢
  obtain ⟨outcome, stop, records⟩ := reading
  subst none
  rfl

/-- A record is kept or taken away as a whole. -/
theorem filters_log (record : Record) : Filters limit (log limit record) (Reader.log record) := by
  intro cursor
  by_cases admitted : record.severity.isAdmitted limit = true
  · simp [log, Reader.log, Reading.upTo, admitted]
  · simp [log, Reader.log, Reading.upTo, admitted, pure]

/-- Sequences are filtered if their readers are. -/
theorem Filters.bind {leveledNext next : α → Reader β} (head : Filters limit leveled read)
    (tail : ∀ value, Filters limit (leveledNext value) (next value)) :
    Filters limit (leveled >>= leveledNext) (read >>= next) := by
  intro cursor
  have same := head cursor
  have outcome : (leveled cursor).outcome = (read cursor).outcome := by
    rw [same]
    rfl
  cases answer : (read cursor).outcome with
  | error error =>
    rw [Reader.bind_eq_of_error (outcome.trans answer), Reader.bind_eq_of_error answer, same]
    rfl
  | ok value =>
    rw [Reader.bind_eq_of_ok (outcome.trans answer), Reader.bind_eq_of_ok answer, same]
    have later := tail value (read cursor).stop
    simp only [Reading.upTo, List.filter_append] at later ⊢
    rw [later]

/-- A quiet reader in front of a sequence. -/
theorem filters_quiet_bind {leveledNext next : α → Reader β} (quiet : read.Quiet)
    (tail : ∀ value, Filters limit (leveledNext value) (next value)) :
    Filters limit (read >>= leveledNext) (read >>= next) := (filters_of_quiet quiet).bind tail

/-- Several elements are filtered if each of them is. -/
theorem Filters.times (filters : Filters limit leveled read) (count : Nat) :
    Filters limit (Reader.times leveled count) (Reader.times read count) := by
  induction count with
  | zero => exact filters_of_quiet (Reader.logs_pure [])
  | succ count ih =>
    rw [Reader.times_succ, Reader.times_succ]
    exact filters.bind fun first => ih.bind fun further =>
      filters_of_quiet (Reader.logs_pure (first :: further))

/-- A list is filtered if its elements are. -/
theorem Filters.list (filters : Filters limit leveled read) (policy : Policy) (part : Part) :
    Filters limit (Reader.list policy part leveled) (Reader.list policy part read) :=
  filters_quiet_bind (Reader.length_quiet policy part) fun count => filters.times count

end Filters

section Chunk

variable {limit : Option Severity} {policy : Policy}

/-- Every step is filtered, a list if its elements are. -/
theorem operations_correspond : (operations limit policy).Correspond (fun _ => Filters limit)
    (Reader.operations policy) where
  pure value := filters_of_quiet (Reader.logs_pure value)
  bind := Filters.bind
  position := filters_of_quiet nofun
  remaining := filters_of_quiet nofun
  fail error := filters_of_quiet (Reader.logs_fail error)
  log := filters_log
  bytes count _ := filters_of_quiet (Reader.block_quiet count count)
  string := filters_of_quiet (Reader.string_quiet policy.maxString)
  wordList part := filters_of_quiet (Reader.wordList_quiet policy part)
  list part _ _ elements := elements.list policy part
  allowTrailing := rfl

/-- A function is filtered with everything nested in it. -/
theorem nestedFunction_filters (levels : Nat) (inherited : ByteString) :
    Filters limit (nestedFunction limit policy levels inherited)
      (Reader.nestedFunction policy levels inherited) := by
  induction levels generalizing inherited with
  | zero =>
    exact filters_quiet_bind nofun fun offset => filters_of_quiet (Reader.logs_fail _)
  | succ levels ih => exact operations_correspond.functionWith ih inherited

/-- A chunk is filtered. -/
theorem chunk_filters : Filters limit (chunk limit policy) (Reader.chunk policy) :=
  operations_correspond.chunk
    (operations_correspond.functionWith (nestedFunction_filters policy.maxDepth) .empty)
    fun main => filters_of_quiet (Reader.logs_pure main.functionCount)

end Chunk

end Leveled

/-- Read bytes as a chunk where records beyond a level are not kept. -/
def readAt (limit : Option Severity) (policy : Policy) (bytes : List UInt8) : Reading Prototype :=
  Leveled.chunk limit policy (.start bytes)

/-- The level decides which records are kept and nothing else. -/
theorem readAt_eq (limit : Option Severity) (policy : Policy) (bytes : List UInt8) :
    readAt limit policy bytes =
      ⟨decode policy bytes, (read policy bytes).stop, records policy limit bytes⟩ :=
  Leveled.chunk_filters (.start bytes)

end LuaChunk
