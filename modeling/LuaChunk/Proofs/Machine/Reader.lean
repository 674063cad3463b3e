import LuaChunk.Proofs.Reader.Failure

/-!
# Readers on machine words

A decoder keeps its place and its depth in words of 64 bits. A `Machine` is a program on such
registers with every step in it that could go wrong: a sum that does not fit in a word, a
difference below zero, the bytes from a place behind their end on. Where that happens the machine
panics and has no answer. It also panics if the place is set behind the end of the bytes or the
depth above its limit, although no processor would.

A machine runs as a reader does (`Machine.Runs`) if it does not panic, answers the same and stops at
the same place. The bytes must be fewer than half of the words of 64 bits.
-/
namespace LuaChunk

/-- The sum of two words, if it is a word. -/
def checkedAdd (left right : UInt64) : Option UInt64 :=
  if left.toNat + right.toNat < Nat.pow 2 64 then some (left + right) else none

/-- The difference of two words, if it is not below zero. -/
def checkedSub (left right : UInt64) : Option UInt64 :=
  if right ≤ left then some (left - right) else none

/-- A number below the bound of words is the number of its word. -/
theorem toNat_ofNat_word {number : Nat} (fits : number < Nat.pow 2 64) :
    (UInt64.ofNat number).toNat = number := UInt64.toNat_ofNat_of_lt' fits

/-- Words are added if the sum of their numbers is below the bound. -/
theorem checkedAdd_ofNat {left right : Nat} (fits : left + right < Nat.pow 2 64) :
    checkedAdd (.ofNat left) (.ofNat right) = some (.ofNat (left + right)) := by
  have leftNumber : (UInt64.ofNat left).toNat = left := toNat_ofNat_word (by omega)
  have rightNumber : (UInt64.ofNat right).toNat = right := toNat_ofNat_word (by omega)
  rw [checkedAdd, leftNumber, rightNumber, if_pos fits, UInt64.ofNat_add]

/-- Words are subtracted if the second number is not above the first one. -/
theorem checkedSub_ofNat {left right : Nat} (le : right ≤ left) (fits : left < Nat.pow 2 64) :
    checkedSub (.ofNat left) (.ofNat right) = some (.ofNat (left - right)) := by
  have leftNumber : (UInt64.ofNat left).toNat = left := toNat_ofNat_word fits
  have rightNumber : (UInt64.ofNat right).toNat = right := toNat_ofNat_word (by omega)
  have ordered : UInt64.ofNat right ≤ UInt64.ofNat left := by
    rw [UInt64.le_iff_toNat_le, leftNumber, rightNumber]
    exact le
  rw [checkedSub, if_pos ordered]
  congr 1
  apply UInt64.toNat_inj.mp
  rw [UInt64.toNat_sub_of_le _ _ ordered, leftNumber, rightNumber, toNat_ofNat_word (by omega)]

/-- What a decoder keeps in words. -/
structure Registers where
  /-- Where it reads. -/
  position : UInt64
  /-- The number of functions that it is inside of. -/
  depth : UInt64
  deriving DecidableEq

/-- A program on some bytes and the registers, without an answer where it panics. -/
def Machine (α : Type) := List UInt8 → Registers → Option (Except DecodeError α × Registers)

namespace Machine

variable {α β γ δ : Type}

/-- Run one program and then another one, unless the first one fails. -/
def andThen (program : Machine α) (next : α → Machine β) : Machine β := fun bytes registers =>
  match program bytes registers with
  | none => none
  | some (.error error, after) => some (.error error, after)
  | some (.ok value, after) => next value bytes after

instance : Monad Machine where
  pure value := fun _ registers => some (.ok value, registers)
  bind := andThen

/-- Fail here. -/
def fail (error : DecodeError) : Machine α := fun _ registers => some (.error error, registers)

/-- Go on with a value, or panic if there is none. -/
def check (value : Option α) : Machine α := fun _ registers =>
  value.map fun value => (.ok value, registers)

/-- Where the program reads. -/
def position : Machine UInt64 := fun _ registers => some (.ok registers.position, registers)

/-- The number of all bytes. -/
def size : Machine UInt64 := fun bytes registers => some (.ok (.ofNat bytes.length), registers)

/-- The number of bytes not read yet. -/
def remaining : Machine UInt64 := do check (checkedSub (← size) (← position))

/-- The bytes not read yet. It is a panic if the place is behind the end of the bytes. -/
def unread : Machine (List UInt8) := fun bytes registers =>
  if registers.position.toNat ≤ bytes.length then
    some (.ok (bytes.drop registers.position.toNat), registers)
  else none

/-- Set the place. It is a panic to set it behind the end of the bytes. -/
def moveTo (place : UInt64) : Machine Unit := fun bytes registers =>
  if place.toNat ≤ bytes.length then some (.ok (), { registers with position := place }) else none

/-- Take a number of bytes, or fail without moving. The place behind them is found from the number
of the bytes that are left. -/
def block (count : Nat) (announced : UInt64) : Machine (List UInt8) := do
  let offset ← position
  let input ← unread
  if count ≤ input.length then
    let rest := input.drop count
    moveTo (← check (checkedSub (← size) (.ofNat rest.length)))
    return input.take count
  else fail (.truncated offset.toNat announced.toNat input.length)

/-- Run a program a number of times. -/
def times (element : Machine α) : Nat → Machine (List α)
  | 0 => return []
  | count + 1 => do
    let first ← element
    let further ← times element count
    return first :: further

/-- Where it begins at a place in the bytes, a machine does not panic, answers as a reader does and
stops where the reader does, with the depth unchanged. The values of the machine are viewed as those
of the reader. -/
def Runs (bytes : List UInt8) (depth : UInt64) (view : α → β) (machine : Machine α)
    (read : Reader β) (place : Nat) : Prop :=
  ∃ last ≤ bytes.length, ∃ outcome : Except DecodeError α,
    machine bytes ⟨.ofNat place, depth⟩ = some (outcome, ⟨.ofNat last, depth⟩) ∧
      (read (.inside bytes place)).outcome = outcome.map view ∧
      (read (.inside bytes place)).stop = .inside bytes last

/-- A machine runs as a reader does from every place in the bytes. -/
def RunsInside (bytes : List UInt8) (depth : UInt64) (machine : Machine α) (read : Reader α) :
    Prop :=
  ∀ place ≤ bytes.length, Runs bytes depth id machine read place

section Runs

variable {bytes : List UInt8} {depth : UInt64} {place : Nat}

/-- Reading nothing. -/
theorem runs_pure (within : place ≤ bytes.length) (view : α → β) (value : α) :
    Runs bytes depth view (pure value) (pure (view value)) place :=
  ⟨place, within, .ok value, rfl, rfl, rfl⟩

/-- Failing with the same error. -/
theorem runs_fail (within : place ≤ bytes.length) (view : α → β) (error : DecodeError) :
    Runs bytes depth view (fail error) (Reader.fail error) place :=
  ⟨place, within, .error error, rfl, rfl, rfl⟩

/-- One after the other. -/
theorem Runs.bind {view : α → β} {viewNext : γ → δ} {machine : Machine α} {read : Reader β}
    {next : α → Machine γ} {other : β → Reader δ} (head : Runs bytes depth view machine read place)
    (tail : ∀ value last, last ≤ bytes.length →
      read.Yields (.inside bytes place) (view value) (.inside bytes last) →
        Runs bytes depth viewNext (next value) (other (view value)) last) :
    Runs bytes depth viewNext (machine >>= next) (read >>= other) place := by
  obtain ⟨last, within, outcome, runs, answers, stops⟩ := head
  cases outcome with
  | error error =>
    obtain ⟨sameOutcome, sameStop⟩ := Reader.bind_of_error answers other
    refine ⟨last, within, .error error, ?_, sameOutcome, sameStop.trans stops⟩
    simp only [Bind.bind, andThen, runs]
  | ok value =>
    obtain ⟨final, withinFinal, later, runsLater, answersLater, stopsLater⟩ :=
      tail value last within ⟨answers, stops⟩
    obtain ⟨sameOutcome, sameStop⟩ := Reader.bind_of_yields ⟨answers, stops⟩ other
    refine ⟨final, withinFinal, later, ?_, sameOutcome.trans answersLater,
      sameStop.trans stopsLater⟩
    simp only [Bind.bind, andThen, runs]
    exact runsLater

/-- A program whose values are changed. -/
theorem Runs.map {machine : Machine α} {view : α → β} {viewNext : γ → δ} {read : Reader β}
    (head : Runs bytes depth view machine read place) (change : α → γ) (other : β → δ)
    (same : ∀ value, viewNext (change value) = other (view value)) :
    Runs bytes depth viewNext (machine >>= fun value => pure (change value))
      (read >>= fun value => pure (other value)) place := by
  refine head.bind fun value last within _ => ?_
  rw [← same value]
  exact runs_pure within viewNext (change value)

/-- A program for a reader whose values are changed or kept in a record, with the change in the
view. -/
theorem Runs.viewed {machine : Machine α} {view : α → β} {read : Reader β} {next : β → Reader γ}
    (head : Runs bytes depth view machine read place) (change : β → γ)
    (still : ∀ value cursor, (next value).Yields cursor (change value) cursor) :
    Runs bytes depth (fun value => change (view value)) machine (read >>= next) place := by
  obtain ⟨last, within, outcome, runs, answers, stops⟩ := head
  refine ⟨last, within, outcome, runs, ?_⟩
  cases outcome with
  | error error =>
    obtain ⟨sameOutcome, sameStop⟩ := Reader.bind_of_error answers next
    exact ⟨sameOutcome, sameStop.trans stops⟩
  | ok value =>
    obtain ⟨sameOutcome, sameStop⟩ := Reader.bind_of_yields ⟨answers, stops⟩ next
    obtain ⟨changed, stays⟩ := still (view value) (.inside bytes last)
    exact ⟨sameOutcome.trans changed, sameStop.trans stays⟩

/-- A record that only the reader keeps. -/
theorem runs_log_bind {view : α → β} {machine : Machine α} {record : Record} {other : Reader β}
    (runs : Runs bytes depth view machine other place) :
    Runs bytes depth view machine (Reader.log record >>= fun _ => other) place := runs

/-- Asking for the place. -/
theorem runs_position_bind {view : α → β} {next : UInt64 → Machine α} {other : Nat → Reader β}
    (runs : Runs bytes depth view (next (.ofNat place)) (other place) place) :
    Runs bytes depth view (position >>= next) (Reader.position >>= other) place := runs

/-- Several times. -/
theorem times_runs {view : α → β} {element : Machine α} {read : Reader β}
    (every : ∀ place ≤ bytes.length, Runs bytes depth view element read place) (count : Nat)
    (within : place ≤ bytes.length) :
    Runs bytes depth (List.map view) (times element count) (Reader.times read count) place := by
  induction count generalizing place with
  | zero =>
    rw [Reader.times_zero]
    exact runs_pure within _ []
  | succ count ih =>
    rw [Reader.times_succ]
    apply (every place within).bind
    intro first last within _
    exact (ih within).map (first :: ·) (view first :: ·) fun _ => rfl

section Short

variable (short : bytes.length < Nat.pow 2 63)

include short

/-- A place in the bytes is the number of its word. -/
theorem toNat_ofNat_place (within : place ≤ bytes.length) :
    (UInt64.ofNat place).toNat = place := by
  have half : Nat.pow 2 63 < Nat.pow 2 64 := by decide
  exact toNat_ofNat_word (by omega)

/-- Counting the bytes that are left. -/
theorem remaining_runs (within : place ≤ bytes.length) :
    Runs bytes depth UInt64.toNat remaining Reader.remaining place := by
  have half : Nat.pow 2 63 < Nat.pow 2 64 := by decide
  have left : (Cursor.inside bytes place).remaining = bytes.length - place := List.length_drop
  have difference := checkedSub_ofNat within (by omega : bytes.length < Nat.pow 2 64)
  refine ⟨place, within, .ok (.ofNat (bytes.length - place)), ?_, ?_, rfl⟩
  · simp only [remaining, Bind.bind, andThen, size, position, check, difference, Option.map_some]
  · have number := toNat_ofNat_place short (Nat.sub_le bytes.length place)
    show Except.ok (Cursor.inside bytes place).remaining = .ok (UInt64.ofNat _).toNat
    rw [left, number]

/-- Counting the bytes that are left without need. -/
theorem runs_remaining_bind {view : α → β} {machine : Machine α} {other : Reader β}
    (within : place ≤ bytes.length) (runs : Runs bytes depth view machine other place) :
    Runs bytes depth view (remaining >>= fun _ => machine) other place := by
  have counted : Runs bytes depth view (remaining >>= fun _ => machine)
      (Reader.remaining >>= fun _ => other) place := by
    refine (remaining_runs short within).bind fun _ last _ yields => ?_
    have still : last = place := congrArg Cursor.position yields.2.symm
    rw [still]
    exact runs
  exact counted

/-- Taking a number of bytes. -/
theorem block_runs (count : Nat) (announced : UInt64) (within : place ≤ bytes.length) :
    Runs bytes depth id (block count announced) (Reader.block count announced.toNat) place := by
  have half : Nat.pow 2 63 < Nat.pow 2 64 := by decide
  have here := toNat_ofNat_place short within
  have left : (Cursor.inside bytes place).remaining = bytes.length - place := List.length_drop
  have input : unread bytes ⟨.ofNat place, depth⟩ =
      some (.ok (bytes.drop place), ⟨.ofNat place, depth⟩) := by
    simp only [unread, here, if_pos within]
  by_cases enough : count ≤ bytes.length - place
  · have behind : place + count ≤ bytes.length := by omega
    have difference : checkedSub (.ofNat bytes.length)
        (.ofNat ((bytes.drop place).drop count).length) = some (.ofNat (place + count)) := by
      have rest : ((bytes.drop place).drop count).length = bytes.length - (place + count) := by
        rw [List.drop_drop, List.length_drop]
      have subtracted := checkedSub_ofNat (Nat.sub_le bytes.length (place + count)) (by omega)
      rw [rest, subtracted]
      congr 2
      omega
    have moved : moveTo (.ofNat (place + count)) bytes ⟨.ofNat place, depth⟩ =
        some (.ok (), ⟨.ofNat (place + count), depth⟩) := by
      simp only [moveTo, toNat_ofNat_place short behind, if_pos behind]
    have reading := Reader.block_of_le (left ▸ enough) announced.toNat
    refine ⟨place + count, behind, .ok ((bytes.drop place).take count), ?_, ?_, ?_⟩
    · simp only [List.length_drop] at difference
      simp only [block, Bind.bind, andThen, position, input, List.length_drop, if_pos enough, size,
        check, difference, Option.map_some, moved]
      rfl
    · rw [reading]
      rfl
    · rw [reading]
      exact congrArg (Cursor.mk _) List.drop_drop
  · have missing : (Cursor.inside bytes place).remaining < count := by omega
    have reading := Reader.block_of_lt missing announced.toNat
    refine ⟨place, within, .error (.truncated place announced.toNat (bytes.length - place)), ?_, ?_,
      ?_⟩
    · simp only [block, Bind.bind, andThen, position, input, List.length_drop, if_neg enough, fail,
        here]
    · rw [reading, left]
      rfl
    · rw [reading]

end Short

end Runs

end Machine

end LuaChunk
