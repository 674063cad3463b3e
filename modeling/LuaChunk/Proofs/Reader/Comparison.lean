import LuaChunk.Proofs.Reader.Acceptance

/-!
# Readers compared

A reader is compared with another one in front of the same bytes. The other one counts its places
from further on, at a given distance, and may be less strict. Either both answer the same, with
places that differ by the distance, or the first one gives up with an error of a given kind and
the other one gets at least as far (`Reader.Follows`). Sequences of such readers compare in the
same way, because nothing that is read later goes back behind the place where it begins.

With no errors of the given kind the comparison says that a reader does the same wherever it
stands (`Reader.Follows.at_distance`). With the distance zero it compares two strictnesses in one
place.
-/
namespace LuaChunk

/-- The cursor with more bytes counted in front of it. -/
def Cursor.shift (distance : Nat) (cursor : Cursor) : Cursor :=
  ⟨distance + cursor.position, cursor.unread⟩

/-- The error with more bytes counted in front of its place. -/
def DecodeError.shift (distance : Nat) : DecodeError → DecodeError
  | headerMismatch field offset => headerMismatch field (distance + offset)
  | truncated offset needed available => truncated (distance + offset) needed available
  | unknownTag tag offset => unknownTag tag (distance + offset)
  | limitExceeded what declared limit offset =>
    limitExceeded what declared limit (distance + offset)
  | nestedTooDeep limit offset => nestedTooDeep limit (distance + offset)
  | trailingBytes offset count => trailingBytes (distance + offset) count

/-- With no bytes in front a cursor stays. -/
@[simp] theorem Cursor.shift_zero (cursor : Cursor) : cursor.shift 0 = cursor := by
  simp [shift]

/-- With no bytes in front an error stays. -/
@[simp] theorem DecodeError.shift_zero (error : DecodeError) : error.shift 0 = error := by
  cases error <;> simp [shift]

/-- With no bytes in front an outcome stays. -/
@[simp] theorem DecodeError.mapError_shift_zero {α : Type} (outcome : Except DecodeError α) :
    outcome.mapError (DecodeError.shift 0) = outcome := by
  cases outcome with
  | error error => exact congrArg Except.error error.shift_zero
  | ok value => rfl

namespace Reading

variable {α : Type}

/-- A reading does not stop in front of a place, and its error, if any, is not about a place in
front of it. -/
structure Onward (place : Nat) (reading : Reading α) : Prop where
  /-- Where it stops. -/
  stop : place ≤ reading.stop.position
  /-- What its error is about. -/
  offset : ∀ error, reading.outcome = .error error → place ≤ error.offset

/-- How a strict reading at a distance compares with a loose one that begins at a place or
further on. -/
inductive Follows (refused : DecodeError → Prop) (distance place : Nat)
    (strict loose : Reading α) : Prop where
  /-- They are the same but for the distance. -/
  | same (outcome : strict.outcome = loose.outcome.mapError (DecodeError.shift distance))
      (stop : strict.stop = loose.stop.shift distance) (onward : loose.Onward place)
  /-- The strict one gives up where the loose one still goes on. -/
  | refusal (error : DecodeError) (isRefused : refused error)
      (failed : strict.outcome = .error (error.shift distance)) (behind : place ≤ error.offset)
      (onward : loose.Onward error.offset)

/-- What is onward from a place is onward from a place in front of it. -/
theorem Onward.weaken {place earlier : Nat} {reading : Reading α} (onward : reading.Onward place)
    (front : earlier ≤ place) : reading.Onward earlier where
  stop := Nat.le_trans front onward.stop
  offset := fun error failed => Nat.le_trans front (onward.offset error failed)

/-- The loose reading is onward from the place where both begin. -/
theorem Follows.onward {refused : DecodeError → Prop} {distance place : Nat}
    {strict loose : Reading α} (follows : strict.Follows refused distance place loose) :
    loose.Onward place := by
  cases follows with
  | same outcome stop onward => exact onward
  | refusal error isRefused failed behind onward => exact onward.weaken behind

/-- A comparison from a place is one from a place in front of it. -/
theorem Follows.weaken {refused : DecodeError → Prop} {distance place earlier : Nat}
    {strict loose : Reading α} (follows : strict.Follows refused distance place loose)
    (front : earlier ≤ place) : strict.Follows refused distance earlier loose := by
  cases follows with
  | same outcome stop onward => exact .same outcome stop (onward.weaken front)
  | refusal error isRefused failed behind onward =>
    exact .refusal error isRefused failed (Nat.le_trans front behind) onward

end Reading

namespace Reader

variable {α β : Type} {refused : DecodeError → Prop} {distance place : Nat}

/-- A strict reader at a distance compared with a loose one, where the loose one begins at a place
or further on. -/
def FollowsFrom (refused : DecodeError → Prop) (distance place : Nat) (strict loose : Reader α) :
    Prop :=
  ∀ cursor : Cursor, place ≤ cursor.position →
    (strict (cursor.shift distance)).Follows refused distance place (loose cursor)

/-- A strict reader at a distance compared with a loose one, wherever they begin. -/
def Follows (refused : DecodeError → Prop) (distance : Nat) (strict loose : Reader α) : Prop :=
  ∀ place, FollowsFrom refused distance place strict loose

/-- Where nothing is refused, the readers do the same at places that differ by the distance. -/
theorem Follows.at_distance {strict loose : Reader α}
    (follows : Follows (fun _ => False) distance strict loose) (cursor : Cursor) :
    (strict (cursor.shift distance)).outcome =
        (loose cursor).outcome.mapError (DecodeError.shift distance) ∧
      (strict (cursor.shift distance)).stop = (loose cursor).stop.shift distance := by
  cases follows cursor.position cursor (Nat.le_refl _) with
  | same outcome stop onward => exact ⟨outcome, stop⟩
  | refusal error isRefused failed behind onward => exact isRefused.elim

/-- Reading nothing is the same everywhere. -/
theorem followsFrom_pure (value : α) :
    FollowsFrom refused distance place (pure value) (pure value) := by
  intro cursor further
  exact .same rfl rfl ⟨further, nofun⟩

/-- Giving up for the same reason is the same everywhere. -/
theorem followsFrom_fail (error : DecodeError) (behind : place ≤ error.offset) :
    FollowsFrom refused distance place (fail (error.shift distance) : Reader α)
      (fail error) := by
  intro cursor further
  refine .same rfl rfl ⟨further, ?_⟩
  intro other failed
  rw [← Except.error.inj failed]
  exact behind

/-- Giving up is a refusal where the loose reader goes on. -/
theorem followsFrom_refusal {error : DecodeError} (isRefused : refused error)
    {loose : Reader α} (behind : place ≤ error.offset)
    (onward : ∀ cursor : Cursor, place ≤ cursor.position → (loose cursor).Onward error.offset) :
    FollowsFrom refused distance place (fail (error.shift distance)) loose := by
  intro cursor further
  exact .refusal error isRefused rfl behind (onward cursor further)

/-- Records are not compared. -/
theorem FollowsFrom.log_bind {strict loose : Reader α} {record other : Record}
    (follows : FollowsFrom refused distance place strict loose) :
    FollowsFrom refused distance place (log record >>= fun _ => strict)
      (log other >>= fun _ => loose) := by
  intro cursor further
  cases follows cursor further with
  | same outcome stop onward => exact .same outcome stop ⟨onward.stop, onward.offset⟩
  | refusal error isRefused failed behind onward =>
    exact .refusal error isRefused failed behind ⟨onward.stop, onward.offset⟩

/-- Readers that know their places follow one another if they do so at places that differ by the
distance, as long as they speak of none in front. -/
theorem follows_position_bind {strict loose : Nat → Reader α}
    (follows : ∀ place, FollowsFrom refused distance place (strict (distance + place))
      (loose place)) :
    Follows refused distance (position >>= strict) (position >>= loose) := by
  intro place cursor further
  exact (follows cursor.position cursor (Nat.le_refl _)).weaken further

/-- Readers that count the bytes not read yet count the same number of them. -/
theorem followsFrom_remaining_bind {strict loose : Nat → Reader α}
    (follows : ∀ count, FollowsFrom refused distance place (strict count) (loose count)) :
    FollowsFrom refused distance place (remaining >>= strict) (remaining >>= loose) := by
  intro cursor further
  exact follows cursor.remaining cursor further

/-- A sequence is onward from a place if its first reader is, and its second one is where the first
one stops. -/
theorem bind_onward {read : Reader α} {next : α → Reader β} {cursor : Cursor}
    (head : (read cursor).Onward place)
    (tail : ∀ value, (read cursor).outcome = .ok value →
      (next value (read cursor).stop).Onward place) :
    ((read >>= next) cursor).Onward place := by
  cases answer : (read cursor).outcome with
  | error error =>
    obtain ⟨outcome, stop⟩ := bind_of_error answer next
    refine ⟨stop ▸ head.stop, fun other failed => ?_⟩
    have same := Except.error.inj (outcome.symm.trans failed)
    exact head.offset other (same ▸ answer)
  | ok value =>
    obtain ⟨outcome, stop⟩ := bind_of_yields ⟨answer, rfl⟩ next
    have second := tail value answer
    exact ⟨stop ▸ second.stop, outcome ▸ second.offset⟩

/-- Sequences compare as their first and second readers do. Where the strict sequence is refused by
its first reader, the second reader of the loose one may begin anywhere. -/
theorem FollowsFrom.bind {early : DecodeError → Prop} {strictHead looseHead : Reader α}
    {strict loose : α → Reader β}
    (head : FollowsFrom early distance place strictHead looseHead)
    (tail : ∀ value, FollowsFrom refused distance place (strict value) (loose value))
    (refusals : ∀ error, early error → refused error ∧
      ∀ value cursor, (loose value cursor).Onward cursor.position) :
    FollowsFrom refused distance place (strictHead >>= strict) (looseHead >>= loose) := by
  intro cursor further
  cases head cursor further with
  | refusal error isEarly failed behind first =>
    -- The loose sequence goes on behind the place that the refusal is about.
    have onward : ((looseHead >>= loose) cursor).Onward error.offset :=
      bind_onward first fun value _ =>
        ((refusals error isEarly).2 value (looseHead cursor).stop).weaken first.stop
    exact .refusal error (refusals error isEarly).1 (bind_of_error failed strict).1 behind onward
  | same outcome stop first =>
    have onward : ((looseHead >>= loose) cursor).Onward place :=
      bind_onward first fun value _ => (tail value (looseHead cursor).stop first.stop).onward
    cases answer : (looseHead cursor).outcome with
    | error error =>
      rw [answer] at outcome
      obtain ⟨looseOutcome, looseStop⟩ := bind_of_error answer loose
      obtain ⟨strictOutcome, strictStop⟩ := bind_of_error outcome strict
      refine .same ?_ ?_ onward
      · rw [strictOutcome, looseOutcome]
        rfl
      · rw [strictStop, looseStop, stop]
    | ok value =>
      rw [answer] at outcome
      obtain ⟨looseOutcome, looseStop⟩ := bind_of_yields ⟨answer, rfl⟩ loose
      obtain ⟨strictOutcome, strictStop⟩ := bind_of_yields ⟨outcome, stop⟩ strict
      cases tail value (looseHead cursor).stop first.stop with
      | same second secondStop _ =>
        refine .same ?_ ?_ onward
        · rw [strictOutcome, looseOutcome, second]
        · rw [strictStop, looseStop, secondStop]
      | refusal error isRefused failed behind later =>
        exact .refusal error isRefused (strictOutcome.trans failed) behind
          ⟨looseStop ▸ later.stop, looseOutcome ▸ later.offset⟩

/-- Sequences whose readers compare wherever they begin compare wherever they begin. -/
theorem Follows.bind {strictHead looseHead : Reader α} {strict loose : α → Reader β}
    (head : Follows refused distance strictHead looseHead)
    (tail : ∀ value, Follows refused distance (strict value) (loose value)) :
    Follows refused distance (strictHead >>= strict) (looseHead >>= loose) := by
  intro place
  refine (head place).bind (fun value => tail value place) fun error isRefused => ⟨isRefused, ?_⟩
  intro value cursor
  exact (tail value cursor.position cursor (Nat.le_refl _)).onward

/-- Sequences that begin with the same reader, which refuses nothing, compare as what follows. -/
theorem Follows.bind_steady {head : Reader α} {strict loose : α → Reader β}
    (steady : Follows (fun _ => False) distance head head)
    (tail : ∀ value, FollowsFrom refused distance place (strict value) (loose value)) :
    FollowsFrom refused distance place (head >>= strict) (head >>= loose) :=
  (steady place).bind tail fun _ => False.elim

/-- Readers whose values are changed compare as before. -/
theorem Follows.map {strict loose : Reader α} (follows : Follows refused distance strict loose)
    (change : α → β) :
    Follows refused distance (strict >>= fun value => pure (change value))
      (loose >>= fun value => pure (change value)) :=
  follows.bind fun value _ => followsFrom_pure (change value)

/-- A block is taken, or found to be missing, wherever it stands. -/
theorem block_follows (size announced : Nat) :
    Follows refused distance (block size announced) (block size announced) := by
  intro place cursor further
  by_cases enough : size ≤ cursor.remaining
  · have enoughShifted : size ≤ (cursor.shift distance).remaining := enough
    rw [block_of_le enough, block_of_le enoughShifted]
    refine .same rfl ?_ ⟨Nat.le_add_right_of_le further, nofun⟩
    simp only [Cursor.shift, Nat.add_assoc]
  · have missing : cursor.remaining < size := by omega
    have missingShifted : (cursor.shift distance).remaining < size := missing
    rw [block_of_lt missing, block_of_lt missingShifted]
    refine .same rfl rfl ⟨further, ?_⟩
    intro error failed
    rw [← Except.error.inj failed]
    exact further

/-- A number is read in the same way everywhere. -/
theorem unsigned_follows (width : Nat) :
    Follows refused distance (unsigned width) (unsigned width) :=
  (block_follows width width).map LittleEndian.decode

/-- A byte is read in the same way everywhere. -/
theorem byte_follows : Follows refused distance byte byte :=
  (unsigned_follows 1).map UInt8.ofNat

/-- A word is read in the same way everywhere. -/
theorem word_follows : Follows refused distance word word :=
  (unsigned_follows 4).map UInt32.ofNat

/-- A word of eight bytes is read in the same way everywhere. -/
theorem longWord_follows : Follows refused distance longWord longWord :=
  (unsigned_follows 8).map UInt64.ofNat

/-- An integer is read in the same way everywhere. -/
theorem integer_follows : Follows refused distance integer integer :=
  longWord_follows.map UInt64.toInt64

/-- A float is read in the same way everywhere. -/
theorem number_follows : Follows refused distance number number :=
  longWord_follows.map Binary64.mk

/-- Words are read in the same way everywhere. -/
theorem words_follows (count : Nat) : Follows refused distance (words count) (words count) :=
  (block_follows (4 * count) _).map LittleEndian.words

/-- The size of a string is read in the same way everywhere. -/
theorem stringSize_follows : Follows refused distance stringSize stringSize := by
  apply byte_follows.bind
  intro first
  split
  · exact longWord_follows.map UInt64.toNat
  · exact fun _ => followsFrom_pure first.toNat

/-- Several elements compare as each of them does. -/
theorem times_follows {strict loose : Reader α} (follows : Follows refused distance strict loose)
    (count : Nat) : Follows refused distance (times strict count) (times loose count) := by
  induction count with
  | zero =>
    rw [times_zero, times_zero]
    exact fun _ => followsFrom_pure []
  | succ count ih =>
    rw [times_succ, times_succ]
    exact follows.bind fun first => ih.map (first :: ·)

/-- A size is refused above the limit at the place where it stands. -/
theorem followsFrom_limit {strict loose : Reader α} (what : String) (declared : Nat)
    {strictLimit looseLimit : Nat} (tighter : strictLimit ≤ looseLimit)
    (isRefused : strictLimit < looseLimit →
      refused (.limitExceeded what declared strictLimit place))
    (follows : FollowsFrom refused distance place strict loose) :
    FollowsFrom refused distance place
      (if strictLimit < declared then
        fail (.limitExceeded what declared strictLimit (distance + place)) else strict)
      (if looseLimit < declared then
        fail (.limitExceeded what declared looseLimit place) else loose) := by
  by_cases above : strictLimit < declared
  · rw [if_pos above]
    by_cases equal : strictLimit = looseLimit
    · rw [← equal, if_pos above]
      exact followsFrom_fail (.limitExceeded what declared strictLimit place) (Nat.le_refl place)
    · have less := Nat.lt_of_le_of_ne tighter equal
      refine followsFrom_refusal (isRefused less) (Nat.le_refl place) ?_
      intro cursor further
      split
      · refine ⟨further, fun error failed => ?_⟩
        rw [← Except.error.inj failed]
        exact Nat.le_refl place
      · exact (follows cursor further).onward
  · have within : ¬looseLimit < declared := by omega
    rw [if_neg above, if_neg within]
    exact follows

/-- Strings compare if the strict limit is not above the loose one. -/
theorem string_follows {strict loose : Nat} (tighter : strict ≤ loose)
    (isRefused : strict < loose → ∀ declared offset,
      refused (.limitExceeded "string" declared strict offset)) :
    Follows refused distance (string strict) (string loose) := by
  apply follows_position_bind
  intro place
  apply stringSize_follows.bind_steady
  intro size
  split
  · exact followsFrom_pure _
  · apply followsFrom_limit "string" (size - 1) tighter fun less => isRefused less _ _
    exact (block_follows (size - 1) (size - 1)).map ByteString.mk place

end Reader

end LuaChunk
