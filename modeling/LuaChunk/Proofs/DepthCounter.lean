import LuaChunk.Proofs.Correspondence

/-!
# The depth counter

A decoder that is one object with a counter in it counts the functions that it is inside of: it
adds one before it reads a nested function and takes one away behind it, and it refuses to go
deeper than the counter allows. `Counting` readers have that counter as a state, which an error
leaves as it stands. What they have to get right is that the counter is the same behind a
function as in front of it, also where a function deep inside fails (`Keeps`). Then the counter is
nothing but the number of levels that are left, and the counting reader of functions is the reader
of this library (`Counting.function_keeps`).
-/
namespace LuaChunk

/-- A reader of values with a counter. -/
def Counting (α : Type) := Nat → Cursor → Reading α × Nat

namespace Counting

variable {α β : Type} {depth : Nat}

/-- Read with one reader and then with another one that begins with the counter as the first one
leaves it. -/
def andThen (read : Counting α) (next : α → Counting β) : Counting β := fun depth cursor =>
  match read depth cursor with
  | (⟨.error error, stop, records⟩, after) => (⟨.error error, stop, records⟩, after)
  | (⟨.ok value, stop, records⟩, after) =>
    let (later, last) := next value after stop
    (⟨later.outcome, later.stop, records ++ later.records⟩, last)

instance : Monad Counting where
  pure value := fun depth cursor => (⟨.ok value, cursor, []⟩, depth)
  bind := andThen

/-- A reader without a counter leaves it alone. -/
instance : MonadLift Reader Counting where
  monadLift read := fun depth cursor => (read cursor, depth)

/-- Read a number of elements. -/
def times (element : Counting α) : Nat → Counting (List α)
  | 0 => return []
  | count + 1 => do
    let first ← element
    let further ← times element count
    return first :: further

/-- Read a list, element by element. -/
def list (policy : Policy) (part : Part) (element : Counting α) : Counting (List α) := do
  times element (← Reader.length policy part)

/-- Read a nested function one level deeper, given the reader of functions. -/
def nested (policy : Policy) (function : ByteString → Counting Prototype)
    (inherited : ByteString) : Counting Prototype := fun depth cursor =>
  if policy.maxDepth ≤ depth then
    (⟨.error (.nestedTooDeep policy.maxDepth cursor.position), cursor, []⟩, depth)
  else
    let (reading, after) := function inherited (depth + 1) cursor
    (reading, after - 1)

/-- Readers as the steps of a decoder with a counter. Only the elements of a list may change it. -/
def operations (policy : Policy) : Operations Counting where
  position := Reader.position
  remaining := Reader.remaining
  fail error := Reader.fail error
  log record := Reader.log record
  bytes count := Reader.bytes count
  string := Reader.string policy.maxString
  wordList part := Reader.wordList policy part
  list := list policy
  allowTrailing := policy.allowTrailing

/-- Read a function with everything nested in it, as long as not more than a number of functions
are open at a time. What would happen beyond that number is left open. -/
def function (policy : Policy) (beyond : ByteString → Counting Prototype) :
    Nat → ByteString → Counting Prototype
  | 0 => beyond
  | calls + 1 => (operations policy).functionWith (nested policy (function policy beyond calls))

/-- Read a chunk, given the reader of its main function. -/
def chunk (policy : Policy) (function : ByteString → Counting Prototype) : Counting Prototype :=
  (operations policy).chunk function fun main => return main.functionCount

/-- With the counter at a number a counting reader does what a reader without a counter does, and
it leaves the counter at that number, whether it fails or not. -/
def Keeps (depth : Nat) (counting : Counting α) (read : Reader α) : Prop :=
  ∀ cursor, counting depth cursor = (read cursor, depth)

/-- Reading nothing keeps the counter. -/
theorem keeps_pure (value : α) : Keeps depth (pure value) (pure value) := fun _ => rfl

/-- Sequences keep the counter if their readers do. -/
theorem Keeps.bind {counting : Counting α} {read : Reader α} {counted : α → Counting β}
    {next : α → Reader β} (head : Keeps depth counting read)
    (tail : ∀ value, Keeps depth (counted value) (next value)) :
    Keeps depth (counting >>= counted) (read >>= next) := by
  intro cursor
  simp only [Bind.bind, andThen, Reader.andThen]
  rw [head cursor]
  generalize read cursor = reading
  obtain ⟨outcome, stop, records⟩ := reading
  cases outcome with
  | error error => rfl
  | ok value =>
    simp only
    rw [tail value stop]

/-- A reader without a counter keeps it. -/
theorem keeps_lift (read : Reader α) : Keeps depth (liftM read) read := fun _ => rfl

/-- Several elements keep the counter if each of them does. -/
theorem Keeps.times {element : Counting α} {read : Reader α} (keeps : Keeps depth element read)
    (count : Nat) : Keeps depth (times element count) (Reader.times read count) := by
  induction count with
  | zero => exact keeps_pure []
  | succ count ih =>
    rw [Reader.times_succ]
    exact keeps.bind fun first => ih.bind fun further => keeps_pure (first :: further)

/-- Every step keeps the counter, a list if its elements do. -/
theorem operations_correspond (policy : Policy) (depth : Nat) :
    (operations policy).Correspond (fun _ => Keeps depth) (Reader.operations policy) where
  pure := keeps_pure
  bind := Keeps.bind
  position := keeps_lift _
  remaining := keeps_lift _
  fail _ := keeps_lift _
  log _ := keeps_lift _
  bytes _ _ := keeps_lift _
  string := keeps_lift _
  wordList _ := keeps_lift _
  list part _ _ elements := (keeps_lift (Reader.length policy part)).bind elements.times
  allowTrailing := rfl

/-- A nested function is refused where no level is left, and keeps the counter otherwise if the
function does so one level deeper. -/
theorem nested_keeps (policy : Policy) {counted : ByteString → Counting Prototype}
    (keeps : depth < policy.maxDepth → ∀ name, Keeps (depth + 1) (counted name)
      (Reader.functionWith policy
        (Reader.nestedFunction policy (policy.maxDepth - (depth + 1))) name))
    (inherited : ByteString) :
    Keeps depth (nested policy counted inherited)
      (Reader.nestedFunction policy (policy.maxDepth - depth) inherited) := by
  intro cursor
  by_cases deepest : policy.maxDepth ≤ depth
  · rw [Nat.sub_eq_zero_of_le deepest]
    exact if_pos deepest
  · have levels : policy.maxDepth - depth = policy.maxDepth - (depth + 1) + 1 := by omega
    rw [levels]
    simp only [nested, if_neg deepest, Reader.nestedFunction]
    rw [keeps (Nat.lt_of_not_le deepest) inherited cursor]
    rfl

/-- The counting reader of functions keeps the counter wherever it begins, and does what the reader
of functions does with the levels that are left. It never has more functions open than there are
levels left. -/
theorem function_keeps (policy : Policy) (beyond : ByteString → Counting Prototype)
    (depth calls : Nat) (enough : policy.maxDepth - depth < calls) (inherited : ByteString) :
    Keeps depth (function policy beyond calls inherited)
      (Reader.functionWith policy (Reader.nestedFunction policy (policy.maxDepth - depth))
        inherited) := by
  induction calls generalizing depth inherited with
  | zero => exact absurd enough (Nat.not_lt_zero _)
  | succ calls ih =>
    have steps := operations_correspond policy depth
    refine steps.functionWith (nested_keeps policy fun shallow name => ?_) inherited
    have enoughDeeper : policy.maxDepth - (depth + 1) < calls := by omega
    exact ih (depth + 1) enoughDeeper name

/-- The counting reader of chunks keeps the counter if it does so in the main function. -/
theorem chunk_keeps (policy : Policy) {counted : ByteString → Counting Prototype}
    (keeps : Keeps depth (counted .empty) (Reader.function policy .empty)) :
    Keeps depth (chunk policy counted) (Reader.chunk policy) :=
  (operations_correspond policy depth).chunk keeps fun main => keeps_pure main.functionCount

end Counting

/-- Read a function that is nested in a number of others. -/
def Reader.functionAt (policy : Policy) (depth : Nat) (inherited : ByteString) :
    Reader Prototype :=
  functionWith policy (nestedFunction policy (policy.maxDepth - depth)) inherited

/-- Inside a number of functions the counting reader reads what the reader of functions nested so
deeply reads. -/
theorem Counting.function_eq (policy : Policy) (beyond : ByteString → Counting Prototype)
    (depth spare : Nat) (inherited : ByteString) (cursor : Cursor) :
    function policy beyond (policy.maxDepth - depth + 1 + spare) inherited depth cursor =
      (Reader.functionAt policy depth inherited cursor, depth) := by
  have enough : policy.maxDepth - depth < policy.maxDepth - depth + 1 + spare := by omega
  exact function_keeps policy beyond depth _ enough inherited cursor

end LuaChunk
