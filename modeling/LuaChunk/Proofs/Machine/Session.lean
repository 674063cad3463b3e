import LuaChunk.Proofs.Machine.Listing
import LuaChunk.Proofs.Machine.Simulation
import LuaChunk.Proofs.Session

/-!
# No session panics

A caller who reads one item after the other, with any arguments and also after failures, never
brings a decoder on machine words to a panic, and gets the answers of the model. Every tree that it
gets has its functions counted in a word and is listed without a number that wraps around.
-/
namespace LuaChunk

/-- The answers to steps taken one after the other, unless one of them is a panic. -/
def checkedAnswers {Step State Answer : Type} (take : State → Step → Option (Answer × State))
    (state : State) : List Step → Option (List (Answer × State))
  | [] => some []
  | step :: further => do
    let answered ← take state step
    let later ← checkedAnswers take answered.2 further
    return answered :: later

/-- If no step is a panic and each gives the same answer on a view of the state, then several steps
do. -/
theorem checkedAnswers_eq {Step State Other Answer : Type}
    {take : State → Step → Option (Answer × State)} {other : Other → Step → Answer × Other}
    (view : Other → State) (Invariant : Other → Prop)
    (kept : ∀ state step, Invariant state → Invariant (other state step).2)
    (same : ∀ state step, Invariant state →
      take (view state) step = some ((other state step).map id view)) {state : Other}
    (holds : Invariant state) (steps : List Step) :
    checkedAnswers take (view state) steps =
      some ((answers other state steps).map (Prod.map id view)) := by
  induction steps generalizing state with
  | nil => rfl
  | cons step further ih =>
    have rest := ih (kept state step holds)
    simp only [checkedAnswers, same state step holds, Option.bind_eq_bind, Option.bind_some,
      Prod.map_snd, rest, List.map_cons, answers]
    rfl

/-- The registers of a decoder that stands at a cursor outside of all functions. -/
def Registers.ofCursor (cursor : Cursor) : Registers := ⟨.ofNat cursor.position, 0⟩

/-- Registers between two steps: the decoder stands in the bytes, so that their rest and its size
are defined, and it is in no function. -/
structure Registers.Sound (bytes : List UInt8) (registers : Registers) : Prop where
  /-- The place is not behind the end of the bytes. -/
  position_le : registers.position.toNat ≤ bytes.length
  /-- The number of unread bytes is not below zero. -/
  remaining_eq : checkedSub (.ofNat bytes.length) registers.position =
    some (.ofNat (bytes.length - registers.position.toNat))
  /-- No function is open. -/
  depth_eq : registers.depth = 0

/-- The registers for a cursor in the bytes are sound. -/
theorem Registers.ofCursor_sound {bytes : List UInt8} (short : bytes.length < Nat.pow 2 63)
    {cursor : Cursor} (inside : cursor.LiesIn bytes) :
    (Registers.ofCursor cursor).Sound bytes := by
  obtain ⟨place, within, rfl⟩ := inside
  have half : Nat.pow 2 63 < Nat.pow 2 64 := by decide
  have number : (UInt64.ofNat place).toNat = place := Machine.toNat_ofNat_place short within
  have fits : bytes.length < Nat.pow 2 64 := by omega
  constructor
  · show (UInt64.ofNat place).toNat ≤ bytes.length
    rw [number]
    exact within
  · show checkedSub (.ofNat bytes.length) (.ofNat place) =
      some (.ofNat (bytes.length - (UInt64.ofNat place).toNat))
    rw [number, checkedSub_ofNat within fits]
  · rfl

/-- A machine that runs as a reader answers as it does and stops where it does, in the bytes. -/
theorem Machine.Runs.eq_some {α : Type} {bytes : List UInt8} {machine : Machine α}
    {read : Reader α} {place : Nat} (runs : Machine.Runs bytes 0 id machine read place) :
    machine bytes (.ofCursor (.inside bytes place)) =
        some ((read (.inside bytes place)).outcome,
          .ofCursor (read (.inside bytes place)).stop) ∧
      (read (.inside bytes place)).stop.LiesIn bytes := by
  obtain ⟨last, within, outcome, program, answers, stops⟩ := runs
  have same : (read (.inside bytes place)).outcome = outcome := by
    rw [answers]
    cases outcome <;> rfl
  rw [same, stops]
  exact ⟨program, last, within, rfl⟩

/-- A step that reads one item of the wire format, or sets the limit of later strings, with numbers
in words. -/
inductive WordStep where
  /-- Read one byte. -/
  | byte
  /-- Read a word of four bytes. -/
  | word
  /-- Read a word of eight bytes. -/
  | longWord
  /-- Read an integer. -/
  | integer
  /-- Read a float. -/
  | number
  /-- Read a number of bytes. -/
  | bytes (count : UInt64)
  /-- Read a number of words of four bytes. -/
  | words (count : UInt64)
  /-- Read a string. -/
  | string
  /-- Set the greatest number of bytes of a string. -/
  | limit (maxString : UInt64)
  deriving DecidableEq

namespace WordStep

/-- The step with numbers. -/
def step : WordStep → WireStep
  | byte => .byte
  | word => .word
  | longWord => .longWord
  | integer => .integer
  | number => .number
  | bytes count => .bytes count.toNat
  | words count => .words count.toNat
  | string => .string
  | limit maxString => .limit maxString.toNat

/-- The limit on strings after a step. -/
def nextLimit (maxString : UInt64) : WordStep → UInt64
  | limit chosen => chosen
  | _ => maxString

/-- The program for a step, under the limit on strings. -/
def machine (maxString : UInt64) : WordStep → Machine WireItem
  | byte => return .byte (← Machine.primitives.byte)
  | word => return .word (← Machine.primitives.word)
  | longWord => return .longWord (← Machine.primitives.longWord)
  | integer => return .integer (← Machine.primitives.integer)
  | number => return .number (← Machine.primitives.number)
  | bytes count => return .bytes (← Machine.bytes count)
  | words count => return .words (← Machine.words count)
  | string => return .string (← Machine.string maxString)
  | limit _ => return .limited

/-- The program for a step runs as its reader does. -/
theorem machine_runs {bytes : List UInt8} (short : bytes.length < Nat.pow 2 63)
    (maxString : UInt64) (step : WordStep) {place : Nat} (within : place ≤ bytes.length) :
    Machine.Runs bytes 0 id (step.machine maxString) (step.step.reader maxString.toNat) place := by
  have fixed := Machine.primitives_correspond short 0
  cases step with
  | byte => exact (fixed.byte place within).map _ WireItem.byte fun _ => rfl
  | word => exact (fixed.word place within).map _ WireItem.word fun _ => rfl
  | longWord => exact (fixed.longWord place within).map _ WireItem.longWord fun _ => rfl
  | integer => exact (fixed.integer place within).map _ WireItem.integer fun _ => rfl
  | number => exact (fixed.number place within).map _ WireItem.number fun _ => rfl
  | bytes count => exact (Machine.bytes_runs short count within).map _ WireItem.bytes fun _ => rfl
  | words count => exact (Machine.words_runs short count within).map _ WireItem.words fun _ => rfl
  | string => exact (Machine.string_runs short maxString within).map _ WireItem.string fun _ => rfl
  | limit chosen => exact Machine.runs_pure within id WireItem.limited

end WordStep

/-- The state between two steps that read items, in words. -/
structure WordState where
  /-- What the decoder keeps. -/
  registers : Registers
  /-- The greatest number of bytes of a string. -/
  maxString : UInt64
  deriving DecidableEq

namespace WordState

/-- The words of a state. -/
def ofWire (state : WireState) : WordState := ⟨.ofCursor state.cursor, .ofNat state.maxString⟩

/-- The state before the first step. -/
def start : WordState := ⟨⟨0, 0⟩, .ofNat Policy.default.maxString⟩

/-- The answer to a step and the state after it, unless the step is a panic. -/
def take (bytes : List UInt8) (state : WordState) (step : WordStep) :
    Option (Except DecodeError WireItem × WordState) := do
  let (outcome, registers) ← step.machine state.maxString bytes state.registers
  return (outcome, ⟨registers, step.nextLimit state.maxString⟩)

/-- The state of a session that reads items stands in the bytes, and its limit is a word. -/
def Fits (bytes : List UInt8) (state : WireState) : Prop :=
  state.cursor.LiesIn bytes ∧ state.maxString < Nat.pow 2 64

/-- A step is no panic and has the answer of the model, which leaves a state of the same kind. -/
theorem take_eq {bytes : List UInt8} (short : bytes.length < Nat.pow 2 63) {state : WireState}
    (fits : Fits bytes state) (step : WordStep) :
    take bytes (ofWire state) step = some ((step.step.take state).map id ofWire) ∧
      Fits bytes (step.step.take state).2 := by
  obtain ⟨⟨place, within, here⟩, limit⟩ := fits
  have word : (UInt64.ofNat state.maxString).toNat = state.maxString := toNat_ofNat_word limit
  have runs := step.machine_runs short (.ofNat state.maxString) within
  rw [word] at runs
  obtain ⟨program, inside⟩ := runs.eq_some
  rw [← here] at program inside
  have taken : take bytes (ofWire state) step =
      some ((step.step.reader state.maxString state.cursor).outcome,
        ⟨.ofCursor (step.step.reader state.maxString state.cursor).stop,
          step.nextLimit (.ofNat state.maxString)⟩) := by
    simp only [take, ofWire, program, Option.bind_eq_bind, Option.bind_some]
    rfl
  rw [taken]
  cases step with
  | limit chosen =>
    have chosenWord : UInt64.ofNat chosen.toNat = chosen := UInt64.ofNat_toNat
    refine ⟨?_, inside, chosen.toNat_lt⟩
    simp only [WordStep.step, WireStep.take, Prod.map, ofWire, chosenWord]
    rfl
  | _ => exact ⟨rfl, inside, limit⟩

/-- The state before the first step is of this kind. -/
theorem fits_start (bytes : List UInt8) : Fits bytes (.start bytes) := by
  have word : Policy.default.maxString < Nat.pow 2 64 := by decide
  exact ⟨⟨0, Nat.zero_le _, rfl⟩, word⟩

/-- A session is free of panics, has the answers of the model and leaves the decoder in the bytes
after every step. -/
theorem checkedAnswers_take {bytes : List UInt8} (short : bytes.length < Nat.pow 2 63)
    (steps : List WordStep) :
    let expected := answers WireStep.take (.start bytes) (steps.map WordStep.step)
    checkedAnswers (take bytes) start steps = some (expected.map (Prod.map id ofWire)) ∧
      ∀ answered ∈ expected, answered.2.cursor.LiesIn bytes := by
  intro expected
  have same : expected = answers (fun state step => WireStep.take state step.step) _ steps :=
    answers_map WordStep.step _ steps
  have kept (state : WireState) (step : WordStep) (fits : Fits bytes state) :
      Fits bytes (step.step.take state).2 := (take_eq short fits step).2
  rw [same]
  exact ⟨checkedAnswers_eq ofWire (Fits bytes) kept
      (fun _ step fits => (take_eq short fits step).1) (fits_start bytes) steps,
    fun answered member => (answers_invariant kept (fits_start bytes) steps answered member).1⟩

end WordState

namespace ChunkStep

/-- The program for a step that reads a part of a chunk. -/
def machine (policy : WordPolicy) (readFunction : ByteString → Machine Prototype) :
    ChunkStep → Machine ChunkItem :=
  program (Machine.operations policy) readFunction (Machine.chunk policy readFunction)

/-- The answer to a step and the registers after it, unless the step is a panic. -/
def takeWord (policy : WordPolicy) (readFunction : ByteString → Machine Prototype)
    (bytes : List UInt8) (registers : Registers) (step : ChunkStep) :
    Option (Except DecodeError ChunkItem × Registers) := do
  let (outcome, after) ← step.machine policy readFunction bytes registers
  return (outcome, if step = chunk then registers else after)

section Short

variable {bytes : List UInt8} (short : bytes.length < Nat.pow 2 63) (policy : WordPolicy)
  (beyond : ByteString → Machine Prototype) {calls : Nat}
  (enough : policy.maxDepth.toNat < calls)

include short enough

/-- The program for a step runs as its reader does. -/
theorem machine_runs (step : ChunkStep) {place : Nat} (within : place ≤ bytes.length) :
    Machine.Runs bytes 0 id (step.machine policy (Machine.function policy beyond calls))
      (step.reader policy.policy) place := by
  have left : policy.maxDepth.toNat - (0 : UInt64).toNat < calls := enough
  have functions : ∀ inherited, Machine.RunsInside bytes 0
      (Machine.function policy beyond calls inherited) (Reader.function policy.policy inherited) :=
    fun inherited _ within => Machine.function_runs short policy beyond calls left inherited within
  have chunks : Machine.RunsInside bytes 0 _ (Reader.chunk policy.policy) :=
    fun _ within => Machine.chunk_runs short policy (functions .empty) within
  exact (Machine.operations_correspond short policy 0).program functions chunks step place within

/-- A step is no panic and has the answer of the model. -/
theorem takeWord_eq {cursor : Cursor} (inside : cursor.LiesIn bytes) (step : ChunkStep) :
    step.takeWord policy (Machine.function policy beyond calls) bytes (.ofCursor cursor) =
      some ((step.take policy.policy cursor).map id .ofCursor) := by
  obtain ⟨place, within, rfl⟩ := inside
  obtain ⟨program, _⟩ := (machine_runs short policy beyond enough step within).eq_some
  simp only [takeWord, program, Option.bind_eq_bind, Option.bind_some, take, Prod.map]
  split <;> rfl

/-- A session is free of panics and has the answers of the model. -/
theorem checkedAnswers_takeWord (steps : List ChunkStep) :
    checkedAnswers (takeWord policy (Machine.function policy beyond calls) bytes) ⟨0, 0⟩ steps =
      some ((answers (take policy.policy) (.start bytes) steps).map (Prod.map id .ofCursor)) :=
  checkedAnswers_eq Registers.ofCursor (Cursor.LiesIn bytes)
    (fun _ step inside => step.take_liesIn policy.policy inside)
    (fun _ step inside => takeWord_eq short policy beyond enough inside step)
    ⟨0, Nat.zero_le _, rfl⟩ steps

end Short

/-- A tree that is the answer to a step costs no more than there are bytes. -/
theorem cost_le_of_take {policy : Policy} {bytes : List UInt8} {cursor : Cursor}
    (inside : cursor.LiesIn bytes) (step : ChunkStep) {tree : Prototype}
    (answers : (step.take policy cursor).1 = .ok (.function tree)) :
    tree.cost ≤ bytes.length := by
  obtain ⟨place, within, rfl⟩ := inside
  have yields : (step.reader policy).Yields (.inside bytes place) (.function tree) _ :=
    ⟨answers, rfl⟩
  cases step with
  | header =>
    obtain ⟨_, _, _, other⟩ := (Reader.yields_bind _ _ _ _ _).mp yields
    exact absurd other.1 nofun
  | constant =>
    obtain ⟨_, _, _, other⟩ := (Reader.yields_bind _ _ _ _ _).mp yields
    exact absurd other.1 nofun
  | function inherited =>
    obtain ⟨first, last, reads, same⟩ := (Reader.yields_bind _ _ _ _ _).mp yields
    obtain rfl := ChunkItem.function.inj (Except.ok.inj same.1)
    exact Machine.cost_le_of_function within reads
  | chunk =>
    obtain ⟨first, last, reads, same⟩ := (Reader.yields_bind _ _ _ _ _).mp yields
    obtain rfl := ChunkItem.function.inj (Except.ok.inj same.1)
    obtain ⟨reads, _⟩ := (Reader.chunk_yields_iff policy _ first last).mp reads
    obtain ⟨written, ⟨main, upvalueCount, part, ⟨spelled, _⟩, rfl, rfl⟩, stands, _⟩ :=
      (Reader.mainFunction_accepts policy).stands reads
    have paid := spelled.cost_le
    have fits := stands.length_le within
    rw [List.length_append, List.length_cons] at fits
    rw [Prototype.cost_inherit]
    omega

/-- After every step of a session the decoder stands in the bytes, and they pay for every tree that
it gives. -/
theorem answers_liesIn_cost_le (policy : Policy) (bytes : List UInt8) (steps : List ChunkStep) :
    ∀ answered ∈ answers (take policy) (.start bytes) steps, answered.2.LiesIn bytes ∧
      ∀ tree, answered.1 = .ok (.function tree) → tree.cost ≤ bytes.length := by
  have begins : (Cursor.start bytes).LiesIn bytes := ⟨0, Nat.zero_le _, rfl⟩
  have kept (cursor : Cursor) (step : ChunkStep) (inside : cursor.LiesIn bytes) :
      (step.take policy cursor).2.LiesIn bytes := step.take_liesIn policy inside
  exact answers_forall kept
    (fun cursor step inside => ⟨kept cursor step inside, fun _ => cost_le_of_take inside step⟩)
    begins steps

end ChunkStep

/-- A decoder on machine words does not panic, whatever the bytes, the limits and the steps are, as
long as the bytes are fewer than half of the words. It gives the answers of the model, and between
two steps it stands in the bytes and is in no function. The functions of every tree that it gives
are counted in a word, and no number in the listing of the tree wraps around. -/
theorem sessions_do_not_panic (policy : WordPolicy) (bytes : List UInt8)
    (short : bytes.length < Nat.pow 2 63) (beyond : ByteString → Machine Prototype)
    (spare : Nat) :
    (∀ steps : List WordStep, ∃ answered,
      checkedAnswers (WordState.take bytes) .start steps = some answered ∧
        answered = (answers WireStep.take (.start bytes) (steps.map WordStep.step)).map
          (Prod.map id WordState.ofWire) ∧
        ∀ entry ∈ answered, entry.2.registers.Sound bytes) ∧
    ∀ steps : List ChunkStep, ∃ answered,
      checkedAnswers
          (ChunkStep.takeWord policy
            (Machine.function policy beyond (policy.maxDepth.toNat + 1 + spare)) bytes)
          ⟨0, 0⟩ steps = some answered ∧
        answered = (answers (ChunkStep.take policy.policy) (.start bytes) steps).map
          (Prod.map id Registers.ofCursor) ∧
        ∀ entry ∈ answered, entry.2.Sound bytes ∧ ∀ tree, entry.1 = .ok (.function tree) →
          tree.countWord = some (.ofNat tree.functionCount) ∧
            tree.listingWord = some tree.listing := by
  constructor
  · intro steps
    obtain ⟨program, inside⟩ := WordState.checkedAnswers_take short steps
    refine ⟨_, program, rfl, ?_⟩
    intro entry member
    obtain ⟨answered, given, rfl⟩ := List.mem_map.mp member
    exact Registers.ofCursor_sound short (inside answered given)
  · intro steps
    have enough : policy.maxDepth.toNat < policy.maxDepth.toNat + 1 + spare := by omega
    refine ⟨_, ChunkStep.checkedAnswers_takeWord short policy beyond enough steps, rfl, ?_⟩
    intro entry member
    obtain ⟨answered, given, rfl⟩ := List.mem_map.mp member
    obtain ⟨inside, paid⟩ :=
      ChunkStep.answers_liesIn_cost_le policy.policy bytes steps answered given
    refine ⟨Registers.ofCursor_sound short inside, ?_⟩
    intro tree answer
    have half : Nat.pow 2 63 < Nat.pow 2 64 := by decide
    have cost : tree.cost ≤ bytes.length := paid tree answer
    have functions : 40 * tree.functionCount ≤ tree.cost := tree.functionCount_le_cost
    exact ⟨tree.countWord_eq (by omega), tree.listingWord_eq (by omega)⟩

/-- The greatest words as numbers of bytes, as limits and in a function are no panic. -/
theorem sessions_do_not_panic_greatest :
    let greatest : UInt64 := 18446744073709551615
    let policy : WordPolicy := ⟨greatest, greatest, greatest, false⟩
    let ones := List.replicate 8 0xFF
    let function := 0 :: ones ++ [0xFF, 0xFF, 0xFF] ++ List.replicate 20 0 ++
      [1, 0, 0, 0] ++ 0 :: ones ++ List.replicate 4 0
    let bytes := function ++ 0xFF :: ones
    let tree : Prototype :=
      ⟨.empty, 4294967295, 4294967295, 255, 255, 255, [], [], [], [],
        ⟨[], [⟨.empty, 4294967295, 4294967295⟩], []⟩⟩
    let readFunction := Machine.function policy (fun _ => Machine.fail default)
      (policy.maxDepth.toNat + 1 + 0)
    let steps : List WordStep :=
      [.bytes greatest, .words 4611686018427387904, .bytes 49, .limit greatest, .string]
    let words : List (Except DecodeError WireItem × WordState) := [
      (.error (.truncated 0 18446744073709551615 58), ⟨⟨0, 0⟩, 1073741824⟩),
      (.error (.truncated 0 18446744073709551615 58), ⟨⟨0, 0⟩, 1073741824⟩),
      (.ok (.bytes function), ⟨⟨49, 0⟩, 1073741824⟩),
      (.ok .limited, ⟨⟨49, 0⟩, greatest⟩),
      (.error (.truncated 58 18446744073709551614 0), ⟨⟨58, 0⟩, greatest⟩)]
    let parts : List (Except DecodeError ChunkItem × Registers) :=
      [(.ok (.function tree), ⟨49, 0⟩), (.error (.unknownTag 255 49), ⟨50, 0⟩)]
    bytes.length < Nat.pow 2 63 ∧
      (checkedAnswers (WordState.take bytes) .start steps = some words ∧
        ∀ entry ∈ words, entry.2.registers.Sound bytes) ∧
      checkedAnswers (ChunkStep.takeWord policy readFunction bytes) ⟨0, 0⟩
          [.function .empty, .constant] = some parts ∧
        (∀ entry ∈ parts, entry.2.Sound bytes) ∧ tree.countWord = some 1 ∧
        tree.listingWord = some tree.listing := by
  intro greatest policy ones function bytes tree readFunction steps words parts
  have short : bytes.length < Nat.pow 2 63 := by decide
  obtain ⟨sessions, chunks⟩ :=
    sessions_do_not_panic policy bytes short (fun _ => Machine.fail default) 0
  obtain ⟨items, read, _, itemsSound⟩ := sessions steps
  have readWords : checkedAnswers (WordState.take bytes) .start steps = some words := by
    decide +kernel
  obtain ⟨answered, decoded, _, answeredSound⟩ := chunks [.function .empty, .constant]
  have decodedParts : checkedAnswers (ChunkStep.takeWord policy readFunction bytes) ⟨0, 0⟩
      [.function .empty, .constant] = some parts := by decide +kernel
  obtain rfl : items = words := Option.some.inj (read.symm.trans readWords)
  obtain rfl : answered = parts := Option.some.inj (decoded.symm.trans decodedParts)
  have whole := (answeredSound (.ok (.function tree), ⟨49, 0⟩) List.mem_cons_self).2 tree rfl
  exact ⟨short, ⟨readWords, itemsSound⟩, decodedParts,
    fun entry member => (answeredSound entry member).1, whole⟩

end LuaChunk
