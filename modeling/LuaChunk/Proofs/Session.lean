import LuaChunk.Proofs.Comparison
import LuaChunk.Proofs.DepthCounter
import LuaChunk.Proofs.Reader.Failure
import LuaChunk.Proofs.Sequence
import LuaChunk.Wire.Session

/-!
# Steps do not depend on the steps before them

A step of a session begins where the step before it stopped, and that place is all that it is
told. It does what a fresh decoder does that has only the bytes from this place on, apart from the
places in its answer, which count from the beginning of all bytes. A decoder with a depth counter
gives the same answers, because its counter is zero again after every step.
-/
namespace LuaChunk

section Answers

variable {Step State Other Answer : Type} {take : State → Step → Answer × State}

/-- What holds of the answer to a step from each state that steps can leave holds of the answers to
several steps. -/
theorem answers_forall {Invariant : State → Prop} {Holds : Answer × State → Prop}
    (kept : ∀ state step, Invariant state → Invariant (take state step).2)
    (given : ∀ state step, Invariant state → Holds (take state step)) {state : State}
    (holds : Invariant state) (steps : List Step) :
    ∀ answered ∈ answers take state steps, Holds answered := by
  induction steps generalizing state with
  | nil => exact nofun
  | cons step further ih =>
    intro answered member
    rcases List.mem_cons.mp member with rfl | later
    · exact given state step holds
    · exact ih (kept state step holds) answered later

/-- What every step keeps holds after each of several steps. -/
theorem answers_invariant {Invariant : State → Prop}
    (kept : ∀ state step, Invariant state → Invariant (take state step).2) {state : State}
    (holds : Invariant state) (steps : List Step) :
    ∀ answered ∈ answers take state steps, Invariant answered.2 :=
  answers_forall kept kept holds steps

/-- If one step gives the same answer on a view of the state, then several steps do. -/
theorem answers_view {other : Other → Step → Answer × Other} (view : State → Other)
    (Invariant : State → Prop)
    (kept : ∀ state step, Invariant state → Invariant (take state step).2)
    (same : ∀ state step, Invariant state →
      other (view state) step = (take state step).map id view) {state : State}
    (holds : Invariant state) (steps : List Step) :
    answers other (view state) steps = (answers take state steps).map (Prod.map id view) := by
  induction steps generalizing state with
  | nil => rfl
  | cons step further ih =>
    simp only [answers, List.map_cons, same state step holds, Prod.map_snd]
    rw [ih (kept state step holds)]

/-- Steps may be translated one by one. -/
theorem answers_map {Word : Type} (meaning : Word → Step) (state : State) (steps : List Word) :
    answers take state (steps.map meaning) =
      answers (fun state step => take state (meaning step)) state steps := by
  induction steps generalizing state with
  | nil => rfl
  | cons step further ih => exact congrArg _ (ih (take state (meaning step)).2)

end Answers

/-- A cursor is at a place in bytes. -/
def Cursor.LiesIn (bytes : List UInt8) (cursor : Cursor) : Prop :=
  ∃ place, place ≤ bytes.length ∧ cursor = .inside bytes place

namespace ChunkStep

/-- The answer to a step and the cursor after it, if the step is left to a fresh decoder of the
bytes from the place of the cursor on. -/
def takeFresh (policy : Policy) (bytes : List UInt8) (cursor : Cursor) (step : ChunkStep) :
    Except DecodeError ChunkItem × Cursor :=
  let place := cursor.position
  (step.take policy (.start (bytes.drop place))).map
    (Except.mapError (DecodeError.shift place)) (Cursor.shift place)

/-- The reader of a step is the same everywhere. -/
theorem reader_follows (policy : Policy) (distance : Nat) (step : ChunkStep) :
    Reader.Follows (fun _ => False) distance (step.reader policy) (step.reader policy) := by
  have same := policy.tightens_refl fun _ => False
  cases step with
  | header => exact Reader.header_follows.map ChunkItem.header
  | constant => exact (Reader.constant_follows same).map ChunkItem.constant
  | function inherited => exact (Reader.function_follows same inherited).map ChunkItem.function
  | chunk => exact (Reader.chunk_follows same).map ChunkItem.function

/-- A step taken further on has the same answer and goes on as far, with more bytes counted in
front. -/
theorem take_shift (policy : Policy) (distance : Nat) (cursor : Cursor) (step : ChunkStep) :
    step.take policy (cursor.shift distance) =
      (step.take policy cursor).map (Except.mapError (DecodeError.shift distance))
        (Cursor.shift distance) := by
  obtain ⟨outcome, stop⟩ := (reader_follows policy distance step).at_distance cursor
  simp only [take, Prod.map]
  rw [outcome, stop]
  split
  · rfl
  · rfl

/-- A step that begins in some bytes ends in them. -/
theorem take_liesIn (policy : Policy) {bytes : List UInt8} {cursor : Cursor} (step : ChunkStep)
    (inside : cursor.LiesIn bytes) : (step.take policy cursor).2.LiesIn bytes := by
  obtain ⟨place, within, rfl⟩ := inside
  by_cases still : step = chunk
  · exact ⟨place, within, if_pos still⟩
  · have sequential : Reader.Sequential (step.reader policy) := by
      cases step with
      | header => exact Reader.header_sequential.map ChunkItem.header
      | constant => exact (Reader.constant_sequential policy).map ChunkItem.constant
      | function inherited =>
        have nested := Reader.nestedFunction_sequential policy (policy.maxDepth + 1) inherited
        exact nested.map ChunkItem.function
      | chunk => exact absurd rfl still
    obtain ⟨written, passes⟩ := sequential.passes (.inside bytes place)
    obtain ⟨stands, stopped⟩ := (Cursor.passes_inside_iff bytes place written _).mp passes
    exact ⟨place + written.length, stands.length_le within, (if_neg still).trans stopped⟩

/-- In the bytes that a cursor is in, a step does what a fresh decoder does. -/
theorem takeFresh_of_liesIn (policy : Policy) {bytes : List UInt8} {cursor : Cursor}
    (step : ChunkStep) (inside : cursor.LiesIn bytes) :
    step.takeFresh policy bytes cursor = step.take policy cursor := by
  obtain ⟨place, _, rfl⟩ := inside
  exact (take_shift policy place (.start (bytes.drop place)) step).symm

/-- The reader of a step with a depth counter. -/
def counting (policy : Policy) (readFunction : ByteString → Counting Prototype) :
    ChunkStep → Counting ChunkItem :=
  program (Counting.operations policy) readFunction (Counting.chunk policy readFunction)

end ChunkStep

/-- What a decoder with a depth counter has between two steps. -/
structure Decoder where
  /-- Where the next step reads. -/
  cursor : Cursor
  /-- The number of functions that it is inside of. -/
  depth : Nat
  deriving DecidableEq

/-- The decoder before the first step. -/
def Decoder.start (bytes : List UInt8) : Decoder := ⟨.start bytes, 0⟩

/-- The answer of a decoder with a depth counter to a step, and the decoder after it. A whole chunk
is read by a copy of the decoder. -/
def Decoder.take (policy : Policy) (readFunction : ByteString → Counting Prototype)
    (decoder : Decoder) (step : ChunkStep) : Except DecodeError ChunkItem × Decoder :=
  let (reading, depth) := step.counting policy readFunction decoder.depth decoder.cursor
  (reading.outcome, if step = .chunk then decoder else ⟨reading.stop, depth⟩)

namespace Counting

/-- Every step keeps the counter at zero. -/
theorem step_keeps (policy : Policy) (beyond : ByteString → Counting Prototype) {calls : Nat}
    (enough : policy.maxDepth < calls) (step : ChunkStep) :
    Keeps 0 (step.counting policy (function policy beyond calls)) (step.reader policy) := by
  have functions := function_keeps policy beyond 0 calls enough
  exact (operations_correspond policy 0).program functions (chunk_keeps policy (functions .empty))
    step

end Counting

/-- After every step a decoder with a depth counter has the counter at zero. -/
theorem Decoder.take_eq (policy : Policy) (beyond : ByteString → Counting Prototype) {calls : Nat}
    (enough : policy.maxDepth < calls) (cursor : Cursor) (step : ChunkStep) :
    Decoder.take policy (Counting.function policy beyond calls) ⟨cursor, 0⟩ step =
      (step.take policy cursor).map id (Decoder.mk · 0) := by
  simp only [Decoder.take, ChunkStep.take, Prod.map]
  rw [Counting.step_keeps policy beyond enough step cursor]
  split
  · rfl
  · rfl

/-- Every step of a session has the answer of a fresh decoder of the bytes from the place of the
step on, with the places counted from the beginning of all bytes, and goes on as far. A decoder
with a depth counter answers the same and has the counter at zero after every step, because reading
a function leaves the counter where it was, whether it fails or not. -/
theorem answers_eq_fresh (policy : Policy) (bytes : List UInt8) (steps : List ChunkStep)
    (beyond : ByteString → Counting Prototype) (spare : Nat) :
    let fresh := answers (ChunkStep.takeFresh policy bytes) (.start bytes) steps
    let calls := policy.maxDepth + 1 + spare
    answers (ChunkStep.take policy) (.start bytes) steps = fresh ∧
      (∀ answered ∈ fresh, answered.2.LiesIn bytes) ∧
      answers (Decoder.take policy (Counting.function policy beyond calls)) (.start bytes) steps =
        fresh.map (Prod.map id (Decoder.mk · 0)) ∧
      ∀ inherited depth cursor,
        (Counting.function policy beyond (policy.maxDepth - depth + 1 + spare) inherited depth
          cursor).2 = depth := by
  intro fresh calls
  have kept (cursor : Cursor) (step : ChunkStep) (inside : cursor.LiesIn bytes) :
      (step.take policy cursor).2.LiesIn bytes :=
    step.take_liesIn policy inside
  have same (cursor : Cursor) (step : ChunkStep) (inside : cursor.LiesIn bytes) :
      step.takeFresh policy bytes cursor = (step.take policy cursor).map id id :=
    step.takeFresh_of_liesIn policy inside
  have begins : (Cursor.start bytes).LiesIn bytes := ⟨0, Nat.zero_le _, rfl⟩
  have freshAnswers : fresh = answers (ChunkStep.take policy) (.start bytes) steps := by
    have viewed := answers_view id _ kept same begins steps
    rw [Prod.map_id, List.map_id] at viewed
    exact viewed
  refine ⟨freshAnswers.symm, ?_, ?_, ?_⟩
  · rw [freshAnswers]
    exact answers_invariant kept begins steps
  · have enough : policy.maxDepth < calls := by omega
    rw [freshAnswers]
    exact answers_view (Decoder.mk · 0) (fun _ => True) (fun _ _ _ => trivial)
      (fun cursor step _ => Decoder.take_eq policy beyond enough cursor step) trivial steps
  · intro inherited depth cursor
    have enough : policy.maxDepth - depth < policy.maxDepth - depth + 1 + spare := by omega
    rw [Counting.function_keeps policy beyond depth _ enough inherited cursor]

/-- A function that is nested too deep is refused two levels down, and the function behind it may
still be nested as deep as the policy allows. -/
example :
    let policy : Policy := ⟨1, 1, 1, true⟩
    let opening := List.replicate 24 0 ++ [1, 0, 0, 0]
    let bytes := opening ++ opening ++ opening ++ List.replicate 52 0
    let readFunction := Counting.function policy (fun _ => liftM (Reader.fail default)) 2
    (answers (Decoder.take policy readFunction) (.start bytes)
      [.function .empty, .function .empty]).map
        (fun answered => (answered.1.map fun _ => (), answered.2.cursor.position,
          answered.2.depth)) =
      [(.error (.nestedTooDeep 1 56), 56, 0), (.ok (), 136, 0)] := by
  decide +kernel

end LuaChunk
