import LuaChunk.Proofs.Correspondence
import LuaChunk.Proofs.Machine.Chunk

/-!
# The decoder on machine words runs as the readers do

Each program of the decoder runs as the reader of the same part, from every place in the bytes and
at every depth up to the limit (`Machine.Runs`). So none of them panics, and the depth behind a
function is the depth in front of it. A chunk has far fewer functions than there are words,
because its bytes pay for them.
-/
namespace LuaChunk

namespace Prototype

/-- The functions of several trees are counted if each tree can be counted and their number is a
word. -/
theorem countWordAll_eq (trees : List Prototype) (counted : Nat)
    (each : ∀ inner ∈ trees, inner.functionCount < Nat.pow 2 64 →
      inner.countWord = some (.ofNat inner.functionCount))
    (fits : counted + functionCountAll trees < Nat.pow 2 64) :
    countWordAll (.ofNat counted) trees = some (.ofNat (counted + functionCountAll trees)) := by
  induction trees generalizing counted with
  | nil => rfl
  | cons first further ih =>
    rw [functionCountAll] at fits ⊢
    rw [List.forall_mem_cons] at each
    have head : first.countWord = some (.ofNat first.functionCount) := each.1 (by omega)
    have sum := checkedAdd_ofNat (by omega : counted + first.functionCount < Nat.pow 2 64)
    have rest := ih (counted + first.functionCount) each.2 (by omega)
    simp only [countWordAll, head, Option.bind_eq_bind, Option.bind_some, sum, rest, Nat.add_assoc]

/-- The functions of a tree are counted if their number is a word. -/
theorem countWord_eq (tree : Prototype) (fits : tree.functionCount < Nat.pow 2 64) :
    tree.countWord = some (.ofNat tree.functionCount) := by
  induction tree using nestedInduction with
  | step tree ih =>
    rw [functionCount_eq] at fits ⊢
    have below : countWordAll 0 tree.functions =
        some (.ofNat (functionCountAll tree.functions)) := by
      have counted := countWordAll_eq tree.functions 0 ih (by omega)
      rwa [Nat.zero_add] at counted
    have sum : checkedAdd 1 (.ofNat (functionCountAll tree.functions)) =
        some (.ofNat (1 + functionCountAll tree.functions)) := checkedAdd_ofNat fits
    cases tree
    simp only [countWord, below, Option.bind_eq_bind, Option.bind_some, sum]

end Prototype

namespace Machine

section Short

variable {bytes : List UInt8} {depth : UInt64} {place : Nat}
  (short : bytes.length < Nat.pow 2 63)

include short

/-- A number of bytes. -/
theorem bytes_runs (count : UInt64) (within : place ≤ bytes.length) :
    Runs bytes depth id (Machine.bytes count) (Reader.bytes count.toNat) place :=
  block_runs short count.toNat count within

/-- The number of a place. -/
theorem position_runs (within : place ≤ bytes.length) :
    Runs bytes depth id primitives.position Reader.position place := by
  have offset := toNat_ofNat_place short within
  refine ⟨place, within, .ok place, ?_, rfl, rfl⟩
  show some (Except.ok (UInt64.ofNat place).toNat, _) = _
  rw [offset]

/-- The steps of fixed size. -/
theorem primitives_correspond (depth : UInt64) :
    primitives.Correspond (fun _ => RunsInside bytes depth) Reader.primitives where
  pure value _ within := runs_pure within id value
  bind head tail place within :=
    (head place within).bind fun value last within _ => tail value last within
  position _ within := position_runs short within
  remaining _ within := by
    have runs : Runs bytes depth id primitives.remaining (Reader.remaining >>= pure) _ :=
      (remaining_runs short within).map UInt64.toNat id fun _ => rfl
    rwa [bind_pure] at runs
  fail error _ within := runs_fail within id error
  log record _ within := runs_log_bind (runs_pure within id ())
  bytes count fits _ within := by
    have size : (UInt64.ofNat count).toNat = count := toNat_ofNat_word fits
    have runs : Runs bytes depth id (Machine.bytes (.ofNat count)) (Reader.bytes _) _ :=
      bytes_runs short _ within
    rwa [size] at runs

/-- Words of four bytes. -/
theorem words_runs (count : UInt64) (within : place ≤ bytes.length) :
    Runs bytes depth id (words count) (Reader.words count.toNat) place := by
  have size : (fourTimes count).toNat = min (4 * count.toNat) (Nat.pow 2 64 - 1) := by
    apply toNat_ofNat_word
    have positive : 0 < Nat.pow 2 64 := Nat.two_pow_pos 64
    omega
  rw [Reader.words, ← size]
  exact (block_runs short _ _ within).map LittleEndian.words LittleEndian.words fun _ => rfl

/-- The size of a string. -/
theorem stringSize_runs (within : place ≤ bytes.length) :
    Runs bytes depth UInt64.toNat stringSize Reader.stringSize place := by
  have fixed := primitives_correspond short depth
  apply (fixed.byte place within).bind
  intro first last within _
  rw [id]
  by_cases escaped : first = Reader.sizeEscape
  · rw [if_pos escaped, if_pos escaped]
    exact (fixed.longWord last within).viewed UInt64.toNat fun _ _ => ⟨rfl, rfl⟩
  · rw [if_neg escaped, if_neg escaped]
    exact runs_pure within UInt64.toNat first.toUInt64

/-- A string. The size in front of it is not zero where it is decreased. -/
theorem string_runs (limit : UInt64) (within : place ≤ bytes.length) :
    Runs bytes depth id (string limit) (Reader.string limit.toNat) place := by
  have offset := toNat_ofNat_place short within
  apply runs_position_bind
  apply (stringSize_runs short within).bind
  intro size last within _
  by_cases none : size = 0
  · have zero : size.toNat = 0 := congrArg UInt64.toNat none
    rw [if_pos none, if_pos zero]
    exact runs_pure within id _
  · have some : size.toNat ≠ 0 := fun zero => none (UInt64.toNat_inj.mp zero)
    have positive : (1 : UInt64) ≤ size := by
      rw [UInt64.le_iff_toNat_le]
      exact Nat.one_le_iff_ne_zero.mpr some
    have declared : (size - 1).toNat = size.toNat - 1 := UInt64.toNat_sub_of_le _ _ positive
    have difference : checkedSub size 1 = .some (size - 1) := if_pos positive
    rw [if_neg none, if_neg some, difference, offset, ← declared]
    by_cases above : limit < size - 1
    · have aboveNumber : limit.toNat < (size - 1).toNat := UInt64.lt_iff_toNat_lt.mp above
      rw [if_pos aboveNumber]
      show Runs bytes depth id (if limit < size - 1 then _ else _) _ last
      rw [if_pos above]
      exact runs_fail within id _
    · have withinLimit : ¬limit.toNat < (size - 1).toNat := mt UInt64.lt_iff_toNat_lt.mpr above
      rw [if_neg withinLimit]
      show Runs bytes depth id (if limit < size - 1 then _ else _) _ last
      rw [if_neg above]
      exact (bytes_runs short (size - 1) within).map ByteString.mk ByteString.mk fun _ => rfl

variable (policy : WordPolicy)

/-- The length of a list. -/
theorem length_runs (part : Part) (within : place ≤ bytes.length) :
    Runs bytes depth UInt64.toNat (length policy part) (Reader.length policy.policy part)
      place := by
  have offset := toNat_ofNat_place short within
  apply runs_position_bind
  apply ((primitives_correspond short depth).word place within).bind
  intro declared last within _
  have number : declared.toUInt64.toNat = declared.toNat := UInt32.toNat_toUInt64 declared
  rw [id, offset]
  by_cases allowed : declared.toUInt64 ≤ policy.maxSequence
  · have allowedNumber : declared.toNat ≤ policy.policy.maxSequence := by
      rw [← number]
      exact UInt64.le_iff_toNat_le.mp allowed
    rw [if_pos allowed, if_pos allowedNumber, ← number]
    exact runs_pure within UInt64.toNat declared.toUInt64
  · have above : ¬declared.toNat ≤ policy.policy.maxSequence := by
      rw [← number]
      exact mt UInt64.le_iff_toNat_le.mpr allowed
    rw [if_neg allowed, if_neg above]
    exact runs_fail within UInt64.toNat _

/-- A list of elements. -/
theorem list_runs {α : Type} (part : Part) {element : Machine α} {read : Reader α}
    (every : ∀ place ≤ bytes.length, Runs bytes depth id element read place)
    (within : place ≤ bytes.length) :
    Runs bytes depth id (list policy part element) (Reader.list policy.policy part read) place := by
  apply (length_runs short policy part within).bind
  intro count last within _
  have elements := times_runs every count.toNat within
  rw [List.map_id_fun] at elements
  exact runs_remaining_bind short within elements

/-- A list of words. -/
theorem wordList_runs (part : Part) (within : place ≤ bytes.length) :
    Runs bytes depth id (wordList policy part) (Reader.wordList policy.policy part) place := by
  apply (length_runs short policy part within).bind
  intro count last within _
  exact words_runs short count within

/-- All steps, within the bounds of a policy. -/
theorem operations_correspond (depth : UInt64) :
    (operations policy).Correspond (fun _ => RunsInside bytes depth)
      (Reader.operations policy.policy) where
  toCorrespond := primitives_correspond short depth
  string _ within := string_runs short policy.maxString within
  wordList part _ within := wordList_runs short policy part within
  list part _ _ elements _ within := list_runs short policy part elements within
  allowTrailing := rfl

end Short

section Below

variable {word limit : UInt64} (below : word < limit)

include below

/-- One more than a word below another one is a word. -/
theorem succ_toNat_lt : word.toNat + 1 < Nat.pow 2 64 := by
  have number : word.toNat < limit.toNat := UInt64.lt_iff_toNat_lt.mp below
  have bound : limit.toNat < Nat.pow 2 64 := limit.toNat_lt
  omega

/-- The word behind it has the next number. -/
theorem toNat_add_one : (word + 1).toNat = word.toNat + 1 := by
  rw [UInt64.toNat_add]
  exact Nat.mod_eq_of_lt (succ_toNat_lt below)

/-- A word below a limit is counted up and stays within the limit. -/
theorem checkedAdd_one : checkedAdd word 1 = some (word + 1) ∧ word + 1 ≤ limit := by
  refine ⟨if_pos (succ_toNat_lt below), ?_⟩
  rw [UInt64.le_iff_toNat_le, toNat_add_one below]
  exact UInt64.lt_iff_toNat_lt.mp below

/-- A word that was counted up is counted down again. -/
theorem checkedSub_one : checkedSub (word + 1) 1 = some word := by
  have positive : (1 : UInt64) ≤ word + 1 := by
    rw [UInt64.le_iff_toNat_le, toNat_add_one below]
    exact Nat.le_add_left 1 _
  rw [checkedSub, if_pos positive, UInt64.add_sub_cancel]

end Below

/-- A nested function, if functions run one level deeper. The depth is counted up and down again,
and in between it is not above its limit. -/
theorem nested_runs {bytes : List UInt8} {depth : UInt64} {place : Nat}
    (short : bytes.length < Nat.pow 2 63) (policy : WordPolicy)
    {function : ByteString → Machine Prototype}
    (every : depth < policy.maxDepth → ∀ name, ∀ place ≤ bytes.length,
      Runs bytes (depth + 1) id (function name)
        (Reader.functionWith policy.policy
          (Reader.nestedFunction policy.policy (policy.maxDepth.toNat - (depth.toNat + 1))) name)
        place)
    (inherited : ByteString) (within : place ≤ bytes.length) :
    Runs bytes depth id (nested policy function inherited)
      (Reader.nestedFunction policy.policy (policy.maxDepth.toNat - depth.toNat) inherited)
      place := by
  have offset := toNat_ofNat_place short within
  by_cases deepest : policy.maxDepth ≤ depth
  · have none : policy.maxDepth.toNat - depth.toNat = 0 :=
      Nat.sub_eq_zero_of_le (UInt64.le_iff_toNat_le.mp deepest)
    have refused : nested policy function inherited bytes ⟨.ofNat place, depth⟩ =
        some (.error (.nestedTooDeep policy.maxDepth.toNat place), ⟨.ofNat place, depth⟩) := by
      simp only [nested, Bind.bind, andThen, Machine.depth, if_pos deepest, position, fail, offset]
    rw [none]
    exact ⟨place, within, _, refused, rfl, rfl⟩
  · have shallow : depth < policy.maxDepth := UInt64.not_le.mp deepest
    have number : depth.toNat < policy.maxDepth.toNat := UInt64.lt_iff_toNat_lt.mp shallow
    obtain ⟨added, allowed⟩ := checkedAdd_one shallow
    have subtracted := checkedSub_one shallow
    have levels : policy.maxDepth.toNat - depth.toNat =
        policy.maxDepth.toNat - (depth.toNat + 1) + 1 := by omega
    obtain ⟨last, withinLast, outcome, runs, answers, stops⟩ := every shallow inherited place within
    rw [levels]
    refine ⟨last, withinLast, outcome, ?_, answers, stops⟩
    simp only [nested, Bind.bind, andThen, Machine.depth, if_neg deepest, check, added, setDepth,
      if_pos allowed, Option.map_some, attempt, runs, subtracted, if_pos (UInt64.le_of_lt shallow),
      resume]

/-- A function with everything nested in it, if as many functions may be open as there are levels
left. -/
theorem function_runs {bytes : List UInt8} (short : bytes.length < Nat.pow 2 63)
    (policy : WordPolicy) (beyond : ByteString → Machine Prototype) (calls : Nat) {depth : UInt64}
    (enough : policy.maxDepth.toNat - depth.toNat < calls) (inherited : ByteString) {place : Nat}
    (within : place ≤ bytes.length) :
    Runs bytes depth id (function policy beyond calls inherited)
      (Reader.functionWith policy.policy
        (Reader.nestedFunction policy.policy (policy.maxDepth.toNat - depth.toNat)) inherited)
      place := by
  induction calls generalizing depth inherited place with
  | zero => exact absurd enough (Nat.not_lt_zero _)
  | succ calls ih =>
    refine (operations_correspond short policy depth).functionWith ?_ inherited place within
    intro name place within
    refine nested_runs short policy ?_ name within
    intro shallow name place within
    have number : depth.toNat < policy.maxDepth.toNat := UInt64.lt_iff_toNat_lt.mp shallow
    have deeper := toNat_add_one shallow
    have fewer : policy.maxDepth.toNat - (depth + 1).toNat < calls := by omega
    have runs := ih fewer name within
    rwa [deeper] at runs

/-- The functions of a tree are counted if their number is a word. -/
theorem count_runs {bytes : List UInt8} {depth : UInt64} {place : Nat} (tree : Prototype)
    (fits : tree.functionCount < Nat.pow 2 64) (within : place ≤ bytes.length) :
    Runs bytes depth id (return (← check tree.countWord).toNat) (return tree.functionCount)
      place := by
  refine ⟨place, within, .ok tree.functionCount, ?_, rfl, rfl⟩
  simp only [Bind.bind, andThen, check, tree.countWord_eq fits, Option.map_some,
    toNat_ofNat_word fits]
  rfl

/-- What a reader of functions takes from bytes costs no more than there are. -/
theorem cost_le_of_function {bytes : List UInt8} {place : Nat} (within : place ≤ bytes.length)
    {policy : Policy} {inherited : ByteString} {tree : Prototype} {stop : Cursor}
    (yields : (Reader.function policy inherited).Yields (.inside bytes place) tree stop) :
    tree.cost ≤ bytes.length := by
  obtain ⟨written, ⟨bare, ⟨spelled, _⟩, rfl⟩, stands, _⟩ :=
    (Reader.function_accepts policy inherited).stands yields
  have paid := spelled.cost_le
  have inside := stands.length_le within
  rw [Prototype.cost_inherit]
  omega

/-- A chunk, if the program for its main function runs. -/
theorem chunk_runs {bytes : List UInt8} {depth : UInt64} {place : Nat}
    (short : bytes.length < Nat.pow 2 63) (policy : WordPolicy)
    {function : ByteString → Machine Prototype}
    (every : ∀ place ≤ bytes.length,
      Runs bytes depth id (function .empty) (Reader.function policy.policy .empty) place)
    (within : place ≤ bytes.length) :
    Runs bytes depth id (chunk policy function) (Reader.chunk policy.policy) place := by
  have steps := operations_correspond short policy depth
  apply (steps.header place within).bind
  intro _ last within _
  apply (steps.byte last within).bind
  intro upvalueCount last within _
  apply runs_log_bind
  apply (every last within).bind
  intro main afterMain withinMain yields
  have cost := cost_le_of_function within yields
  have paid := main.functionCount_le_cost
  have half : Nat.pow 2 63 < Nat.pow 2 64 := by decide
  have fits : main.functionCount < Nat.pow 2 64 := by
    rw [id] at cost
    omega
  apply (steps.trailing afterMain withinMain).bind
  intro _ last within _
  apply (count_runs main fits within).bind
  intro count last within _
  exact runs_log_bind (runs_pure within id main)

end Machine

end LuaChunk
