import LuaChunk.Proofs.Cost
import LuaChunk.Proofs.Sequence

/-!
# Readers make progress

A reader that succeeds has taken some bytes, and how many at least is known for every part of a
chunk (`Reader.Consumes`). So no list is longer than the bytes that are left, whatever length it
declares. The functions nested in a function are read behind its fields and four of its list
lengths: the reader of a function asks the reader of nested functions nothing about the cursors
where fewer than 28 bytes are gone (`Reader.functionWith_congr`).
-/
namespace LuaChunk

namespace Reader

variable {α β : Type}

/-- A reader that succeeds takes a number of bytes or more. -/
def Consumes (least : Nat) (read : Reader α) : Prop :=
  ∀ cursor value stop, read.Yields cursor value stop → stop.remaining + least ≤ cursor.remaining

/-- A reader takes no fewer bytes than a spelling of its value has. -/
theorem Accepts.consumes {read : Reader α} {grammar : α → List UInt8 → Prop}
    (accepts : read.Accepts grammar) {least : Nat}
    (long : ∀ value written, grammar value written → least ≤ written.length) :
    read.Consumes least := by
  intro cursor value stop yields
  obtain ⟨written, spelled, passes⟩ := (accepts.yields_iff _ _ _).mp yields
  have length := long value written spelled
  have total : cursor.remaining = written.length + stop.remaining := by
    rw [Cursor.remaining, passes.unread, List.length_append]
    rfl
  omega

/-- A byte is one byte. -/
theorem byte_consumes : byte.Consumes 1 :=
  byte_accepts.consumes fun _ _ spelled => Nat.le_of_eq (congrArg List.length spelled).symm

/-- The length of a list is four bytes. -/
theorem length_consumes (policy : Policy) (part : Part) : (length policy part).Consumes 4 := by
  apply (length_accepts policy part).consumes
  intro value written spelled
  obtain ⟨_, _, rfl⟩ := spelled
  exact Nat.le_of_eq (LittleEndian.length_encode 4 value).symm

/-- A list takes the four bytes of its length at least. -/
theorem list_consumes {element : Reader α} {grammar : α → List UInt8 → Prop}
    (accepts : element.Accepts grammar) (policy : Policy) (part : Part) :
    (list policy part element).Consumes 4 := by
  apply (list_accepts accepts policy part).consumes
  intro items written spelled
  have length := spelled.1.mul_length_le 0 fun _ _ _ => Nat.zero_le _
  omega

/-- A list of words takes the four bytes of its length at least. -/
theorem wordList_consumes (policy : Policy) (part : Part) :
    (wordList policy part).Consumes 4 := by
  apply (wordList_accepts policy part).consumes
  intro words written spelled
  have length := spelled.1.mul_length_le 0 fun _ _ _ => Nat.zero_le _
  omega

/-- A string takes a byte at least. -/
theorem string_consumes (limit : Nat) : (string limit).Consumes 1 := by
  apply (string_accepts limit).consumes
  intro value written spelled
  have size := spelled.1.size_lt
  omega

/-- A constant takes a byte at least. -/
theorem constant_consumes (policy : Policy) : (constant policy).Consumes 1 := by
  apply (constant_accepts policy).consumes
  intro value written spelled
  have size := spelled.1.stringSize_lt
  omega

/-- An upvalue takes two bytes. -/
theorem upvalue_consumes : upvalue.Consumes 2 := by
  apply upvalue_accepts.consumes
  intro value written spelled
  cases spelled
  exact Nat.le_refl 2

/-- A local variable takes nine bytes at least. -/
theorem localVariable_consumes (policy : Policy) : (localVariable policy).Consumes 9 := by
  apply (localVariable_accepts policy).consumes
  intro value written spelled
  have size := spelled.1.size_le
  omega

/-- The fields of a function in front of its lists take twelve bytes at least. -/
theorem functionHead_consumes (policy : Policy) : (functionHead policy).Consumes 12 := by
  apply (functionHead_accepts policy).consumes
  intro head written spelled
  obtain ⟨name, ⟨nameSpelled, _⟩, rfl⟩ := spelled
  have size := nameSpelled.size_lt
  simp only [List.length_append, encodeWord, LittleEndian.length_encode, List.length_cons,
    List.length_nil]
  omega

/-- A function takes forty bytes at least, however deep it is nested. -/
theorem nestedFunction_consumes (policy : Policy) {levels : Nat}
    (within : levels ≤ policy.maxDepth + 1) (inherited : ByteString) :
    (nestedFunction policy levels inherited).Consumes 40 := by
  have left : levels + (policy.maxDepth + 1 - levels) = policy.maxDepth + 1 := by omega
  apply (nestedFunction_accepts policy levels _ left inherited).consumes
  intro tree written spelled
  obtain ⟨bare, ⟨bareSpelled, _⟩, _⟩ := spelled
  have cost := bareSpelled.cost_le
  rw [Prototype.cost_eq, Prototype.ownCost] at cost
  omega

/-- A reader in blocks does not go back. -/
theorem Sequential.remaining_le {read : Reader α} (sequential : Sequential read)
    (cursor : Cursor) : (read cursor).stop.remaining ≤ cursor.remaining := by
  obtain ⟨written, passes⟩ := sequential.passes cursor
  rw [Cursor.remaining, Cursor.remaining, passes.unread, List.length_append]
  exact Nat.le_add_left _ _

/-- Two sequences with the same first reader do the same if their second readers do the same where
the first one stops. -/
theorem bind_congr_of_yields {read : Reader α} {next other : α → Reader β} {cursor : Cursor}
    (same : ∀ value stop, read.Yields cursor value stop → next value stop = other value stop) :
    (read >>= next) cursor = (read >>= other) cursor := by
  simp only [bind, andThen]
  rcases reading : read cursor with ⟨error | value, stop, records⟩
  · rfl
  · have yields : read.Yields cursor value stop := by
      rw [Yields, reading]
      exact ⟨rfl, rfl⟩
    simp only [same value stop yields]

/-- Several elements are read alike by two readers that do the same wherever no more than some
number of bytes are left. -/
theorem times_congr {first second : Reader α} {available : Nat}
    (forward : ∀ cursor, (second cursor).stop.remaining ≤ cursor.remaining)
    (same : ∀ cursor, cursor.remaining ≤ available → first cursor = second cursor) (count : Nat)
    {cursor : Cursor} (within : cursor.remaining ≤ available) :
    times first count cursor = times second count cursor := by
  induction count generalizing cursor with
  | zero => rfl
  | succ count ih =>
    rw [times_succ, times_succ]
    have head : (first >>= fun value => do return value :: (← times first count)) cursor =
        (second >>= fun value => do return value :: (← times first count)) cursor := by
      simp only [bind, andThen, same cursor within]
    refine head.trans (bind_congr_of_yields fun value stop yields => ?_)
    have back := forward cursor
    rw [yields.2] at back
    have rest := ih (Nat.le_trans back within)
    simp only [bind, andThen, rest]

section Nested

variable {first second : Reader Prototype} {cursor : Cursor}

/-- The lists of a function are read alike with two readers of nested functions that do the same
behind the next sixteen bytes. -/
theorem functionLists_congr (policy : Policy)
    (forward : ∀ inner, (second inner).stop.remaining ≤ inner.remaining)
    (same : ∀ inner, inner.remaining + 16 ≤ cursor.remaining → first inner = second inner) :
    functionLists policy first cursor = functionLists policy second cursor := by
  apply bind_congr_of_yields
  intro code afterCode yieldsCode
  have codeTaken := wordList_consumes policy .code _ _ _ yieldsCode
  apply bind_congr_of_yields
  intro constants afterConstants yieldsConstants
  have constantsTaken := list_consumes (constant_accepts policy) _ _ _ _ _ yieldsConstants
  apply bind_congr_of_yields
  intro upvalues afterUpvalues yieldsUpvalues
  have upvaluesTaken := list_consumes upvalue_accepts _ _ _ _ _ yieldsUpvalues
  have functions : list policy .functions first afterUpvalues =
      list policy .functions second afterUpvalues := by
    apply bind_congr_of_yields
    intro count afterCount yieldsCount
    have countTaken := length_consumes policy .functions _ _ _ yieldsCount
    apply times_congr forward _ count (Nat.le_refl afterCount.remaining)
    intro inner within
    exact same inner (by omega)
  simp only [bind, andThen, functions]

end Nested

/-- A function is read alike with two readers of nested functions that do the same behind the next
28 bytes. -/
theorem functionWith_congr (policy : Policy) {first second : ByteString → Reader Prototype}
    {cursor : Cursor}
    (forward : ∀ name inner, (second name inner).stop.remaining ≤ inner.remaining)
    (same : ∀ name inner, inner.remaining + 28 ≤ cursor.remaining →
      first name inner = second name inner) (inherited : ByteString) :
    functionWith policy first inherited cursor = functionWith policy second inherited cursor := by
  rw [functionWith_eq, functionWith_eq]
  apply bind_congr_of_yields
  intro offset here yieldsOffset
  obtain rfl : cursor = here := yieldsOffset.2
  apply bind_congr_of_yields
  intro head afterHead yieldsHead
  have headTaken := functionHead_consumes policy _ _ _ yieldsHead
  have lists : functionLists policy (first (head.source.orElse inherited)) afterHead =
      functionLists policy (second (head.source.orElse inherited)) afterHead :=
    functionLists_congr policy (forward _) fun inner behind => same _ inner (by omega)
  simp only [bind, andThen, lists]

end Reader

end LuaChunk
