import LuaChunk.Proofs.Faults
import LuaChunk.Proofs.Progress

/-!
# Nesting ends where the bytes end

A function that is nested in another one begins 28 bytes behind it or more. So reading functions is
a recursion on the number of unread bytes, and it would end without a bound on the depth:
`Reader.functionByUnread` is defined by that recursion, counts the depth only to compare it with
the bound, and is the reader of functions (`Reader.functionByUnread_eq`). A bound on the depth that
the bytes are too few to reach changes nothing, and where the bound is reached the bytes in front
have paid for it.
-/
namespace LuaChunk

/-- A function that is nested too deep is reported with the bound of the policy and the place where
the reader stops. -/
theorem Fault.eq_of_tooDeep {policy : Policy} {bytes : List UInt8} {limit offset stop : Nat}
    (fault : Fault policy bytes (.nestedTooDeep limit offset) stop) :
    limit = policy.maxDepth ∧ stop = offset := by
  cases fault
  exact ⟨rfl, rfl⟩

namespace Reader

/-- The reader of functions does not go back. -/
theorem nestedFunction_remaining_le (policy : Policy) (levels : Nat) (inherited : ByteString)
    (cursor : Cursor) :
    (nestedFunction policy levels inherited cursor).stop.remaining ≤ cursor.remaining :=
  (nestedFunction_sequential policy levels inherited).remaining_le cursor

/-- Read a function at a depth, by recursion on the number of unread bytes. What would happen if a
nested function began within the first 28 bytes of the function is left open. -/
def functionByUnread (policy : Policy) (beyond : Nat → ByteString → Reader Prototype) (depth : Nat)
    (inherited : ByteString) (cursor : Cursor) : Reading Prototype :=
  functionWith policy
    (fun name inner =>
      if policy.maxDepth ≤ depth then
        ⟨.error (.nestedTooDeep policy.maxDepth inner.position), inner, []⟩
      else if inner.remaining + 28 ≤ cursor.remaining then
        functionByUnread policy beyond (depth + 1) name inner
      else beyond (depth + 1) name inner)
    inherited cursor
termination_by cursor.remaining
decreasing_by omega

/-- The recursion on the unread bytes is the recursion on the levels that are left. -/
theorem functionByUnread_eq (policy : Policy) (beyond : Nat → ByteString → Reader Prototype)
    (depth : Nat) (inherited : ByteString) (cursor : Cursor) :
    functionByUnread policy beyond depth inherited cursor =
      functionWith policy (nestedFunction policy (policy.maxDepth - depth)) inherited cursor := by
  induction unread : cursor.remaining using Nat.strongRecOn generalizing depth inherited cursor with
  | ind unread ih =>
    rw [functionByUnread]
    apply functionWith_congr policy (nestedFunction_remaining_le policy _)
    intro name inner further
    by_cases deepest : policy.maxDepth ≤ depth
    · rw [if_pos deepest, Nat.sub_eq_zero_of_le deepest]
      rfl
    · have levels : policy.maxDepth - depth = policy.maxDepth - (depth + 1) + 1 := by omega
      rw [if_neg deepest, if_pos further, levels]
      exact ih inner.remaining (by omega) (depth + 1) name inner rfl

/-- Where the bytes end before the levels do, more levels and another bound change nothing. -/
theorem nestedFunction_congr_of_lt (policy : Policy) (maxDepth : Nat) {levels more : Nat}
    (le : levels ≤ more) (inherited : ByteString) {cursor : Cursor}
    (short : cursor.remaining < 28 * levels) :
    nestedFunction { policy with maxDepth } more inherited cursor =
      nestedFunction policy levels inherited cursor := by
  induction levels generalizing more inherited cursor with
  | zero => exact absurd short (Nat.not_lt_zero _)
  | succ levels ih =>
    cases more with
    | zero => exact absurd le (Nat.not_succ_le_zero levels)
    | succ more =>
      apply functionWith_congr policy (nestedFunction_remaining_le policy _)
      intro name inner further
      exact ih (Nat.le_of_succ_le_succ le) name (by omega)

/-- The header takes 33 bytes. -/
theorem header_consumes : header.Consumes 33 := by
  apply header_accepts.consumes
  intro value written spelled
  rw [spelled.2, Header.length_bytes_standard]

/-- If the main function is too short for the levels that the policy allows, then a policy that
allows more levels changes nothing. -/
theorem mainFunction_congr_of_lt (policy : Policy) {maxDepth : Nat}
    (le : policy.maxDepth ≤ maxDepth) {bytes : List UInt8}
    (short : bytes.length < 34 + 28 * (policy.maxDepth + 1)) :
    mainFunction { policy with maxDepth } (.start bytes) =
      mainFunction policy (.start bytes) := by
  apply bind_congr_of_yields
  intro value afterHeader yieldsHeader
  have headerTaken := header_consumes _ _ _ yieldsHeader
  apply bind_congr_of_yields
  intro upvalueCount afterByte yieldsByte
  have byteTaken := byte_consumes _ _ _ yieldsByte
  apply bind_congr_of_yields
  intro _ here yieldsLog
  obtain rfl : afterByte = here := yieldsLog.2
  have total : (Cursor.start bytes).remaining = bytes.length := rfl
  exact nestedFunction_congr_of_lt policy maxDepth (Nat.succ_le_succ le) .empty (by omega)

/-- If the beginning of a chunk fails because a function is nested too deep, then the error names
the bound of the policy and the place where the reader stops. -/
theorem mainFunction_tooDeep {policy : Policy} {bytes : List UInt8} {limit offset : Nat}
    (failed : (mainFunction policy (.start bytes)).outcome = .error (.nestedTooDeep limit offset)) :
    limit = policy.maxDepth ∧ (mainFunction policy (.start bytes)).stop.position = offset ∧
      offset ≤ bytes.length := by
  have failsBy := mainFunction_failsBy policy bytes
  obtain ⟨last, _, inside, stops⟩ := failsBy.stays
  have place : (mainFunction policy (.start bytes)).stop.position = last :=
    congrArg Cursor.position stops
  have found : limit = policy.maxDepth ∧
      (mainFunction policy (.start bytes)).stop.position = offset := by
    rcases failsBy.faults _ failed with fault | fault
    · contradiction
    · exact fault.eq_of_tooDeep
  omega

/-- A function that is nested too deep is not reported before every level that is allowed has taken
its 28 bytes. -/
theorem mainFunction_tooDeep_le {policy : Policy} {bytes : List UInt8} {limit offset : Nat}
    (failed : (mainFunction policy (.start bytes)).outcome = .error (.nestedTooDeep limit offset)) :
    34 + 28 * (limit + 1) ≤ offset := by
  obtain ⟨bound, stops, within⟩ := mainFunction_tooDeep failed
  let front := bytes.take offset
  have length : front.length = offset := List.length_take_of_le within
  have whole : (Cursor.start front).extend (bytes.drop offset) = .start bytes :=
    congrArg (Cursor.mk 0) (List.take_append_drop offset bytes)
  -- The bytes up to the reported place are enough for the same error.
  have failedFront :
      (mainFunction policy (.start front)).outcome = .error (.nestedTooDeep limit offset) := by
    have grows := (mainFunction_sequential policy).grows (.start front) (bytes.drop offset)
    obtain ⟨written, passes⟩ := (mainFunction_sequential policy).passes (.start front)
    have total : (mainFunction policy (.start front)).stop.position +
        (mainFunction policy (.start front)).stop.remaining = front.length :=
      passes.total.trans (Nat.zero_add front.length)
    rw [whole] at grows
    generalize mainFunction policy (.start front) = reading at grows total
    generalize mainFunction policy (.start bytes) = later at grows failed stops
    cases grows with
    | same outcome stop records settled => exact failed
    | short needed stop records short => exact absurd failed nofun
    | further needed stop records later missing enough reached kept =>
      have here : stop.position + stop.remaining = front.length := total
      omega
  -- With one more level the same bytes would be read alike, but the error would name that bound.
  by_contra short
  have few : front.length < 34 + 28 * (policy.maxDepth + 1) := by omega
  have more := mainFunction_congr_of_lt policy (Nat.le_succ policy.maxDepth) few
  rw [← more] at failedFront
  have otherBound := (mainFunction_tooDeep failedFront).1
  have moreBound : limit = policy.maxDepth + 1 := otherBound
  omega

end Reader

/-- Only what a policy says about the depth changes. -/
theorem read_congr_of_lt (policy : Policy) {maxDepth : Nat} (le : policy.maxDepth ≤ maxDepth)
    {bytes : List UInt8} (short : bytes.length < 34 + 28 * (policy.maxDepth + 1)) :
    read { policy with maxDepth } bytes = read policy bytes := by
  have main := Reader.mainFunction_congr_of_lt policy le short
  simp only [read, Reader.chunk_eq, bind, Reader.andThen, main]
  rfl

/-- Functions are read by recursion on the number of unread bytes, because a nested function begins
28 bytes behind the function around it or more, and elements of all lists take bytes. So a
function that is nested too deep is reported only behind the bytes that the levels above it have
taken, and bounds on the depth that the bytes are too few to reach all give the same. -/
theorem read_descends (policy : Policy) (bytes : List UInt8) :
    (∀ beyond depth inherited cursor,
      Reader.functionByUnread policy beyond depth inherited cursor =
        Reader.functionWith policy (Reader.nestedFunction policy (policy.maxDepth - depth))
          inherited cursor) ∧
    ((Reader.constant policy).Consumes 1 ∧ Reader.upvalue.Consumes 2 ∧
      (∀ levels ≤ policy.maxDepth + 1, ∀ inherited,
        (Reader.nestedFunction policy levels inherited).Consumes 40) ∧
      (Reader.localVariable policy).Consumes 9 ∧ (Reader.string policy.maxString).Consumes 1) ∧
    (∀ limit offset, decode policy bytes = .error (.nestedTooDeep limit offset) →
      34 + 28 * (limit + 1) ≤ offset) ∧
    ∀ maxDepth, bytes.length / 28 ≤ policy.maxDepth → bytes.length / 28 ≤ maxDepth →
      read { policy with maxDepth } bytes = read policy bytes := by
  refine ⟨Reader.functionByUnread_eq policy, ⟨Reader.constant_consumes policy,
    Reader.upvalue_consumes, fun _ => Reader.nestedFunction_consumes policy,
    Reader.localVariable_consumes policy, Reader.string_consumes policy.maxString⟩, ?_, ?_⟩
  · intro limit offset failed
    rcases (Reader.chunk_fails_iff policy (.start bytes) _).mp failed with failed | failed
    · exact Reader.mainFunction_tooDeep_le failed
    · obtain ⟨_, _, _, _, _, other⟩ := failed
      contradiction
  · intro maxDepth enough enoughOther
    rcases Nat.le_total policy.maxDepth maxDepth with le | le
    · exact read_congr_of_lt policy le (by omega)
    · have lower : bytes.length < 34 + 28 * (maxDepth + 1) := by omega
      exact (read_congr_of_lt { policy with maxDepth } le lower).symm

/-- Below one level a third function is refused as early as it can be, behind 90 bytes, and from
three levels on the bound does not matter to these bytes. -/
theorem read_descends_nested :
    let opening : List UInt8 := List.replicate 24 0 ++ [1, 0, 0, 0]
    let bytes := Header.standard.bytes ++ 0 :: (opening ++ opening)
    decode ⟨1, 1, 1, true⟩ bytes = .error (.nestedTooDeep 1 90) ∧ 34 + 28 * (1 + 1) ≤ 90 ∧
      read ⟨1, 1, 4, true⟩ bytes = read ⟨1, 1, 3, true⟩ bytes := by
  intro opening bytes
  have refused : decode ⟨1, 1, 1, true⟩ bytes = .error (.nestedTooDeep 1 90) := by
    decide +kernel
  have behind := (read_descends ⟨1, 1, 1, true⟩ bytes).2.2.1 1 90 refused
  have same := (read_descends ⟨1, 1, 3, true⟩ bytes).2.2.2 4 (by decide) (by decide)
  exact ⟨refused, behind, same⟩

end LuaChunk
