import LuaChunk.Proofs.Nesting

/-!
# What is accepted as a chunk

A chunk is read up to the end of its main function by `Reader.mainFunction`, and what follows
the main function is judged by the policy alone. The first part accepts the wire grammar behind
the standard header and one arbitrary byte. From this follows the main result of the module,
`decode_iff_splitsInto`: reading bytes succeeds exactly on the chunks of the grammar, there is
one way to see bytes as a chunk, and bytes that follow the main function against the policy are
reported with their place and their number.
-/
namespace LuaChunk

namespace Reader

/-- Header fields are accepted with the bytes that are expected. -/
theorem expect_accepts (fields : List (HeaderField × List UInt8)) :
    (expect fields).Accepts fun _ written => written = fields.flatMap Prod.snd := by
  induction fields with
  | nil =>
    refine (accepts_pure ()).congr ?_
    intro value written
    simp
  | cons entry further ih =>
    obtain ⟨field, expected⟩ := entry
    have rest : ∀ (offset : Nat) (found : List UInt8),
        (if found = expected then expect further
          else fail (.headerMismatch field offset)).Accepts
          fun _ back => found = expected ∧ back = further.flatMap Prod.snd := by
      intro offset found
      by_cases same : found = expected
      · rw [if_pos same]
        refine ih.congr ?_
        intro value back
        simp only [same, true_and]
      · rw [if_neg same]
        refine accepts_fail _ ?_
        intro value back spelled
        exact same spelled.1
    refine (accepts_position_bind fun offset =>
      (block_accepts expected.length expected.length).bind (rest offset)).congr ?_
    intro value written
    rw [List.flatMap_cons]
    constructor
    · intro spelled
      obtain ⟨found, _, _, ⟨_, rfl⟩, ⟨rfl, rfl⟩, rfl⟩ := spelled
      rfl
    · intro spelled
      exact ⟨expected, expected, _, ⟨rfl, rfl⟩, ⟨rfl, rfl⟩, spelled⟩

/-- The standard header is accepted and no other. -/
theorem header_accepts :
    header.Accepts fun value written =>
      Header.standard = value ∧ written = Header.standard.bytes := by
  refine ((expect_accepts Header.standard.fields).bind fun _ =>
    accepts_log_bind (accepts_pure Header.standard)).congr ?_
  intro value written
  constructor
  · intro spelled
    obtain ⟨_, front, _, rfl, ⟨same, rfl⟩, rfl⟩ := spelled
    exact ⟨same, List.append_nil _⟩
  · intro spelled
    obtain ⟨same, rfl⟩ := spelled
    exact ⟨(), _, [], rfl, ⟨same, rfl⟩, (List.append_nil _).symm⟩

/-- Read a chunk up to the end of its main function. -/
def mainFunction (policy : Policy) : Reader Prototype := do
  let _ ← header
  let upvalueCount ← byte
  log (.closure upvalueCount)
  function policy .empty

/-- A chunk is read up to the end of its main function, and then what follows is dealt with. -/
theorem chunk_eq (policy : Policy) :
    chunk policy = (do
      let main ← mainFunction policy
      trailing policy
      log (.chunk main.source main.functionCount)
      return main) := by
  simp only [mainFunction, bind_assoc]
  rfl

/-- The beginning of a chunk is accepted with an admitted main function, whose names are filled
in. -/
theorem mainFunction_accepts (policy : Policy) :
    (mainFunction policy).Accepts fun tree front =>
      ∃ (main : Prototype) (upvalueCount : UInt8) (written : List UInt8),
        (main.SpelledBy written ∧ policy.Admits main) ∧ main.inherit .empty = tree ∧
          front = Header.standard.bytes ++ upvalueCount :: written := by
  refine (header_accepts.bind fun _ => byte_accepts.bind fun _ =>
    accepts_log_bind (function_accepts policy .empty)).congr ?_
  intro tree front
  constructor
  · intro spelled
    obtain ⟨_, _, _, ⟨_, rfl⟩, ⟨upvalueCount, _, written, rfl, ⟨main, admitted, resolved⟩, rfl⟩,
      rfl⟩ := spelled
    exact ⟨main, upvalueCount, written, admitted, resolved, rfl⟩
  · intro spelled
    obtain ⟨main, upvalueCount, written, admitted, resolved, rfl⟩ := spelled
    exact ⟨Header.standard, _, _, ⟨rfl, rfl⟩,
      ⟨upvalueCount, _, written, rfl, ⟨main, admitted, resolved⟩, rfl⟩, rfl⟩

/-- The beginning of a chunk is read exactly when the bytes split around an admitted tree. -/
theorem mainFunction_yields_iff (policy : Policy) (bytes : List UInt8) (tree : Prototype)
    (stop : Cursor) :
    (mainFunction policy).Yields (.start bytes) tree stop ↔
      ∃ main written, SplitsInto bytes main written stop.unread ∧ policy.Admits main ∧
        tree = main.inherit .empty ∧ stop.position = 34 + written.length := by
  have length : ∀ (upvalueCount : UInt8) (written : List UInt8),
      (Header.standard.bytes ++ upvalueCount :: written).length = 34 + written.length := by
    intro upvalueCount written
    rw [List.length_append, List.length_cons, Header.length_bytes_standard]
    omega
  rw [(mainFunction_accepts policy).yields_iff]
  constructor
  · intro reads
    obtain ⟨_, ⟨main, upvalueCount, written, ⟨spelled, admitted⟩, rfl, rfl⟩, unread, place⟩ := reads
    have parts : bytes = Header.standard.bytes ++ upvalueCount :: (written ++ stop.unread) := by
      rw [← List.cons_append, ← List.append_assoc]
      exact unread
    rw [length] at place
    exact ⟨main, written, ⟨spelled, upvalueCount, parts⟩, admitted, rfl,
      place.trans (Nat.zero_add _)⟩
  · intro splits
    obtain ⟨main, written, ⟨spelled, upvalueCount, parts⟩, admitted, rfl, place⟩ := splits
    refine ⟨_, ⟨main, upvalueCount, written, ⟨spelled, admitted⟩, rfl, rfl⟩, ?_, ?_⟩
    · show bytes = _
      rw [parts, List.append_assoc, List.cons_append]
    · show stop.position = 0 + _
      rw [length, place, Nat.zero_add]

/-- What the reader of the main function takes are the first bytes, and it reads the same from all
bytes that begin with them. -/
theorem mainFunction_yields_of_take_eq (policy : Policy) {bytes other : List UInt8}
    {tree : Prototype} {stop : Cursor}
    (yields : (mainFunction policy).Yields (.start bytes) tree stop)
    (same : other.take stop.position = bytes.take stop.position) :
    (mainFunction policy).Yields (.start other) tree
      ⟨stop.position, other.drop stop.position⟩ := by
  obtain ⟨front, spelled, unread, place⟩ :=
    ((mainFunction_accepts policy).yields_iff _ _ _).mp yields
  have parts : bytes = front ++ stop.unread := unread
  have here : stop.position = front.length := place.trans (Nat.zero_add _)
  have begins : other.take stop.position = front := by
    rw [same, parts, here, List.take_left]
  refine ((mainFunction_accepts policy).yields_iff _ _ _).mpr ⟨front, spelled, ?_, place⟩
  show other = front ++ other.drop stop.position
  rw [← begins, List.take_append_drop]

/-- Bytes that are left are refused or kept in a record, and none are read. -/
theorem trailing_apply (policy : Policy) (cursor : Cursor) :
    trailing policy cursor =
      if cursor.unread = [] then ⟨.ok (), cursor, []⟩
      else if policy.allowTrailing = true then
        ⟨.ok (), cursor, [.trailing cursor.remaining cursor.position]⟩
      else ⟨.error (.trailingBytes cursor.position cursor.remaining), cursor, []⟩ := by
  have steps : trailing policy cursor =
      (if cursor.remaining = 0 then pure ()
        else if policy.allowTrailing = true then log (.trailing cursor.remaining cursor.position)
        else fail (.trailingBytes cursor.position cursor.remaining) : Reader Unit) cursor := rfl
  have empty : cursor.remaining = 0 ↔ cursor.unread = [] := List.length_eq_zero_iff
  simp only [steps, empty]
  split
  · rfl
  split <;> rfl

/-- Whether bytes that are left are dealt with depends on the policy. -/
theorem trailing_yields_iff (policy : Policy) (cursor : Cursor) (value : Unit) (stop : Cursor) :
    (trailing policy).Yields cursor value stop ↔
      stop = cursor ∧ (cursor.unread = [] ∨ policy.allowTrailing = true) := by
  rw [Yields, trailing_apply]
  by_cases none : cursor.unread = []
  · simp only [none, if_true, true_or, true_and, and_true]
    exact eq_comm
  · by_cases allowed : policy.allowTrailing = true
    · simp only [none, allowed, if_true, if_false, or_true, true_and, and_true]
      exact eq_comm
    · simp [none, allowed]

/-- A chunk is read as its beginning is, if what follows the main function is allowed. -/
theorem chunk_yields_iff (policy : Policy) (cursor : Cursor) (tree : Prototype) (stop : Cursor) :
    (chunk policy).Yields cursor tree stop ↔
      (mainFunction policy).Yields cursor tree stop ∧
        (stop.unread = [] ∨ policy.allowTrailing = true) := by
  have finish : ∀ (main value : Prototype) (middle last : Cursor),
      (do log (.chunk main.source main.functionCount); return main : Reader Prototype).Yields
        middle value last ↔ main = value ∧ middle = last := by
    intro main value middle last
    simp [Yields, bind, andThen, log, pure]
  rw [chunk_eq, yields_bind]
  simp only [yields_bind (trailing policy), trailing_yields_iff, finish]
  constructor
  · intro reads
    obtain ⟨main, middle, yields, _, _, ⟨rfl, allowed⟩, rfl, rfl⟩ := reads
    exact ⟨yields, allowed⟩
  · intro reads
    exact ⟨tree, stop, reads.1, (), stop, ⟨rfl, reads.2⟩, rfl, rfl⟩

/-- Bytes that are left are a failure exactly if the policy does not allow them. -/
theorem trailing_fails_iff (policy : Policy) (cursor : Cursor) (error : DecodeError) :
    (trailing policy cursor).outcome = .error error ↔
      cursor.unread ≠ [] ∧ policy.allowTrailing = false ∧
        error = .trailingBytes cursor.position cursor.remaining := by
  rw [trailing_apply]
  by_cases none : cursor.unread = []
  · simp [none]
  · by_cases allowed : policy.allowTrailing = true
    · simp [none, allowed]
    · simp [none, allowed, eq_comm]

/-- A chunk cannot be read because its beginning cannot, or because bytes follow the main
function against the policy. -/
theorem chunk_fails_iff (policy : Policy) (cursor : Cursor) (error : DecodeError) :
    (chunk policy cursor).outcome = .error error ↔
      (mainFunction policy cursor).outcome = .error error ∨
        ∃ tree stop, (mainFunction policy).Yields cursor tree stop ∧ stop.unread ≠ [] ∧
          policy.allowTrailing = false ∧ error = .trailingBytes stop.position stop.remaining := by
  have finish : ∀ (main : Prototype) (middle : Cursor),
      ((do log (.chunk main.source main.functionCount); return main : Reader Prototype)
        middle).outcome ≠ .error error := by
    intro main middle
    simp [bind, andThen, log, pure]
  rw [chunk_eq, bind_fails_iff]
  simp only [bind_fails_iff (trailing policy), trailing_fails_iff, finish, and_false, exists_false,
    or_false]

end Reader

/-- A chunk is read as a tree exactly if its beginning is and what follows is allowed. -/
theorem decode_eq_ok_iff (policy : Policy) (bytes : List UInt8) (tree : Prototype) :
    decode policy bytes = .ok tree ↔
      ∃ stop, (Reader.mainFunction policy).Yields (.start bytes) tree stop ∧
        (stop.unread = [] ∨ policy.allowTrailing = true) := by
  simp only [← Reader.chunk_yields_iff]
  exact ⟨fun answers => ⟨_, answers, rfl⟩, fun ⟨_, answers, _⟩ => answers⟩

/-- Reading bytes succeeds exactly if they are the standard header, any byte, a spelling of a
tree that the policy admits, and nothing else or bytes that the policy allows; the result is the
tree with its names filled in. The parts are determined by the bytes. If only the bytes after the
tree are not allowed, then the error names their place and their number. -/
theorem decode_iff_splitsInto (policy : Policy) (bytes : List UInt8) :
    (∀ tree, decode policy bytes = .ok tree ↔
      ∃ main written rest, SplitsInto bytes main written rest ∧ policy.Admits main ∧
        tree = main.inherit .empty ∧ (rest = [] ∨ policy.allowTrailing = true)) ∧
    (∀ main written rest other otherWritten otherRest, SplitsInto bytes main written rest →
      SplitsInto bytes other otherWritten otherRest →
        main = other ∧ written = otherWritten ∧ rest = otherRest) ∧
    ∀ main written rest, SplitsInto bytes main written rest → policy.Admits main →
      rest ≠ [] → policy.allowTrailing = false →
        decode policy bytes = .error (.trailingBytes (34 + written.length) rest.length) := by
  refine ⟨?_, ?_, ?_⟩
  · intro tree
    have yields : decode policy bytes = .ok tree ↔
        ∃ stop, (Reader.chunk policy).Yields (.start bytes) tree stop := by
      simp [Reader.Yields, decode, read]
    simp only [yields, Reader.chunk_yields_iff, Reader.mainFunction_yields_iff]
    constructor
    · intro reads
      obtain ⟨stop, ⟨main, written, splits, admitted, resolved, _⟩, allowed⟩ := reads
      exact ⟨main, written, stop.unread, splits, admitted, resolved, allowed⟩
    · intro parts
      obtain ⟨main, written, rest, splits, admitted, resolved, allowed⟩ := parts
      refine ⟨⟨34 + written.length, rest⟩, ?_, allowed⟩
      exact ⟨main, written, splits, admitted, resolved, rfl⟩
  · intro main written rest other otherWritten otherRest splits otherSplits
    obtain ⟨spelled, upvalueCount, parts⟩ := splits
    obtain ⟨otherSpelled, otherCount, otherParts⟩ := otherSplits
    have same := List.append_cancel_left (parts.symm.trans otherParts)
    exact spelled.unique otherSpelled (List.cons.inj same).2
  · intro main written rest splits admitted some strict
    have yields := (Reader.mainFunction_yields_iff policy bytes (main.inherit .empty)
      ⟨34 + written.length, rest⟩).mpr ⟨main, written, splits, admitted, rfl, rfl⟩
    have failed := (Reader.chunk_fails_iff policy (.start bytes) _).mpr
      (.inr ⟨_, _, yields, some, strict, rfl⟩)
    exact failed

/-- A name whose size stands behind the escape and a truth value of seven are read, and a byte
after the main function is reported by a strict policy. -/
theorem decode_iff_splitsInto_escaped :
    let main : Prototype :=
      ⟨⟨[0x61]⟩, 0, 0, 0, 0, 0, [], [.boolean true], [], [], ⟨[], [], []⟩⟩
    let written : List UInt8 :=
      [0xFF, 2, 0, 0, 0, 0, 0, 0, 0, 0x61] ++ List.replicate 15 0 ++ [1, 0, 0, 0, 0x01, 7] ++
        List.replicate 20 0
    let bytes := Header.standard.bytes ++ 1 :: (written ++ [9])
    SplitsInto bytes main written [9] ∧ decode ⟨1, 1, 0, true⟩ bytes = .ok main ∧
      decode ⟨1, 1, 0, false⟩ bytes = .error (.trailingBytes 85 1) := by
  intro main written bytes
  have constants : Counted Constant.SpelledBy main.constants [1, 0, 0, 0, 0x01, 7] :=
    .intro [(Constant.boolean true, [0x01, 7])] (by decide)
      (by simpa using Constant.SpelledBy.boolean 7)
  have size : SizeSpelledBy (main.source.size + 1) [0xFF, 2, 0, 0, 0, 0, 0, 0, 0] := .long 2
  have name : main.source.SpelledBy [0xFF, 2, 0, 0, 0, 0, 0, 0, 0, 0x61] := .present size
  have fields := Prototype.SpelledBy.intro name counted_nil constants counted_nil counted_nil
    counted_nil counted_nil counted_nil
  have spelled : main.SpelledBy written := Eq.mp (congrArg main.SpelledBy (by decide)) fields
  have splits : SplitsInto bytes main written [9] := ⟨spelled, 1, rfl⟩
  have within : main.Within 1 1 := ⟨by decide, by decide⟩
  have admitted : ∀ allowTrailing, Policy.Admits ⟨1, 1, 0, allowTrailing⟩ main := by
    intro allowTrailing
    refine (Policy.admitsFrom_iff _ _ _).mpr ⟨Nat.le_refl 0, within, ?_⟩
    intro nested member
    contradiction
  have accepted := (decode_iff_splitsInto ⟨1, 1, 0, true⟩ bytes).1 main
  have reported := (decode_iff_splitsInto ⟨1, 1, 0, false⟩ bytes).2.2 main written [9]
  refine ⟨splits, ?_, ?_⟩
  · exact accepted.mpr ⟨main, written, [9], splits, admitted true, by decide, .inr rfl⟩
  · exact reported splits (admitted false) (by decide) rfl

end LuaChunk
