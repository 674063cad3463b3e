import LuaChunk.Proofs.DepthCounter
import LuaChunk.Proofs.Paths
import LuaChunk.Proofs.Progress
import LuaChunk.Proofs.Reader.Records

/-!
# What the inherited name influences

The reader of functions is told a name to fill in. It does what the reader does that fills in none,
and then it changes the names in what it answers (`Reader.nestedFunction_readsAs`). So where it
stops, whether it fails and with which error is the same for all names, and the trees for two names
differ in those functions alone that take their names from outside (`inherited_name_fills`).
-/
namespace LuaChunk

namespace Reader

variable {α β γ δ : Type}

/-- A reader does what another one does and changes what it answers. -/
def ReadsAs (change : α → β) (plain : Reader α) (read : Reader β) : Prop :=
  ∀ cursor, (read cursor).outcome = (plain cursor).outcome.map change ∧
    (read cursor).stop = (plain cursor).stop

section Rules

variable {change : α → β} {plain : Reader α} {read : Reader β}

/-- Reading nothing, the answers may be changed. -/
theorem readsAs_pure {value : α} {result : β} (same : change value = result) :
    ReadsAs change (pure value) (pure result) :=
  fun _ => ⟨congrArg Except.ok same.symm, rfl⟩

/-- A reader does what it does. -/
theorem readsAs_refl (read : Reader α) : ReadsAs id read read := by
  intro cursor
  refine ⟨?_, rfl⟩
  cases (read cursor).outcome <;> rfl

/-- Readers in sequence do what others do if the later ones do so behind the values that are
changed. -/
theorem ReadsAs.bind {later : γ → δ} {plainNext : α → Reader γ} {next : β → Reader δ}
    (head : ReadsAs change plain read)
    (tail : ∀ value, ReadsAs later (plainNext value) (next (change value))) :
    ReadsAs later (plain >>= plainNext) (read >>= next) := by
  intro cursor
  obtain ⟨outcome, stop⟩ := head cursor
  cases answer : (plain cursor).outcome with
  | error error =>
    rw [answer] at outcome
    rw [bind_eq_of_error answer, bind_eq_of_error outcome]
    exact ⟨rfl, stop⟩
  | ok value =>
    rw [answer] at outcome
    rw [bind_eq_of_ok answer, bind_eq_of_ok outcome, stop]
    exact tail value _

/-- Several elements are read as others are. -/
theorem ReadsAs.times (same : ReadsAs change plain read) (count : Nat) :
    ReadsAs (List.map change) (times plain count) (times read count) := by
  induction count with
  | zero => exact readsAs_pure rfl
  | succ count ih =>
    rw [times_succ, times_succ]
    exact same.bind fun first => ih.bind fun further => readsAs_pure rfl

/-- The place does not matter to a reader that does not ask for it. -/
theorem readsAs_position_bind {next : Nat → Reader β}
    (every : ∀ place, ReadsAs change plain (next place)) :
    ReadsAs change plain (position >>= next) := fun cursor => every cursor.position cursor

/-- A record is not part of the answer. -/
theorem readsAs_log_bind {record : Record} {next : Reader β} (same : ReadsAs change plain next) :
    ReadsAs change plain (log record >>= fun _ => next) := same

end Rules

section Nested

variable {change : Prototype → Prototype} {plain nested : Reader Prototype}

/-- The lists of a function are read as with other nested functions, which are then changed. -/
theorem functionLists_readsAs (policy : Policy) (same : ReadsAs change plain nested) :
    ReadsAs (fun lists => { lists with functions := lists.functions.map change })
      (functionLists policy plain) (functionLists policy nested) := by
  refine (readsAs_refl _).bind fun code => ?_
  refine (readsAs_refl _).bind fun constants => ?_
  refine (readsAs_refl _).bind fun upvalues => ?_
  refine ((readsAs_refl (length policy .functions)).bind fun count => same.times count).bind
    fun functions => ?_
  refine (readsAs_refl _).bind fun debug => ?_
  exact readsAs_pure rfl

/-- A nested function is read as it stands on the wire, and then the names are filled in. -/
theorem nestedFunction_readsAs (policy : Policy) (levels : Nat) (inherited : ByteString) :
    ReadsAs (Prototype.inherit inherited) (bareFunction policy levels)
      (nestedFunction policy levels inherited) := by
  induction levels generalizing inherited with
  | zero => exact fun _ => ⟨rfl, rfl⟩
  | succ levels ih =>
    rw [nestedFunction, functionWith_eq, bareFunction]
    refine readsAs_position_bind fun offset => ?_
    refine (readsAs_refl _).bind fun head => ?_
    refine (functionLists_readsAs policy (ih (head.source.orElse inherited))).bind fun lists => ?_
    refine readsAs_log_bind (readsAs_pure ?_)
    rw [Prototype.inherit_eq]
    rfl

end Nested

/-- The name of a function as it stands on the wire is the string that it begins with. -/
theorem functionHead_yields_source {policy : Policy} {head : FunctionHead} {cursor stop : Cursor}
    (yields : (functionHead policy).Yields cursor head stop) :
    ∃ middle, (string policy.maxString).Yields cursor head.source middle := by
  obtain ⟨source, middle, first, rest⟩ := (yields_bind _ _ _ _ _).mp yields
  obtain ⟨lineDefined, _, _, rest⟩ := (yields_bind _ _ _ _ _).mp rest
  obtain ⟨lastLineDefined, _, _, rest⟩ := (yields_bind _ _ _ _ _).mp rest
  obtain ⟨parameterCount, _, _, rest⟩ := (yields_bind _ _ _ _ _).mp rest
  obtain ⟨varargFlag, _, _, rest⟩ := (yields_bind _ _ _ _ _).mp rest
  obtain ⟨stackSize, _, _, rest⟩ := (yields_bind _ _ _ _ _).mp rest
  obtain rfl := Except.ok.inj rest.1
  exact ⟨middle, first⟩

/-- A function as it stands on the wire has the name that it begins with. -/
theorem bareFunction_source {policy : Policy} {levels : Nat} {tree : Prototype}
    {cursor stop : Cursor} (yields : (bareFunction policy (levels + 1)).Yields cursor tree stop)
    {own : ByteString} {middle : Cursor}
    (begins : (string policy.maxString).Yields cursor own middle) : tree.source = own := by
  obtain ⟨head, _, yieldsHead, rest⟩ := (yields_bind _ _ _ _ _).mp yields
  obtain ⟨lists, _, _, answers, _⟩ := (yields_bind _ _ _ _ _).mp rest
  obtain rfl := Except.ok.inj answers
  obtain ⟨_, yieldsSource⟩ := functionHead_yields_source yieldsHead
  exact Except.ok.inj (yieldsSource.1.symm.trans begins.1)

/-- A function with a name on the wire is read in the same way whatever name it inherits. -/
theorem functionWith_of_named (policy : Policy) (nested : ByteString → Reader Prototype)
    {own : ByteString} {cursor middle : Cursor}
    (begins : (string policy.maxString).Yields cursor own middle) (named : own ≠ .empty)
    (left right : ByteString) :
    functionWith policy nested left cursor = functionWith policy nested right cursor := by
  apply bind_congr_of_yields
  intro offset first yieldsOffset
  obtain rfl : cursor = first := yieldsOffset.2
  apply bind_congr_of_yields
  intro source last yieldsSource
  obtain rfl : own = source := Except.ok.inj (begins.1.symm.trans yieldsSource.1)
  simp only [ByteString.orElse_of_ne_empty named]

end Reader

namespace Prototype

/-- A path without names leads to a function. -/
theorem Nameless.exists_follow? {path : List Nat} {tree : Prototype}
    (unnamed : Nameless path tree) : ∃ inner, tree.follow? path = some inner := by
  induction path generalizing tree with
  | nil => exact ⟨tree, rfl⟩
  | cons index path ih =>
    obtain ⟨_, inner, chosen, further⟩ := unnamed
    rw [follow?_cons, chosen]
    exact ih further

/-- What a path without names begins with is a path without names. -/
theorem Nameless.front {front back : List Nat} {tree : Prototype}
    (unnamed : Nameless (front ++ back) tree) : Nameless front tree := by
  induction front generalizing tree with
  | nil =>
    cases back with
    | nil => exact unnamed
    | cons index back => exact unnamed.1
  | cons index front ih =>
    obtain ⟨bare, inner, chosen, further⟩ := unnamed
    exact ⟨bare, inner, chosen, ih further⟩

/-- Functions of a tree, and with each of them all functions that it is nested in. -/
structure ClosedAbove (member : List Nat → Prop) (tree : Prototype) : Prop where
  /-- The paths lead to functions of the tree. -/
  reaches : ∀ path, member path → (tree.follow? path).isSome
  /-- The function around one of them is one of them. -/
  around : ∀ path index, member (path ++ [index]) → member path
  /-- If there are any then the root is one of them. -/
  root : ∀ path, member path → member []

/-- The functions that take their names from outside are closed above. -/
theorem nameless_closedAbove (tree : Prototype) (inherited : ByteString) :
    ClosedAbove (Nameless · tree) (tree.inherit inherited) where
  reaches := by
    intro path unnamed
    obtain ⟨inner, reaches⟩ := unnamed.exists_follow?
    have same := congrArg Option.isSome (follow?_inherit_alone tree inherited path)
    rw [Option.isSome_map, Option.isSome_map, reaches] at same
    exact same
  around := fun path index unnamed => unnamed.front
  root := fun path unnamed => @Nameless.front [] path tree unnamed

end Prototype

/-- A reader of functions that is told one name or another to fill in stops at the same place and
leaves its counter the same. It fails with the same error for both names or for neither. If it
answers, then the trees differ in names alone: some functions, among them the root and with each
other one the function around it, or none, have the one name here and the other there, and all
others are the same and have names. There are none if the root has a name on the wire, and then
there is no difference at all. -/
theorem inherited_name_fills (policy : Policy) (beyond : ByteString → Counting Prototype)
    (depth spare : Nat) (cursor : Cursor) (left right : ByteString) :
    let calls := policy.maxDepth - depth + 1 + spare
    let one := Counting.function policy beyond calls left depth cursor
    let other := Counting.function policy beyond calls right depth cursor
    one.1.stop = other.1.stop ∧ one.2 = other.2 ∧
    (∀ error, one.1.outcome = .error error ↔ other.1.outcome = .error error) ∧
    (∀ first, one.1.outcome = .ok first → ∃ (second : Prototype) (unnamed : List Nat → Prop),
      other.1.outcome = .ok second ∧ Prototype.Renames unnamed left right first second ∧
        Prototype.ClosedAbove unnamed first ∧
        ∀ own stop, (Reader.string policy.maxString).Yields cursor own stop →
          (own = .empty → unnamed []) ∧ (own ≠ .empty → ∀ path, ¬unnamed path)) ∧
    ∀ own stop, (Reader.string policy.maxString).Yields cursor own stop → own ≠ .empty →
      one = other := by
  intro calls one other
  have oneReads : one = (Reader.functionAt policy depth left cursor, depth) :=
    Counting.function_eq policy beyond depth spare left cursor
  have otherReads : other = (Reader.functionAt policy depth right cursor, depth) :=
    Counting.function_eq policy beyond depth spare right cursor
  -- Both runs are compared with one that is told no name.
  let levels := policy.maxDepth - depth
  obtain ⟨outcome, stop⟩ := Reader.nestedFunction_readsAs policy (levels + 1) left cursor
  obtain ⟨outcomeOther, stopOther⟩ := Reader.nestedFunction_readsAs policy (levels + 1) right cursor
  rw [oneReads, otherReads]
  refine ⟨stop.trans stopOther.symm, rfl, ?_, ?_, ?_⟩
  · intro error
    show (Reader.nestedFunction policy (levels + 1) left cursor).outcome = _ ↔
      (Reader.nestedFunction policy (levels + 1) right cursor).outcome = _
    rw [outcome, outcomeOther]
    cases (Reader.bareFunction policy (levels + 1) cursor).outcome with
    | error earlier => exact Iff.rfl
    | ok bare => exact iff_of_false nofun nofun
  · intro first answers
    cases answer : (Reader.bareFunction policy (levels + 1) cursor).outcome with
    | error error =>
      rw [answer] at outcome
      exact absurd (answers.symm.trans outcome) nofun
    | ok bare =>
      rw [answer] at outcome outcomeOther
      obtain rfl : first = bare.inherit left := Except.ok.inj (answers.symm.trans outcome)
      refine ⟨_, (Prototype.Nameless · bare), outcomeOther, bare.inherit_renames left right,
        bare.nameless_closedAbove left, ?_⟩
      intro own behind begins
      have source : bare.source = own := Reader.bareFunction_source ⟨answer, rfl⟩ begins
      refine ⟨fun none => source.trans none, fun named path unnamed => named ?_⟩
      have root : bare.source = .empty := @Prototype.Nameless.front [] path bare unnamed
      exact source.symm.trans root
  · intro own behind begins named
    have same : Reader.functionAt policy depth left cursor =
        Reader.functionAt policy depth right cursor :=
      Reader.functionWith_of_named policy _ begins named left right
    rw [same]

/-- A function without a name, with one nested in it that has a name, takes the name that it is told
and the nested one keeps its own. -/
theorem inherited_name_fills_root :
    let bytes : List UInt8 := List.replicate 24 0 ++ [1, 0, 0, 0] ++
      (2 :: 0x61 :: List.replicate 39 0) ++ List.replicate 12 0
    let policy : Policy := ⟨1, 1, 3, true⟩
    let inner : Prototype := ⟨⟨[0x61]⟩, 0, 0, 0, 0, 0, [], [], [], [], ⟨[], [], []⟩⟩
    ∃ second, (Counting.function policy (fun _ => pure default) (policy.maxDepth - 2 + 1 + 0)
        ⟨[0x71]⟩ 2 (.start bytes)).1.outcome = .ok second ∧
      second.source = ⟨[0x71]⟩ ∧ second.follow? [0] = some inner := by
  intro bytes policy inner
  let first : Prototype := ⟨⟨[0x70]⟩, 0, 0, 0, 0, 0, [], [], [], [inner], ⟨[], [], []⟩⟩
  have answers : (Counting.function policy (fun _ => pure default) (policy.maxDepth - 2 + 1 + 0)
      ⟨[0x70]⟩ 2 (.start bytes)).1.outcome = .ok first := by
    rw [Counting.function_eq]
    decide +kernel
  have begins : (Reader.string policy.maxString).Yields (.start bytes) .empty
      ⟨1, bytes.drop 1⟩ := ⟨rfl, rfl⟩
  -- What is to be read is forgotten here, so that it is not read once more.
  clear_value bytes policy
  obtain ⟨_, _, _, fills, _⟩ := inherited_name_fills policy (fun _ => pure default) 2 0
    (.start bytes) ⟨[0x70]⟩ ⟨[0x71]⟩
  obtain ⟨second, unnamed, answersOther, renames, _, names⟩ := fills first answers
  have root : unnamed [] := (names _ _ begins).1 rfl
  have same : (second.follow? [0]).map Prototype.alone = some inner.alone :=
    (renames.alone_eq [0]).symm
  obtain ⟨other, reaches, _⟩ := Option.map_eq_some_iff.mp same
  have named : ¬unnamed [0] := by
    intro member
    have source := (renames.source_eq [0] member inner other rfl reaches).1
    exact absurd source (by decide)
  refine ⟨second, answersOther, (renames.source_eq [] root first second rfl rfl).2, ?_⟩
  rw [(renames.eq_of_named [0] named inner other rfl reaches).1]
  exact reaches

end LuaChunk
