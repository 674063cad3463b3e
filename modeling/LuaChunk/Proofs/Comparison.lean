import LuaChunk.Proofs.Acceptance
import LuaChunk.Proofs.Reader.Comparison

/-!
# Reading a chunk under two policies and in two places

Every reader of a part of a chunk compares with itself at any distance, and with the reader under
a looser policy: it answers the same or refuses what only the looser policy allows
(`Policy.Tightens`). The levels left for nesting are compared like the other bounds
(`Reader.nestedFunction_follows`), and so are whole chunks (`Reader.chunk_follows`).
-/
namespace LuaChunk

/-- One policy is as strict as another one or stricter, and refuses with errors of a given kind
where a bound of it is smaller. -/
structure Policy.Tightens (refused : DecodeError → Prop) (strict loose : Policy) : Prop where
  /-- No list may be longer. -/
  maxSequence_le : strict.maxSequence ≤ loose.maxSequence
  /-- No string may be longer. -/
  maxString_le : strict.maxString ≤ loose.maxString
  /-- No function may lie deeper. -/
  maxDepth_le : strict.maxDepth ≤ loose.maxDepth
  /-- Bytes after the main function are allowed alike. -/
  allowTrailing_eq : strict.allowTrailing = loose.allowTrailing
  /-- How longer lists are refused. -/
  refusesList : strict.maxSequence < loose.maxSequence → ∀ (part : Part) declared offset,
    refused (.limitExceeded part.label declared strict.maxSequence offset)
  /-- How longer strings are refused. -/
  refusesString : strict.maxString < loose.maxString → ∀ declared offset,
    refused (.limitExceeded "string" declared strict.maxString offset)
  /-- How deeper functions are refused. -/
  refusesDepth : strict.maxDepth < loose.maxDepth → ∀ offset,
    refused (.nestedTooDeep strict.maxDepth offset)

/-- A policy refuses nothing that it allows itself. -/
theorem Policy.tightens_refl (refused : DecodeError → Prop) (policy : Policy) :
    policy.Tightens refused policy where
  maxSequence_le := Nat.le_refl _
  maxString_le := Nat.le_refl _
  maxDepth_le := Nat.le_refl _
  allowTrailing_eq := rfl
  refusesList := fun less => absurd less (Nat.lt_irrefl _)
  refusesString := fun less => absurd less (Nat.lt_irrefl _)
  refusesDepth := fun less => absurd less (Nat.lt_irrefl _)

namespace Reader

variable {α : Type} {refused : DecodeError → Prop} {distance : Nat} {strict loose : Policy}

section Parts

variable (tightens : strict.Tightens refused loose)

include tightens

/-- Strings compare. -/
theorem string_follows_of_tightens :
    Follows refused distance (string strict.maxString) (string loose.maxString) :=
  string_follows tightens.maxString_le tightens.refusesString

/-- Lengths of lists compare. -/
theorem length_follows (part : Part) :
    Follows refused distance (length strict part) (length loose part) := by
  apply follows_position_bind
  intro place
  apply word_follows.bind_steady
  intro declared
  simp only [← Nat.not_lt, ite_not]
  exact followsFrom_limit part.label declared.toNat tightens.maxSequence_le
    (fun less => tightens.refusesList less part _ _) (followsFrom_pure declared.toNat)

/-- Lists compare if their elements do. -/
theorem list_follows (part : Part) {element elementLoose : Reader α}
    (follows : Follows refused distance element elementLoose) :
    Follows refused distance (list strict part element) (list loose part elementLoose) :=
  (length_follows tightens part).bind fun count => times_follows follows count

/-- Lists of words compare. -/
theorem wordList_follows (part : Part) :
    Follows refused distance (wordList strict part) (wordList loose part) :=
  (length_follows tightens part).bind fun count => words_follows count

/-- What follows a tag compares. -/
theorem payload_follows (tag : Constant.Tag) :
    Follows refused distance (payload strict tag) (payload loose tag) := by
  cases tag with
  | nil => exact fun _ => followsFrom_pure _
  | boolean => exact byte_follows.map _
  | number => exact number_follows.map _
  | shortString => exact (string_follows_of_tightens tightens).map _
  | integer => exact integer_follows.map _
  | longString => exact (string_follows_of_tightens tightens).map _

/-- Constants compare. -/
theorem constant_follows : Follows refused distance (constant strict) (constant loose) := by
  apply follows_position_bind
  intro place
  apply byte_follows.bind_steady
  intro first
  cases Constant.Tag.ofByte? first with
  | none => exact followsFrom_fail (.unknownTag first place) (Nat.le_refl place)
  | some tag =>
    refine ((payload_follows tightens tag).bind fun value => ?_) place
    exact fun _ => (followsFrom_pure value).log_bind

/-- Local variables compare. -/
theorem localVariable_follows :
    Follows refused distance (localVariable strict) (localVariable loose) := by
  apply (string_follows_of_tightens tightens).bind
  intro name
  apply word_follows.bind
  intro start
  exact word_follows.map (LocalVariable.mk name start)

/-- Debug information compares. -/
theorem debugInfo_follows : Follows refused distance (debugInfo strict) (debugInfo loose) := by
  apply (wordList_follows tightens .lines).bind
  intro lines
  apply (list_follows tightens .locals (localVariable_follows tightens)).bind
  intro locals
  exact (list_follows tightens .upvalueNames (string_follows_of_tightens tightens)).map
    (DebugInfo.mk lines locals)

/-- The fields in front of the lists compare. -/
theorem functionHead_follows :
    Follows refused distance (functionHead strict) (functionHead loose) := by
  apply (string_follows_of_tightens tightens).bind
  intro source
  apply word_follows.bind
  intro lineDefined
  apply word_follows.bind
  intro lastLineDefined
  apply byte_follows.bind
  intro parameterCount
  apply byte_follows.bind
  intro varargFlag
  exact byte_follows.map
    (FunctionHead.mk source lineDefined lastLineDefined parameterCount varargFlag)

/-- The lists of a function compare if the functions nested in it do. -/
theorem functionLists_follows {nested nestedLoose : Reader Prototype}
    (follows : Follows refused distance nested nestedLoose) :
    Follows refused distance (functionLists strict nested) (functionLists loose nestedLoose) := by
  have upvalues : Follows refused distance upvalue upvalue :=
    byte_follows.bind fun flag => byte_follows.map (Upvalue.mk flag)
  apply (wordList_follows tightens .code).bind
  intro code
  apply (list_follows tightens .constants (constant_follows tightens)).bind
  intro constants
  apply (list_follows tightens .upvalues upvalues).bind
  intro upvalues
  apply (list_follows tightens .functions follows).bind
  intro functions
  exact (debugInfo_follows tightens).map (FunctionLists.mk code constants upvalues functions)

/-- A function compares if the functions nested in it do. -/
theorem functionWith_follows {nested nestedLoose : ByteString → Reader Prototype}
    (follows : ∀ name, Follows refused distance (nested name) (nestedLoose name))
    (inherited : ByteString) :
    Follows refused distance (functionWith strict nested inherited)
      (functionWith loose nestedLoose inherited) := by
  rw [functionWith_eq, functionWith_eq]
  apply follows_position_bind
  intro place
  refine ((functionHead_follows tightens).bind fun head => ?_) place
  apply (functionLists_follows tightens (follows _)).bind
  intro lists
  exact fun _ => (followsFrom_pure _).log_bind

end Parts

/-- A function compares with itself, however many levels are left. -/
theorem nestedFunction_follows_self (refused : DecodeError → Prop) (distance : Nat)
    (policy : Policy) (levels : Nat) (inherited : ByteString) :
    Follows refused distance (nestedFunction policy levels inherited)
      (nestedFunction policy levels inherited) := by
  induction levels generalizing inherited with
  | zero =>
    apply follows_position_bind
    intro place
    exact followsFrom_fail (.nestedTooDeep policy.maxDepth place) (Nat.le_refl place)
  | succ levels ih => exact functionWith_follows (policy.tightens_refl refused) ih inherited

/-- A function compares where the loose policy leaves as many levels more as its greatest depth is
larger. -/
theorem nestedFunction_follows (tightens : strict.Tightens refused loose) (more : Nat)
    (depths : strict.maxDepth + more = loose.maxDepth) (levels : Nat) (inherited : ByteString) :
    Follows refused distance (nestedFunction strict levels inherited)
      (nestedFunction loose (levels + more) inherited) := by
  induction levels generalizing inherited with
  | zero =>
    by_cases equal : more = 0
    · rw [equal, Nat.add_zero] at depths ⊢
      apply follows_position_bind
      intro place
      rw [depths]
      exact followsFrom_fail (.nestedTooDeep loose.maxDepth place) (Nat.le_refl place)
    · have less : strict.maxDepth < loose.maxDepth := by omega
      intro place cursor further
      -- The strict reader gives up at once, the loose one reads on from the same place.
      have onward := (nestedFunction_follows_self refused distance loose (0 + more) inherited
        cursor.position cursor (Nat.le_refl _)).onward
      exact .refusal (.nestedTooDeep strict.maxDepth cursor.position)
        (tightens.refusesDepth less _) rfl further onward
  | succ levels ih =>
    rw [Nat.succ_add]
    exact functionWith_follows tightens ih inherited

/-- A function compares with everything nested in it. -/
theorem function_follows (tightens : strict.Tightens refused loose) (inherited : ByteString) :
    Follows refused distance (function strict inherited) (function loose inherited) := by
  have depths : strict.maxDepth + (loose.maxDepth - strict.maxDepth) = loose.maxDepth :=
    Nat.add_sub_cancel' tightens.maxDepth_le
  apply functionWith_follows tightens
  intro name
  have follows : Follows refused distance (nestedFunction strict strict.maxDepth name) _ :=
    nestedFunction_follows tightens _ depths strict.maxDepth name
  rwa [depths] at follows

/-- What follows the main function is dealt with alike. -/
theorem trailing_follows (tightens : strict.Tightens refused loose) :
    Follows refused distance (trailing strict) (trailing loose) := by
  apply follows_position_bind
  intro place
  apply followsFrom_remaining_bind
  intro count
  have same : (operations strict).allowTrailing = (operations loose).allowTrailing :=
    tightens.allowTrailing_eq
  rw [same]
  split
  · exact followsFrom_pure ()
  split
  · exact (followsFrom_pure ()).log_bind
  · exact followsFrom_fail (.trailingBytes place count) (Nat.le_refl place)

/-- Header fields are read in the same way everywhere. -/
theorem expect_follows (fields : List (HeaderField × List UInt8)) :
    Follows refused distance (expect fields) (expect fields) := by
  induction fields with
  | nil => exact fun _ => followsFrom_pure ()
  | cons entry further ih =>
    apply follows_position_bind
    intro place
    apply (block_follows entry.2.length entry.2.length).bind_steady
    intro found
    split
    · exact ih place
    · exact followsFrom_fail (.headerMismatch entry.1 place) (Nat.le_refl place)

/-- The header is read in the same way everywhere. -/
theorem header_follows : Follows refused distance header header :=
  (expect_follows Header.standard.fields).bind fun _ _ =>
    (followsFrom_pure Header.standard).log_bind

/-- Chunks compare. -/
theorem chunk_follows (tightens : strict.Tightens refused loose) :
    Follows refused distance (chunk strict) (chunk loose) := by
  apply header_follows.bind
  intro _
  apply byte_follows.bind
  intro upvalueCount place
  apply FollowsFrom.log_bind
  refine ((function_follows tightens .empty).bind fun main => ?_) place
  apply (trailing_follows tightens).bind
  intro _ place
  exact (followsFrom_pure main).log_bind

end Reader

end LuaChunk
