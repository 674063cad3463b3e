import LuaChunk.Proofs.Acceptance
import LuaChunk.Proofs.Reader.Sequence

/-!
# Reading a chunk as a sequence

Every reader of a part of a chunk is a sequence of blocks, and so is the reader of a chunk up to
the end of its main function. Only the bytes behind the main function are not read in this way:
they are counted and left where they are.
-/
namespace LuaChunk

namespace Reader

variable {α : Type}

/-- The length of a list is read in one block. -/
theorem length_sequential (policy : Policy) (part : Part) : Sequential (length policy part) := by
  apply sequential_position_bind
  intro offset
  apply word_sequential.bind
  intro declared _
  split
  · exact .pure _
  · exact .fail _ nofun

/-- A list of sequences is a sequence. -/
theorem list_sequential (policy : Policy) (part : Part) {element : Reader α}
    (sequential : Sequential element) : Sequential (list policy part element) :=
  (length_sequential policy part).bind fun count _ => times_sequential sequential count

/-- A list of words is read in two blocks. -/
theorem wordList_sequential (policy : Policy) (part : Part) :
    Sequential (wordList policy part) := by
  apply (length_sequential policy part).bind
  intro count returns
  obtain ⟨_, fits, _⟩ := (length_accepts policy part).of_returns returns
  exact words_sequential count fits

/-- What follows a tag is read in blocks. -/
theorem payload_sequential (policy : Policy) (tag : Constant.Tag) :
    Sequential (payload policy tag) := by
  cases tag with
  | nil => exact .pure _
  | boolean => exact byte_sequential.map _
  | number => exact number_sequential.map _
  | shortString => exact (string_sequential policy.maxString).map _
  | integer => exact integer_sequential.map _
  | longString => exact (string_sequential policy.maxString).map _

/-- A constant is read in blocks. -/
theorem constant_sequential (policy : Policy) : Sequential (constant policy) := by
  apply sequential_position_bind
  intro offset
  apply byte_sequential.bind
  intro first _
  cases Constant.Tag.ofByte? first with
  | none => exact .fail _ nofun
  | some tag =>
    apply (payload_sequential policy tag).bind
    intro value _
    exact sequential_log_bind (.pure value)

/-- An upvalue is read in two blocks. -/
theorem upvalue_sequential : Sequential upvalue :=
  byte_sequential.bind fun flag _ => byte_sequential.map (Upvalue.mk flag)

/-- A local variable is read in blocks. -/
theorem localVariable_sequential (policy : Policy) : Sequential (localVariable policy) := by
  apply (string_sequential policy.maxString).bind
  intro name _
  apply word_sequential.bind
  intro start _
  exact word_sequential.map (LocalVariable.mk name start)

/-- Debug information is read in blocks. -/
theorem debugInfo_sequential (policy : Policy) : Sequential (debugInfo policy) := by
  apply (wordList_sequential policy .lines).bind
  intro lines _
  apply (list_sequential policy .locals (localVariable_sequential policy)).bind
  intro locals _
  exact (list_sequential policy .upvalueNames (string_sequential policy.maxString)).map
    (DebugInfo.mk lines locals)

/-- The fields in front of the lists are read in blocks. -/
theorem functionHead_sequential (policy : Policy) : Sequential (functionHead policy) := by
  apply (string_sequential policy.maxString).bind
  intro source _
  apply word_sequential.bind
  intro lineDefined _
  apply word_sequential.bind
  intro lastLineDefined _
  apply byte_sequential.bind
  intro parameterCount _
  apply byte_sequential.bind
  intro varargFlag _
  exact byte_sequential.map
    (FunctionHead.mk source lineDefined lastLineDefined parameterCount varargFlag)

/-- The lists of a function are read in blocks if the functions nested in it are. -/
theorem functionLists_sequential (policy : Policy) {nested : Reader Prototype}
    (sequential : Sequential nested) : Sequential (functionLists policy nested) := by
  apply (wordList_sequential policy .code).bind
  intro code _
  apply (list_sequential policy .constants (constant_sequential policy)).bind
  intro constants _
  apply (list_sequential policy .upvalues upvalue_sequential).bind
  intro upvalues _
  apply (list_sequential policy .functions sequential).bind
  intro functions _
  exact (debugInfo_sequential policy).map (FunctionLists.mk code constants upvalues functions)

/-- A function is read in blocks if the functions nested in it are. -/
theorem functionWith_sequential (policy : Policy) {nested : ByteString → Reader Prototype}
    (sequential : ∀ name, Sequential (nested name)) (inherited : ByteString) :
    Sequential (functionWith policy nested inherited) := by
  rw [functionWith_eq]
  apply sequential_position_bind
  intro offset
  apply (functionHead_sequential policy).bind
  intro head _
  apply (functionLists_sequential policy (sequential _)).bind
  intro lists _
  exact sequential_log_bind (.pure _)

/-- A function is read in blocks with everything nested in it, however many levels are left. -/
theorem nestedFunction_sequential (policy : Policy) (levels : Nat) (inherited : ByteString) :
    Sequential (nestedFunction policy levels inherited) := by
  induction levels generalizing inherited with
  | zero => exact sequential_position_bind fun offset => .fail _ nofun
  | succ levels ih => exact functionWith_sequential policy ih inherited

/-- The fields of the header are read in blocks. -/
theorem expect_sequential (fields : List (HeaderField × List UInt8)) :
    Sequential (expect fields) := by
  induction fields with
  | nil => exact .pure ()
  | cons entry further ih =>
    apply sequential_position_bind
    intro offset
    apply (Sequential.block entry.2.length).bind
    intro found _
    split
    · exact ih
    · exact .fail _ nofun

/-- The header is read in blocks. -/
theorem header_sequential : Sequential header :=
  (expect_sequential Header.standard.fields).bind fun _ _ =>
    sequential_log_bind (.pure Header.standard)

/-- A chunk is read in blocks up to the end of its main function. -/
theorem mainFunction_sequential (policy : Policy) : Sequential (mainFunction policy) := by
  apply header_sequential.bind
  intro _ _
  apply byte_sequential.bind
  intro upvalueCount _
  exact sequential_log_bind (nestedFunction_sequential policy (policy.maxDepth + 1) .empty)

end Reader

end LuaChunk
