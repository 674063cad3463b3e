import LuaChunk.Proofs.Grammar
import LuaChunk.Proofs.Reader.Acceptance
import LuaChunk.Wire.Chunk

/-!
# Readers of the parts of a function

Each reader of a part of a function accepts the grammar of the part, cut down to what the policy
admits: sizes, strings, lists, constants, upvalues, local variables and debug information.
-/
namespace LuaChunk

/-- What may follow each tag. -/
theorem Constant.spelledBy_tag_iff (tag : Tag) (constant : Constant) (back : List UInt8) :
    constant.SpelledBy (tag.byte :: back) ↔
      match tag with
      | .nil => constant = .nil ∧ back = []
      | .boolean => ∃ value : UInt8, constant = .boolean (value != 0) ∧ back = [value]
      | .number => ∃ value : Binary64, constant = .number value ∧
          back = LittleEndian.encode 8 value.bits.toNat
      | .shortString => ∃ value : ByteString, constant = .string value ∧ value.SpelledBy back
      | .integer => ∃ value : Int64, constant = .integer value ∧
          back = LittleEndian.encode 8 value.toUInt64.toNat
      | .longString => ∃ value : ByteString, constant = .string value ∧ value.SpelledBy back := by
  constructor
  · intro spelled
    generalize written : tag.byte :: back = bytes at spelled
    cases spelled <;> cases tag <;> simp_all [Tag.byte]
  · intro follows
    cases tag with
    | nil =>
      obtain ⟨rfl, rfl⟩ := follows
      exact .nil
    | boolean =>
      obtain ⟨value, rfl, rfl⟩ := follows
      exact .boolean value
    | number =>
      obtain ⟨value, rfl, rfl⟩ := follows
      exact .number value
    | shortString =>
      obtain ⟨value, rfl, spelled⟩ := follows
      exact .shortString spelled
    | integer =>
      obtain ⟨value, rfl, rfl⟩ := follows
      exact .integer value
    | longString =>
      obtain ⟨value, rfl, spelled⟩ := follows
      exact .longString spelled

/-- Every constant begins with one of the tags. -/
theorem Constant.SpelledBy.tagged {constant : Constant} {written : List UInt8}
    (spelled : constant.SpelledBy written) :
    ∃ (tag : Tag) (back : List UInt8), written = tag.byte :: back := by
  cases spelled with
  | nil => exact ⟨.nil, _, rfl⟩
  | boolean => exact ⟨.boolean, _, rfl⟩
  | number => exact ⟨.number, _, rfl⟩
  | shortString => exact ⟨.shortString, _, rfl⟩
  | integer => exact ⟨.integer, _, rfl⟩
  | longString => exact ⟨.longString, _, rfl⟩

/-- The ways to write debug information whose lists and strings a policy admits. -/
def DebugInfo.SpelledWithin (policy : Policy) (debug : DebugInfo) (written : List UInt8) : Prop :=
  ∃ lines locals upvalueNames : List UInt8,
    (Counted WordSpelledBy debug.lines lines ∧ debug.lines.length ≤ policy.maxSequence) ∧
    (Counted LocalVariable.SpelledBy debug.locals locals ∧
      debug.locals.length ≤ policy.maxSequence ∧
      ∀ named ∈ debug.locals, named.name.size ≤ policy.maxString) ∧
    (Counted ByteString.SpelledBy debug.upvalueNames upvalueNames ∧
      debug.upvalueNames.length ≤ policy.maxSequence ∧
      ∀ name ∈ debug.upvalueNames, name.size ≤ policy.maxString) ∧
    written = lines ++ (locals ++ upvalueNames)

namespace Reader

variable {α : Type}

/-- The size in front of a string is accepted in both spellings. -/
theorem stringSize_accepts : stringSize.Accepts SizeSpelledBy := by
  have rest : ∀ first : UInt8,
      (if first = sizeEscape then do return (← longWord).toNat else return first.toNat).Accepts
        fun size back => SizeSpelledBy size (first :: back) := by
    intro first
    by_cases escaped : first = sizeEscape
    · rw [if_pos escaped]
      refine (longWord_accepts.map UInt64.toNat).congr ?_
      intro size back
      constructor
      · intro spelled
        obtain ⟨word, rfl, rfl⟩ := spelled
        rw [escaped]
        exact .long word
      · intro spelled
        cases spelled with
        | short _ direct => exact absurd escaped direct
        | long word => exact ⟨word, rfl, rfl⟩
    · rw [if_neg escaped]
      refine (accepts_pure first.toNat).congr ?_
      intro size back
      constructor
      · intro spelled
        obtain ⟨rfl, rfl⟩ := spelled
        exact .short first escaped
      · intro spelled
        cases spelled with
        | short => exact ⟨rfl, rfl⟩
        | long => exact absurd rfl escaped
  refine (byte_accepts.bind rest).congr ?_
  intro size written
  constructor
  · intro spelled
    obtain ⟨first, _, back, rfl, spelled, rfl⟩ := spelled
    exact spelled
  · intro spelled
    cases spelled with
    | short first direct => exact ⟨first, _, [], rfl, .short first direct, rfl⟩
    | long word => exact ⟨0xFF, _, _, rfl, .long word, rfl⟩

/-- Strings within the limit are accepted. -/
theorem string_accepts (limit : Nat) :
    (string limit).Accepts fun value written =>
      value.SpelledBy written ∧ value.size ≤ limit := by
  have rest : ∀ offset size : Nat,
      (if size = 0 then pure ByteString.empty
        else if limit < size - 1 then fail (.limitExceeded "string" (size - 1) limit offset)
        else do return ByteString.mk (← bytes (size - 1))).Accepts
        fun value back => (size = 0 ∧ value = .empty ∧ back = []) ∨
          (size = value.size + 1 ∧ value.size ≤ limit ∧ back = value.bytes) := by
    intro offset size
    by_cases none : size = 0
    · rw [if_pos none]
      refine (accepts_pure _).congr ?_
      intro value back
      simp [none, eq_comm]
    rw [if_neg none]
    by_cases above : limit < size - 1
    · rw [if_pos above]
      refine accepts_fail _ ?_
      intro value back spelled
      rcases spelled with ⟨empty, _⟩ | ⟨rfl, within, _⟩
      · exact none empty
      · omega
    · rw [if_neg above]
      refine ((block_accepts _ _).map ByteString.mk).congr ?_
      intro value back
      constructor
      · intro spelled
        obtain ⟨taken, ⟨length, rfl⟩, rfl⟩ := spelled
        have counted : ByteString.size ⟨back⟩ = size - 1 := length
        exact .inr ⟨by omega, by omega, rfl⟩
      · intro spelled
        rcases spelled with ⟨empty, _⟩ | ⟨rfl, _, rfl⟩
        · exact absurd empty none
        · rw [Nat.add_sub_cancel]
          exact ⟨value.bytes, ⟨rfl, rfl⟩, rfl⟩
  refine (accepts_position_bind fun offset => stringSize_accepts.bind (rest offset)).congr ?_
  intro value written
  constructor
  · intro spelled
    obtain ⟨size, front, _, spelled, ⟨rfl, rfl, rfl⟩ | ⟨rfl, within, rfl⟩, rfl⟩ := spelled
    · rw [List.append_nil]
      exact ⟨.absent spelled, Nat.zero_le limit⟩
    · exact ⟨.present spelled, within⟩
  · intro spelled
    obtain ⟨spelled, within⟩ := spelled
    cases spelled with
    | absent spelled =>
      exact ⟨0, written, [], spelled, .inl ⟨rfl, rfl, rfl⟩, (List.append_nil written).symm⟩
    | present spelled => exact ⟨_, _, _, spelled, .inr ⟨rfl, within, rfl⟩, rfl⟩

/-- The length of a list within the bound is accepted. -/
theorem length_accepts (policy : Policy) (part : Part) :
    (length policy part).Accepts fun value written =>
      value < Nat.pow 2 32 ∧ value ≤ policy.maxSequence ∧
        written = LittleEndian.encode 4 value := by
  have rest : ∀ (offset : Nat) (declared : UInt32),
      (if declared.toNat ≤ policy.maxSequence then pure declared.toNat
        else fail (.limitExceeded part.label declared.toNat policy.maxSequence offset)).Accepts
        fun value back => declared.toNat = value ∧ value ≤ policy.maxSequence ∧ back = [] := by
    intro offset declared
    by_cases within : declared.toNat ≤ policy.maxSequence
    · rw [if_pos within]
      refine (accepts_pure _).congr ?_
      intro value back
      constructor
      · intro spelled
        obtain ⟨rfl, rfl⟩ := spelled
        exact ⟨rfl, within, rfl⟩
      · intro spelled
        obtain ⟨rfl, _, rfl⟩ := spelled
        exact ⟨rfl, rfl⟩
    · rw [if_neg within]
      refine accepts_fail _ ?_
      intro value back spelled
      obtain ⟨rfl, allowed, _⟩ := spelled
      exact within allowed
  refine (accepts_position_bind fun offset => word_accepts.bind (rest offset)).congr ?_
  intro value written
  constructor
  · intro spelled
    obtain ⟨declared, _, _, rfl, ⟨rfl, within, rfl⟩, rfl⟩ := spelled
    exact ⟨declared.toNat_lt, within, List.append_nil _⟩
  · intro spelled
    obtain ⟨fits, within, rfl⟩ := spelled
    have exact : (UInt32.ofNat value).toNat = value := UInt32.toNat_ofNat_of_lt' fits
    exact ⟨UInt32.ofNat value, _, [], rfl, ⟨exact, within, rfl⟩, by rw [exact, List.append_nil]⟩

/-- Lists within the bound are accepted. -/
theorem list_accepts {element : Reader α} {grammar : α → List UInt8 → Prop}
    (accepts : element.Accepts grammar) (policy : Policy) (part : Part) :
    (list policy part element).Accepts fun items written =>
      Counted grammar items written ∧ items.length ≤ policy.maxSequence := by
  refine ((length_accepts policy part).bind (times_accepts accepts)).congr ?_
  intro items written
  rw [counted_iff]
  constructor
  · intro spelled
    obtain ⟨_, _, _, ⟨fits, within, rfl⟩, ⟨entries, rfl, spelled, rfl, rfl⟩, rfl⟩ := spelled
    rw [List.length_map]
    exact ⟨⟨fits, entries, spelled, rfl, rfl⟩, within⟩
  · intro spelled
    obtain ⟨⟨fits, entries, spelled, rfl, rfl⟩, within⟩ := spelled
    rw [List.length_map] at fits within ⊢
    exact ⟨_, _, _, ⟨fits, within, rfl⟩, ⟨entries, rfl, spelled, rfl, rfl⟩, rfl⟩

/-- Lists of elements with a property are accepted, if the elements with it are. -/
theorem list_accepts_and {element : Reader α} {grammar : α → List UInt8 → Prop} {holds : α → Prop}
    (accepts : element.Accepts fun item written => grammar item written ∧ holds item)
    (policy : Policy) (part : Part) :
    (list policy part element).Accepts fun items written =>
      Counted grammar items written ∧ items.length ≤ policy.maxSequence ∧
        ∀ item ∈ items, holds item := by
  refine (list_accepts accepts policy part).congr ?_
  intro items written
  rw [counted_and, and_assoc, and_comm (b := items.length ≤ policy.maxSequence)]

/-- Words read in one block are spelled one after the other. -/
theorem words_accepts (count : Nat) :
    (words count).Accepts fun values written =>
      values.length = count ∧ written = values.flatMap encodeWord := by
  refine ((block_accepts _ _).map LittleEndian.words).congr ?_
  intro values written
  constructor
  · intro spelled
    obtain ⟨_, ⟨full, rfl⟩, rfl⟩ := spelled
    obtain ⟨length, spelled⟩ := LittleEndian.flatMap_encode_words count written full
    exact ⟨length, spelled.symm⟩
  · intro spelled
    obtain ⟨rfl, rfl⟩ := spelled
    refine ⟨_, ⟨?_, rfl⟩, LittleEndian.words_flatMap_encode values⟩
    simp [List.length_flatMap, encodeWord, List.map_const', Nat.mul_comm]

/-- Lists of words within the bound are accepted. -/
theorem wordList_accepts (policy : Policy) (part : Part) :
    (wordList policy part).Accepts fun values written =>
      Counted WordSpelledBy values written ∧ values.length ≤ policy.maxSequence := by
  refine ((length_accepts policy part).bind words_accepts).congr ?_
  intro values written
  rw [counted_iff_encodeList encodeWord wordSpelledBy_iff]
  constructor
  · intro spelled
    obtain ⟨_, _, _, ⟨fits, within, rfl⟩, ⟨rfl, rfl⟩, rfl⟩ := spelled
    exact ⟨⟨fits, rfl⟩, within⟩
  · intro spelled
    obtain ⟨⟨fits, rfl⟩, within⟩ := spelled
    exact ⟨values.length, _, _, ⟨fits, within, rfl⟩, ⟨rfl, rfl⟩, rfl⟩

/-- A constant made of a value that is no string is accepted as the value is. -/
theorem accepts_constant_of_plain {read : Reader α} {grammar : α → List UInt8 → Prop}
    (accepts : read.Accepts grammar) (limit : Nat) (make : α → Constant)
    (plain : ∀ value, (make value).string? = none) :
    (read >>= fun value => pure (make value)).Accepts fun constant back =>
      (∃ value, constant = make value ∧ grammar value back) ∧
        ∀ string, constant.string? = some string → string.size ≤ limit := by
  refine (accepts.map make).congr ?_
  intro constant back
  constructor
  · intro spelled
    obtain ⟨value, spelledValue, rfl⟩ := spelled
    refine ⟨⟨value, rfl, spelledValue⟩, ?_⟩
    intro string found
    rw [plain value] at found
    contradiction
  · intro spelled
    obtain ⟨⟨value, rfl, spelledValue⟩, _⟩ := spelled
    exact ⟨value, spelledValue, rfl⟩

/-- A constant made of a string is accepted as the string is. -/
theorem accepts_constant_of_string (limit : Nat) :
    (do return Constant.string (← string limit)).Accepts fun constant back =>
      (∃ value : ByteString, constant = Constant.string value ∧ value.SpelledBy back) ∧
        ∀ string, constant.string? = some string → string.size ≤ limit := by
  refine ((string_accepts limit).map Constant.string).congr ?_
  intro constant back
  constructor
  · intro spelled
    obtain ⟨value, ⟨spelledValue, within⟩, rfl⟩ := spelled
    refine ⟨⟨value, rfl, spelledValue⟩, ?_⟩
    intro string found
    have same : value = string := Option.some.inj found
    rw [← same]
    exact within
  · intro spelled
    obtain ⟨⟨value, rfl, spelledValue⟩, within⟩ := spelled
    exact ⟨value, ⟨spelledValue, within value rfl⟩, rfl⟩

/-- What follows a tag is accepted if the string in it, if any, is within the limit. -/
theorem payload_accepts (policy : Policy) (tag : Constant.Tag) :
    (payload policy tag).Accepts fun value back =>
      value.SpelledBy (tag.byte :: back) ∧
        ∀ string, value.string? = some string → string.size ≤ policy.maxString := by
  simp only [Constant.spelledBy_tag_iff]
  cases tag with
  | nil =>
    refine (accepts_pure Constant.nil).congr ?_
    intro value back
    constructor
    · intro spelled
      obtain ⟨rfl, rfl⟩ := spelled
      exact ⟨⟨rfl, rfl⟩, nofun⟩
    · intro spelled
      obtain ⟨⟨rfl, rfl⟩, _⟩ := spelled
      exact ⟨rfl, rfl⟩
  | boolean => exact accepts_constant_of_plain byte_accepts _ _ fun _ => rfl
  | number => exact accepts_constant_of_plain number_accepts _ _ fun _ => rfl
  | shortString => exact accepts_constant_of_string policy.maxString
  | integer => exact accepts_constant_of_plain integer_accepts _ _ fun _ => rfl
  | longString => exact accepts_constant_of_string policy.maxString

/-- Constants are accepted if the string in them, if any, is within the limit. -/
theorem constant_accepts (policy : Policy) :
    (constant policy).Accepts fun value written =>
      value.SpelledBy written ∧
        ∀ string, value.string? = some string → string.size ≤ policy.maxString := by
  have accepts : (constant policy).Accepts fun value written =>
      ∃ (first : UInt8) (front back : List UInt8), front = [first] ∧
        (value.SpelledBy (first :: back) ∧
          ∀ string, value.string? = some string → string.size ≤ policy.maxString) ∧
        written = front ++ back := by
    unfold constant
    apply accepts_position_bind
    intro offset
    apply byte_accepts.bind
    intro first
    cases found : Constant.Tag.ofByte? first with
    | none =>
      refine accepts_fail _ ?_
      intro value back spelled
      obtain ⟨tag, _, written⟩ := spelled.1.tagged
      rw [(List.cons.inj written).1, Constant.Tag.ofByte?_byte] at found
      contradiction
    | some tag =>
      have follows := payload_accepts policy tag
      rw [Constant.Tag.byte_of_ofByte? found] at follows
      refine (follows.bind fun value => accepts_log_bind (accepts_pure value)).congr ?_
      intro value back
      constructor
      · intro spelled
        obtain ⟨_, _, _, spelled, ⟨rfl, rfl⟩, rfl⟩ := spelled
        rwa [List.append_nil]
      · intro spelled
        exact ⟨value, back, [], spelled, ⟨rfl, rfl⟩, (List.append_nil back).symm⟩
  refine accepts.congr ?_
  intro value written
  constructor
  · intro spelled
    obtain ⟨first, _, back, rfl, spelled, rfl⟩ := spelled
    exact spelled
  · intro spelled
    obtain ⟨spelled, within⟩ := spelled
    obtain ⟨tag, back, rfl⟩ := spelled.tagged
    exact ⟨tag.byte, [tag.byte], back, rfl, ⟨spelled, within⟩, rfl⟩

/-- Upvalues are accepted. -/
theorem upvalue_accepts : upvalue.Accepts Upvalue.SpelledBy := by
  refine (byte_accepts.bind fun flag => byte_accepts.map (Upvalue.mk flag)).congr ?_
  intro value written
  constructor
  · intro spelled
    obtain ⟨flag, _, _, rfl, ⟨index, rfl, rfl⟩, rfl⟩ := spelled
    exact .intro
  · intro spelled
    obtain ⟨⟩ := spelled
    exact ⟨_, _, _, rfl, ⟨_, rfl, rfl⟩, rfl⟩

/-- Local variables with a name within the limit are accepted. -/
theorem localVariable_accepts (policy : Policy) :
    (localVariable policy).Accepts fun value written =>
      value.SpelledBy written ∧ value.name.size ≤ policy.maxString := by
  refine ((string_accepts policy.maxString).bind fun name => word_accepts.bind fun start =>
    word_accepts.map (LocalVariable.mk name start)).congr ?_
  intro value written
  constructor
  · intro spelled
    obtain ⟨name, _, _, ⟨spelled, within⟩, afterName, rfl⟩ := spelled
    obtain ⟨start, _, _, rfl, ⟨stop, rfl, rfl⟩, rfl⟩ := afterName
    refine ⟨?_, within⟩
    rw [← List.append_assoc]
    exact .intro spelled
  · intro spelled
    obtain ⟨⟨spelled⟩, within⟩ := spelled
    exact ⟨_, _, _, ⟨spelled, within⟩, ⟨_, _, _, rfl, ⟨_, rfl, rfl⟩, rfl⟩,
      List.append_assoc _ _ _⟩

/-- Debug information within bounds is accepted list by list. -/
theorem debugInfo_accepts (policy : Policy) :
    (debugInfo policy).Accepts fun debug written => debug.SpelledWithin policy written := by
  refine ((wordList_accepts policy .lines).bind fun lines =>
    (list_accepts_and (localVariable_accepts policy) policy .locals).bind fun locals =>
      (list_accepts_and (string_accepts policy.maxString) policy .upvalueNames).map
        (DebugInfo.mk lines locals)).congr ?_
  intro debug written
  constructor
  · intro spelled
    obtain ⟨lines, lineBytes, _, linesSpelled, afterLines, rfl⟩ := spelled
    obtain ⟨locals, localBytes, nameBytes, localsSpelled, afterLocals, rfl⟩ := afterLines
    obtain ⟨names, namesSpelled, rfl⟩ := afterLocals
    exact ⟨lineBytes, localBytes, nameBytes, linesSpelled, localsSpelled, namesSpelled, rfl⟩
  · intro spelled
    obtain ⟨lineBytes, localBytes, nameBytes, linesSpelled, localsSpelled, namesSpelled, rfl⟩ :=
      spelled
    exact ⟨debug.lines, lineBytes, _, linesSpelled, ⟨debug.locals, localBytes, nameBytes,
      localsSpelled, ⟨debug.upvalueNames, namesSpelled, rfl⟩, rfl⟩, rfl⟩

end Reader

end LuaChunk
