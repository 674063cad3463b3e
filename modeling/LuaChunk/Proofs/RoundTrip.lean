import LuaChunk.Proofs.Acceptance

/-!
# Reading back what is written

The writer spells every tree of functions whose sizes the wire format can express: it picks one
spelling of the grammar for each value. What is accepted as a chunk is therefore known for
written chunks too, and `decode_encodeChunk` says that reading gives back what was written, with
the names filled in that were left out, whatever follows the chunk.
-/
namespace LuaChunk

/-- A string is spelled by its encoding, in one byte and its bytes up to a size of 253 bytes and
behind the escape above. -/
theorem ByteString.encode_spelledBy (string : ByteString)
    (fits : string.size ≤ Nat.pow 2 64 - 2) : string.SpelledBy string.encode := by
  unfold encode
  by_cases small : string.size + 1 < 0xFF
  · rw [if_pos small]
    have exact : (UInt8.ofNat (string.size + 1)).toNat = string.size + 1 := by
      rw [UInt8.toNat_ofNat']
      omega
    have direct : UInt8.ofNat (string.size + 1) ≠ 0xFF := by
      intro escape
      have same := congrArg UInt8.toNat escape
      have escapeSize : UInt8.toNat 0xFF = 0xFF := rfl
      rw [exact, escapeSize] at same
      omega
    have size := SizeSpelledBy.short (UInt8.ofNat (string.size + 1)) direct
    rw [exact] at size
    exact .present size
  · rw [if_neg small]
    have exact : (UInt64.ofNat (string.size + 1)).toNat = string.size + 1 := by
      apply UInt64.toNat_ofNat_of_lt'
      have bound : Nat.pow 2 64 = UInt64.size := rfl
      have large : 2 ≤ UInt64.size := by decide
      omega
    have size := SizeSpelledBy.long (UInt64.ofNat (string.size + 1))
    rw [exact] at size
    exact .present size

/-- A constant is spelled by its encoding. -/
theorem WireConstant.encode_spelledBy (constant : WireConstant)
    (fits : ∀ string, constant.value.string? = some string → string.size ≤ Nat.pow 2 64 - 2) :
    constant.value.SpelledBy constant.encode := by
  cases constant with
  | nil => exact .nil
  | boolean value =>
    cases value with
    | false => exact .boolean 0
    | true => exact .boolean 1
  | integer value => exact .integer value
  | number value => exact .number value
  | shortString value => exact .shortString (value.encode_spelledBy (fits value rfl))
  | longString value => exact .longString (value.encode_spelledBy (fits value rfl))

/-- A list whose elements are spelled by their encodings is spelled by its encoding. -/
theorem encodeList_counted {α β : Type} {element : β → List UInt8 → Prop} (view : α → β)
    (encode : α → List UInt8) (items : List α) (fits : items.length ≤ Nat.pow 2 32 - 1)
    (spelled : ∀ item ∈ items, element (view item) (encode item)) :
    Counted element (items.map view) (encodeList encode items) := by
  have positive : 0 < Nat.pow 2 32 := Nat.two_pow_pos 32
  rw [counted_iff, List.length_map]
  refine ⟨by omega, items.map fun item => (view item, encode item), ?_, ?_, ?_⟩
  · intro entry member
    obtain ⟨item, found, rfl⟩ := List.mem_map.mp member
    exact spelled item found
  · rw [List.map_map]
    rfl
  · rw [encodeList, List.flatMap_map]

/-- A list of values that are spelled by their encodings is spelled by its encoding. -/
theorem encodeList_counted_self {α : Type} {element : α → List UInt8 → Prop}
    (encode : α → List UInt8) (items : List α) (fits : items.length ≤ Nat.pow 2 32 - 1)
    (spelled : ∀ item ∈ items, element item (encode item)) :
    Counted element items (encodeList encode items) := by
  have counted := encodeList_counted id encode items fits spelled
  rwa [List.map_id] at counted

namespace WireFunction

mutual

/-- The function with the name that stands on the wire, the empty one if it is left out. -/
def bare : WireFunction → Prototype
  | ⟨source, lineDefined, lastLineDefined, parameterCount, varargFlag, stackSize, code, constants,
      upvalues, functions, debug⟩ =>
    ⟨source.getD .empty, lineDefined, lastLineDefined, parameterCount, varargFlag, stackSize, code,
      constants.map WireConstant.value, upvalues, bareAll functions, debug⟩

/-- The functions with the names that stand on the wire. -/
def bareAll : List WireFunction → List Prototype
  | [] => []
  | first :: further => first.bare :: bareAll further

end

mutual

/-- A property that passes from the functions nested in a function to the function itself holds
of every function. -/
theorem nestedInduction {holds : WireFunction → Prop}
    (step : ∀ function, (∀ inner ∈ function.functions, holds inner) → holds function) :
    ∀ function, holds function
  | ⟨_, _, _, _, _, _, _, _, _, functions, _⟩ => step _ (nestedInductionAll step functions)

/-- Such a property holds of every function in a list. -/
theorem nestedInductionAll {holds : WireFunction → Prop}
    (step : ∀ function, (∀ inner ∈ function.functions, holds inner) → holds function) :
    ∀ functions : List WireFunction, ∀ inner ∈ functions, holds inner
  | [] => nofun
  | first :: further =>
    List.forall_mem_cons.mpr ⟨nestedInduction step first, nestedInductionAll step further⟩

end

/-- Functions are taken with the names on the wire one by one. -/
theorem bareAll_eq_map (functions : List WireFunction) :
    bareAll functions = functions.map bare := by
  induction functions with
  | nil => rw [bareAll, List.map_nil]
  | cons first further ih => rw [bareAll, List.map_cons, ih]

/-- Functions are encoded one by one. -/
theorem encodeAll_eq_flatMap (functions : List WireFunction) :
    encodeAll functions = functions.flatMap encode := by
  induction functions with
  | nil => rw [encodeAll, List.flatMap_nil]
  | cons first further ih => rw [encodeAll, List.flatMap_cons, ih]

/-- Functions are resolved one by one. -/
theorem resolveAll_eq_map (inherited : ByteString) (functions : List WireFunction) :
    resolveAll inherited functions = functions.map (resolve inherited) := by
  induction functions with
  | nil => rw [resolveAll, List.map_nil]
  | cons first further ih => rw [resolveAll, List.map_cons, ih]

/-- A function is resolved by filling in names in the function as it stands on the wire. -/
theorem resolve_eq (function : WireFunction) (inherited : ByteString) :
    function.resolve inherited = function.bare.inherit inherited := by
  induction function using nestedInduction generalizing inherited with
  | step function ih =>
    obtain ⟨source, lineDefined, lastLineDefined, parameterCount, varargFlag, stackSize, code,
      constants, upvalues, functions, debug⟩ := function
    have below : resolveAll ((source.getD .empty).orElse inherited) functions =
        (bareAll functions).map
          (Prototype.inherit ((source.getD .empty).orElse inherited)) := by
      rw [resolveAll_eq_map, bareAll_eq_map, List.map_map]
      exact List.map_congr_left fun inner member => ih inner member _
    rw [Prototype.inherit_eq, resolve, bare]
    simp only [below]

/-- The name is spelled by its encoding, which is the size zero if it is left out. -/
theorem encodeSource_spelledBy (source : Option ByteString)
    (fits : (source.getD .empty).size ≤ Nat.pow 2 64 - 2) :
    (source.getD .empty).SpelledBy (encodeSource source) := by
  cases source with
  | none => exact .absent (.short 0 (by decide))
  | some name => exact name.encode_spelledBy fits

/-- A function is spelled by its encoding if the wire format can express the sizes in it and in
the functions nested in it. -/
theorem encode_spelledBy (function : WireFunction) (depth : Nat)
    (fits : ∀ entry ∈ function.bare.preorder depth,
      entry.2.Within (Nat.pow 2 32 - 1) (Nat.pow 2 64 - 2)) :
    function.bare.SpelledBy function.encode := by
  induction function using nestedInduction generalizing depth with
  | step function ih =>
    obtain ⟨source, lineDefined, lastLineDefined, parameterCount, varargFlag, stackSize, code,
      constants, upvalues, functions, ⟨lines, locals, upvalueNames⟩⟩ := function
    rw [Prototype.preorder_eq, Prototype.preorderAll_eq_flatMap, List.forall_mem_cons] at fits
    obtain ⟨fitsHere, fitsBelow⟩ := fits
    rw [Prototype.within_iff] at fitsHere
    rw [bare, bareAll_eq_map] at fitsHere fitsBelow ⊢
    simp only [List.length_map] at fitsHere
    obtain ⟨⟨codeFits, constantsFit, upvaluesFit, functionsFit, linesFit, localsFit, namesFit⟩,
      nameFits, textsFit, localNamesFit, upvalueNamesFit⟩ := fitsHere
    have nested : Counted Prototype.SpelledBy (functions.map bare)
        (LittleEndian.encode 4 functions.length ++ encodeAll functions) := by
      rw [encodeAll_eq_flatMap]
      refine encodeList_counted bare encode functions functionsFit fun inner member => ?_
      apply ih inner member (depth + 1)
      intro entry found
      exact fitsBelow entry
        (List.mem_flatMap.mpr ⟨inner.bare, List.mem_map_of_mem member, found⟩)
    have texts : ∀ constant ∈ constants, constant.value.SpelledBy constant.encode :=
      fun constant member => constant.encode_spelledBy
        (textsFit constant.value (List.mem_map_of_mem member))
    have codeSpelled : Counted WordSpelledBy code (encodeList encodeWord code) :=
      encodeList_counted_self _ code codeFits fun _ _ => .intro
    have constantsSpelled : Counted Constant.SpelledBy (constants.map WireConstant.value)
        (encodeList WireConstant.encode constants) :=
      encodeList_counted _ _ constants constantsFit texts
    have upvaluesSpelled : Counted Upvalue.SpelledBy upvalues
        (encodeList Upvalue.encode upvalues) :=
      encodeList_counted_self _ upvalues upvaluesFit fun _ _ => .intro
    have linesSpelled : Counted WordSpelledBy lines (encodeList encodeWord lines) :=
      encodeList_counted_self _ lines linesFit fun _ _ => .intro
    have localsSpelled : Counted LocalVariable.SpelledBy locals
        (encodeList LocalVariable.encode locals) :=
      encodeList_counted_self _ locals localsFit fun named member =>
        .intro (named.name.encode_spelledBy (localNamesFit named member))
    have namesSpelled : Counted ByteString.SpelledBy upvalueNames
        (encodeList ByteString.encode upvalueNames) :=
      encodeList_counted_self _ upvalueNames namesFit fun name member =>
        name.encode_spelledBy (upvalueNamesFit name member)
    have name := encodeSource_spelledBy source nameFits
    have spelled := @Prototype.SpelledBy.intro
      ⟨source.getD .empty, lineDefined, lastLineDefined, parameterCount, varargFlag, stackSize,
        code, constants.map WireConstant.value, upvalues, functions.map bare,
        ⟨lines, locals, upvalueNames⟩⟩
      _ _ _ _ _ _ _ _ name codeSpelled constantsSpelled upvaluesSpelled nested linesSpelled
      localsSpelled namesSpelled
    rw [encode, DebugInfo.encode]
    simp only [List.append_assoc] at spelled ⊢
    exact spelled

end WireFunction

/-- Reading gives back what was written. If the wire format can express the sizes in a tree of
functions and the policy admits it, then its chunk is read as the tree with names filled in,
whatever the byte in front of the main function, and whatever bytes follow if the policy allows
any. The reader stops behind the chunk. -/
theorem decode_encodeChunk (policy : Policy) (upvalueCount : UInt8) (main : WireFunction)
    (tail : List UInt8) (admitted : policy.Admits main.bare)
    (representable : main.bare.Representable)
    (allowed : tail = [] ∨ policy.allowTrailing = true) :
    decode policy (main.encodeChunk upvalueCount ++ tail) = .ok (main.resolve .empty) ∧
      (read policy (main.encodeChunk upvalueCount ++ tail)).stop =
        ⟨(main.encodeChunk upvalueCount).length, tail⟩ := by
  have spelled := main.encode_spelledBy 0 representable
  have parts : main.encodeChunk upvalueCount ++ tail =
      Header.standard.bytes ++ upvalueCount :: (main.encode ++ tail) := by
    rw [WireFunction.encodeChunk, List.append_assoc, List.cons_append]
  have length : (main.encodeChunk upvalueCount).length = 34 + main.encode.length := by
    rw [WireFunction.encodeChunk, List.length_append, List.length_cons,
      Header.length_bytes_standard]
    omega
  have front := (Reader.mainFunction_yields_iff policy (main.encodeChunk upvalueCount ++ tail)
    (main.bare.inherit .empty) ⟨(main.encodeChunk upvalueCount).length, tail⟩).mpr
      ⟨main.bare, main.encode, ⟨spelled, upvalueCount, parts⟩, admitted, rfl, length⟩
  rw [WireFunction.resolve_eq]
  exact (Reader.chunk_yields_iff policy _ _ _).mpr ⟨front, allowed⟩

/-- A function with a nested one is read back with a byte behind its chunk: the nested function
takes the name, and a string of 254 bytes is the shortest one behind the escape. -/
theorem decode_encodeChunk_nested :
    let long : ByteString := ⟨List.replicate 254 0x61⟩
    let inner : WireFunction :=
      ⟨none, 2, 3, 1, 0, 2, [0x26], [.integer (-1), .longString long], [⟨1, 0⟩], [],
        ⟨[2], [⟨⟨[0x78]⟩, 0, 1⟩], [⟨[0x79]⟩]⟩⟩
    let main : WireFunction :=
      ⟨some ⟨[0x40, 0x6D]⟩, 0, 0, 0, 1, 2, [], [.boolean true, .shortString .empty], [], [inner],
        ⟨[], [], []⟩⟩
    (main.resolve .empty).functions.map Prototype.source = [⟨[0x40, 0x6D]⟩] ∧
      decode ⟨2, 254, 1, true⟩ (main.encodeChunk 1 ++ [0xAB]) = .ok (main.resolve .empty) := by
  intro long inner main
  have within : ∀ entry ∈ main.bare.preorder 0, entry.1 ≤ 1 ∧ entry.2.Within 2 254 := by
    intro entry member
    have found : entry = (0, main.bare) ∨ entry = (1, inner.bare) := by
      simpa [main, inner, WireFunction.bare, WireFunction.bareAll, Prototype.preorder,
        Prototype.preorderAll] using member
    rcases found with rfl | rfl
    · exact ⟨by decide, by decide, by decide⟩
    · exact ⟨by decide, by decide, by decide +kernel⟩
  have admitted : Policy.Admits ⟨2, 254, 1, true⟩ main.bare := within
  have representable : main.bare.Representable := by
    intro entry member
    obtain ⟨lengths, strings⟩ := (within entry member).2
    constructor
    · intro length found
      exact Nat.le_trans (lengths length found) (by decide)
    · intro string found
      exact Nat.le_trans (strings string found) (by decide)
  have reads := decode_encodeChunk ⟨2, 254, 1, true⟩ 1 main [0xAB] admitted representable (.inr rfl)
  exact ⟨by decide, reads.1⟩

end LuaChunk
