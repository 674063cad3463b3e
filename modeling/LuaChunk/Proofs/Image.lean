import LuaChunk.Proofs.Inheritance
import LuaChunk.Proofs.RoundTrip

/-!
# What can be read from a chunk

The trees that some chunk is read as are described without a reader: the wire format can express
their sizes, the policy admits them, and every function inside a named one is named
(`exists_decode_iff`). Such a tree is read from the chunk of the function that carries it to the
wire, with every name written out (`WireFunction.ofPrototype`).
-/
namespace LuaChunk

/-- The bounds of a policy where the wire format has none of its own that are smaller: the length
of a list fits four bytes, and one more than the size of a string fits eight. -/
def Policy.onWire (policy : Policy) : Policy :=
  { policy with
    maxSequence := min policy.maxSequence (Nat.pow 2 32 - 1)
    maxString := min policy.maxString (Nat.pow 2 64 - 2) }

/-- The smaller ones of two pairs of bounds are kept exactly if both pairs are. -/
theorem Prototype.within_min_iff (prototype : Prototype)
    (maxSequence otherSequence maxString otherString : Nat) :
    prototype.Within (min maxSequence otherSequence) (min maxString otherString) ↔
      prototype.Within maxSequence maxString ∧ prototype.Within otherSequence otherString := by
  constructor
  · intro within
    obtain ⟨lengths, strings⟩ := within
    simp only [Nat.le_min] at lengths strings
    exact ⟨⟨fun length member => (lengths length member).1,
        fun string member => (strings string member).1⟩,
      ⟨fun length member => (lengths length member).2,
        fun string member => (strings string member).2⟩⟩
  · intro both
    obtain ⟨⟨lengths, strings⟩, ⟨otherLengths, otherStrings⟩⟩ := both
    exact ⟨fun length member => Nat.le_min.mpr ⟨lengths length member, otherLengths length member⟩,
      fun string member => Nat.le_min.mpr ⟨strings string member, otherStrings string member⟩⟩

/-- What a policy admits on the wire is what it admits and the wire format can express. -/
theorem Policy.onWire_admits_iff (policy : Policy) (tree : Prototype) :
    policy.onWire.Admits tree ↔ policy.Admits tree ∧ tree.Representable := by
  have each : ∀ entry : Nat × Prototype,
      (entry.1 ≤ policy.maxDepth ∧
          entry.2.Within policy.onWire.maxSequence policy.onWire.maxString) ↔
        (entry.1 ≤ policy.maxDepth ∧ entry.2.Within policy.maxSequence policy.maxString) ∧
          entry.2.Within (Nat.pow 2 32 - 1) (Nat.pow 2 64 - 2) := by
    intro entry
    rw [onWire, entry.2.within_min_iff, and_assoc]
  constructor
  · intro admitted
    exact ⟨fun entry member => ((each entry).mp (admitted entry member)).1,
      fun entry member => ((each entry).mp (admitted entry member)).2⟩
  · intro both entry member
    exact (each entry).mpr ⟨both.1 entry member, both.2 entry member⟩

section Spelled

variable {α : Type} {element : α → List UInt8 → Prop} {items : List α} {written : List UInt8}

/-- The length of a list that is spelled fits four bytes. -/
theorem Counted.length_le (counted : Counted element items written) :
    items.length ≤ Nat.pow 2 32 - 1 := by
  have fits := ((counted_iff items written).mp counted).1
  omega

/-- The elements of a list that is spelled are spelled. -/
theorem Counted.forall_mem (counted : Counted element items written) :
    ∀ item ∈ items, ∃ bytes, element item bytes := by
  obtain ⟨entries, _, spelled⟩ := counted
  intro item member
  obtain ⟨entry, found, rfl⟩ := List.mem_map.mp member
  exact ⟨entry.2, spelled entry found⟩

end Spelled

/-- One more than the size of a string that is spelled fits eight bytes. -/
theorem ByteString.SpelledBy.size_le {string : ByteString} {written : List UInt8}
    (spelled : string.SpelledBy written) : string.size ≤ Nat.pow 2 64 - 2 := by
  cases spelled with
  | absent => exact Nat.zero_le _
  | @present _ size spelled =>
    have fits : string.size + 1 < Nat.pow 2 64 := by
      generalize string.size + 1 = announced at spelled
      cases spelled with
      | short byte => exact Nat.lt_trans byte.toNat_lt (by decide)
      | long word => exact word.toNat_lt
    omega

/-- A string among the constants that are spelled is spelled. -/
theorem Constant.SpelledBy.size_le {constant : Constant} {written : List UInt8}
    (spelled : constant.SpelledBy written) (string : ByteString)
    (found : constant.string? = some string) : string.size ≤ Nat.pow 2 64 - 2 := by
  cases spelled with
  | shortString spelled =>
    obtain rfl := Option.some.inj found
    exact spelled.size_le
  | longString spelled =>
    obtain rfl := Option.some.inj found
    exact spelled.size_le
  | nil => contradiction
  | boolean => contradiction
  | number => contradiction
  | integer => contradiction

/-- The wire format can express the sizes of a tree that is spelled. -/
theorem Prototype.SpelledBy.representable {tree : Prototype} {written : List UInt8}
    (spelled : tree.SpelledBy written) : tree.Representable := by
  induction tree using Prototype.nestedInduction generalizing written with
  | step tree ih =>
    obtain ⟨name, code, constants, upvalues, functions, lines, locals, upvalueNames⟩ := spelled
    refine (representable_iff tree).mpr ⟨(within_iff _ _ _).mpr ⟨?_, name.size_le, ?_, ?_, ?_⟩, ?_⟩
    · exact ⟨code.length_le, constants.length_le, upvalues.length_le, functions.length_le,
        lines.length_le, locals.length_le, upvalueNames.length_le⟩
    · intro constant member string found
      obtain ⟨_, spelled⟩ := constants.forall_mem constant member
      exact spelled.size_le string found
    · intro named member
      obtain ⟨_, ⟨spelled⟩⟩ := locals.forall_mem named member
      exact spelled.size_le
    · intro name member
      obtain ⟨_, spelled⟩ := upvalueNames.forall_mem name member
      exact spelled.size_le
    · intro inner member
      obtain ⟨_, spelled⟩ := functions.forall_mem inner member
      exact ih inner member spelled

/-- A constant as a writer may put it on the wire, with strings among the short ones. -/
def WireConstant.ofConstant : Constant → WireConstant
  | .nil => .nil
  | .boolean value => .boolean value
  | .integer value => .integer value
  | .number value => .number value
  | .string value => .shortString value

/-- The constant on the wire is read as the constant. -/
theorem WireConstant.value_ofConstant (constant : Constant) :
    (ofConstant constant).value = constant := by
  cases constant <;> rfl

namespace WireFunction

mutual

/-- A function as a writer may put it on the wire, with every name written out. -/
def ofPrototype : Prototype → WireFunction
  | ⟨source, lineDefined, lastLineDefined, parameterCount, varargFlag, stackSize, code, constants,
      upvalues, functions, debug⟩ =>
    ⟨some source, lineDefined, lastLineDefined, parameterCount, varargFlag, stackSize, code,
      constants.map WireConstant.ofConstant, upvalues, ofPrototypes functions, debug⟩

/-- Functions as a writer may put them on the wire. -/
def ofPrototypes : List Prototype → List WireFunction
  | [] => []
  | first :: further => ofPrototype first :: ofPrototypes further

end

/-- Functions are put on the wire one by one. -/
theorem ofPrototypes_eq_map (functions : List Prototype) :
    ofPrototypes functions = functions.map ofPrototype := by
  induction functions with
  | nil => rw [ofPrototypes, List.map_nil]
  | cons first further ih => rw [ofPrototypes, List.map_cons, ih]

/-- The function on the wire stands for the function with its own names. -/
theorem bare_ofPrototype (tree : Prototype) : (ofPrototype tree).bare = tree := by
  induction tree using Prototype.nestedInduction with
  | step tree ih =>
    obtain ⟨source, lineDefined, lastLineDefined, parameterCount, varargFlag, stackSize, code,
      constants, upvalues, functions, debug⟩ := tree
    have values : (constants.map WireConstant.ofConstant).map WireConstant.value = constants := by
      rw [List.map_map]
      exact (List.map_congr_left fun constant _ =>
        WireConstant.value_ofConstant constant).trans (List.map_id constants)
    have below : (functions.map ofPrototype).map bare = functions := by
      rw [List.map_map]
      exact (List.map_congr_left fun inner member => ih inner member).trans (List.map_id functions)
    rw [ofPrototype, ofPrototypes_eq_map, bare, bareAll_eq_map, values, below]
    rfl

end WireFunction

/-- A tree is read from some chunk exactly if it is admitted with the bounds of the wire format and
every function inside a named one is named. -/
theorem exists_decode_iff (policy : Policy) (tree : Prototype) :
    (∃ bytes, decode policy bytes = .ok tree) ↔
      policy.onWire.Admits tree ∧ tree.Everywhere Prototype.NamesNested := by
  constructor
  · intro read
    obtain ⟨bytes, read⟩ := read
    obtain ⟨stop, yields, _⟩ := (decode_eq_ok_iff policy bytes tree).mp read
    obtain ⟨main, written, ⟨spelled, _⟩, admitted, rfl, _⟩ :=
      (Reader.mainFunction_yields_iff policy bytes tree stop).mp yields
    have onWire := (policy.onWire_admits_iff main).mpr ⟨admitted, spelled.representable⟩
    exact ⟨(policy.onWire.admits_inherit_iff main).mpr onWire, main.inherit_namesNested .empty⟩
  · intro described
    obtain ⟨onWire, named⟩ := described
    obtain ⟨admitted, representable⟩ := (policy.onWire_admits_iff tree).mp onWire
    have bare := WireFunction.bare_ofPrototype tree
    have spelled := (WireFunction.ofPrototype tree).encode_spelledBy 0 (bare.symm ▸ representable)
    rw [bare] at spelled
    let written := (WireFunction.ofPrototype tree).encode
    have parts : SplitsInto (Header.standard.bytes ++ 0 :: (written ++ [])) tree written [] :=
      ⟨spelled, 0, rfl⟩
    have filled : tree = tree.inherit .empty :=
      (tree.inherit_eq_self .empty named fun _ => rfl).symm
    have yields := (Reader.mainFunction_yields_iff policy _ tree ⟨34 + written.length, []⟩).mpr
      ⟨tree, written, parts, admitted, filled, rfl⟩
    exact ⟨_, (decode_eq_ok_iff policy _ tree).mpr ⟨_, yields, .inl rfl⟩⟩

end LuaChunk
