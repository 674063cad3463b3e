import LuaChunk.Wire.Encoding
import LuaChunk.Wire.Policy

/-!
# The wire grammar

The wire format as a relation between values and byte lists, without a reader and without a
writer. One value may have several spellings: a size below 255 may stand behind the escape, an
empty string has size zero or one, a string constant has one of two tags, and any byte but zero
says true. A function is spelled with the name that stands on the wire; `Prototype.inherit`
fills in the names that functions take from the functions around them.

A policy bounds every list and every string of a tree and the depth of its functions
(`Policy.Admits`). The bounds are stated over the functions of the tree in preorder, and
`Policy.admitsFrom_iff` follows them down the tree.
-/
namespace LuaChunk

/-- The ways to write the size in front of a string: one byte that is not the escape, or the
escape and eight bytes. -/
inductive SizeSpelledBy : Nat → List UInt8 → Prop where
  /-- One byte. -/
  | short (size : UInt8) (direct : size ≠ 0xFF) : SizeSpelledBy size.toNat [size]
  /-- Eight bytes after the escape. -/
  | long (size : UInt64) :
      SizeSpelledBy size.toNat (0xFF :: LittleEndian.encode 8 size.toNat)

/-- A size is spelled by one byte or more. -/
theorem SizeSpelledBy.length_pos {size : Nat} {written : List UInt8}
    (spelled : SizeSpelledBy size written) : 0 < written.length := by
  cases spelled with
  | short => exact Nat.one_pos
  | long => exact Nat.succ_pos _

/-- The ways to write a string. -/
inductive ByteString.SpelledBy : ByteString → List UInt8 → Prop where
  /-- The size zero, and no bytes. -/
  | absent {size : List UInt8} (spelled : SizeSpelledBy 0 size) : SpelledBy .empty size
  /-- The number of bytes and one more, and the bytes. -/
  | present {string : ByteString} {size : List UInt8}
      (spelled : SizeSpelledBy (string.size + 1) size) : SpelledBy string (size ++ string.bytes)

/-- The ways to write a constant: a tag and what follows it. -/
inductive Constant.SpelledBy : Constant → List UInt8 → Prop where
  /-- Nothing follows. -/
  | nil : SpelledBy .nil [0x00]
  /-- One byte, false exactly when it is zero. -/
  | boolean (value : UInt8) : SpelledBy (.boolean (value != 0)) [0x01, value]
  /-- The eight bytes of the bits. -/
  | number (value : Binary64) :
      SpelledBy (.number value) (0x03 :: LittleEndian.encode 8 value.bits.toNat)
  /-- A string under the tag of short strings. -/
  | shortString {value : ByteString} {written : List UInt8} (spelled : value.SpelledBy written) :
      SpelledBy (.string value) (0x04 :: written)
  /-- The eight bytes in two's complement. -/
  | integer (value : Int64) :
      SpelledBy (.integer value) (0x13 :: LittleEndian.encode 8 value.toUInt64.toNat)
  /-- A string under the tag of long strings. -/
  | longString {value : ByteString} {written : List UInt8} (spelled : value.SpelledBy written) :
      SpelledBy (.string value) (0x14 :: written)

/-- The four bytes of a word, least significant first. -/
inductive WordSpelledBy (value : UInt32) : List UInt8 → Prop where
  /-- There is one spelling. -/
  | intro : WordSpelledBy value (encodeWord value)

/-- A word has one spelling. -/
theorem wordSpelledBy_iff (value : UInt32) (written : List UInt8) :
    WordSpelledBy value written ↔ written = encodeWord value := by
  constructor
  · intro spelled
    cases spelled
    rfl
  · intro same
    rw [same]
    exact .intro

/-- The two bytes of an upvalue. -/
inductive Upvalue.SpelledBy (upvalue : Upvalue) : List UInt8 → Prop where
  /-- There is one spelling. -/
  | intro : SpelledBy upvalue [upvalue.stackFlag, upvalue.index]

/-- The ways to write a local variable: its name, where it begins and where it ends. -/
inductive LocalVariable.SpelledBy (named : LocalVariable) : List UInt8 → Prop where
  /-- The name may be spelled in any way. -/
  | intro {name : List UInt8} (spelled : named.name.SpelledBy name) :
      SpelledBy named (name ++ encodeWord named.start ++ encodeWord named.stop)

/-- The ways to write a list: its length in four bytes, and each element in some way. -/
inductive Counted {α : Type} (element : α → List UInt8 → Prop) :
    List α → List UInt8 → Prop where
  /-- The elements, each beside its bytes. -/
  | intro (entries : List (α × List UInt8)) (fits : entries.length < Nat.pow 2 32)
      (spelled : ∀ entry ∈ entries, element entry.1 entry.2) :
      Counted element (entries.map Prod.fst)
        (LittleEndian.encode 4 entries.length ++ entries.flatMap Prod.snd)

/-- The ways to write a function with everything nested in it. -/
inductive Prototype.SpelledBy : Prototype → List UInt8 → Prop where
  /-- The fields in wire order. -/
  | intro {prototype : Prototype}
      {name code constants upvalues functions lines locals upvalueNames : List UInt8}
      (nameSpelled : prototype.source.SpelledBy name)
      (codeSpelled : Counted WordSpelledBy prototype.code code)
      (constantsSpelled : Counted Constant.SpelledBy prototype.constants constants)
      (upvaluesSpelled : Counted Upvalue.SpelledBy prototype.upvalues upvalues)
      (functionsSpelled : Counted SpelledBy prototype.functions functions)
      (linesSpelled : Counted WordSpelledBy prototype.debug.lines lines)
      (localsSpelled : Counted LocalVariable.SpelledBy prototype.debug.locals locals)
      (upvalueNamesSpelled :
        Counted ByteString.SpelledBy prototype.debug.upvalueNames upvalueNames) :
      SpelledBy prototype
        (name ++ encodeWord prototype.lineDefined ++ encodeWord prototype.lastLineDefined ++
          [prototype.parameterCount, prototype.varargFlag, prototype.stackSize] ++
          code ++ constants ++ upvalues ++ functions ++ lines ++ locals ++ upvalueNames)

/-- The parts of a chunk: the standard header, any byte, a function as it stands on the wire,
and any bytes. -/
structure SplitsInto (bytes : List UInt8) (main : Prototype) (written rest : List UInt8) :
    Prop where
  /-- The function is spelled by its part. -/
  spelled : main.SpelledBy written
  /-- The parts make up the bytes. -/
  parts : ∃ upvalueCount : UInt8,
    bytes = Header.standard.bytes ++ upvalueCount :: (written ++ rest)

section Counted

variable {α β : Type} {element : α → List UInt8 → Prop}

/-- A list is spelled by its length and the bytes of its elements. -/
theorem counted_iff (items : List α) (written : List UInt8) :
    Counted element items written ↔
      items.length < Nat.pow 2 32 ∧ ∃ entries : List (α × List UInt8),
        (∀ entry ∈ entries, element entry.1 entry.2) ∧ items = entries.map Prod.fst ∧
          written = LittleEndian.encode 4 items.length ++ entries.flatMap Prod.snd := by
  constructor
  · intro given
    obtain ⟨entries, fits, spelled⟩ := given
    rw [List.length_map]
    exact ⟨fits, entries, spelled, rfl, rfl⟩
  · intro given
    obtain ⟨fits, entries, spelled, rfl, rfl⟩ := given
    rw [List.length_map] at fits ⊢
    exact Counted.intro entries fits spelled

/-- The list without elements is spelled by four zero bytes. -/
theorem counted_nil : Counted element [] [0, 0, 0, 0] :=
  (counted_iff [] [0, 0, 0, 0]).mpr
    ⟨Nat.two_pow_pos 32, [], by simp, rfl, by simp [LittleEndian.encode]⟩

/-- A list whose elements have one spelling each has one spelling. -/
theorem counted_iff_encodeList (encode : α → List UInt8)
    (exact : ∀ item bytes, element item bytes ↔ bytes = encode item) (items : List α)
    (written : List UInt8) :
    Counted element items written ↔
      items.length < Nat.pow 2 32 ∧ written = encodeList encode items := by
  rw [counted_iff]
  constructor
  · intro given
    obtain ⟨fits, entries, spelled, rfl, rfl⟩ := given
    have each : entries.map Prod.snd = entries.map (encode ∘ Prod.fst) :=
      List.map_congr_left fun entry member => (exact entry.1 entry.2).mp (spelled entry member)
    refine ⟨fits, ?_⟩
    rw [encodeList, List.flatMap_map, List.flatMap_def, each, List.flatMap_def]
    rfl
  · intro given
    obtain ⟨fits, rfl⟩ := given
    refine ⟨fits, items.map fun item => (item, encode item), ?_, ?_, ?_⟩
    · intro entry member
      obtain ⟨item, _, rfl⟩ := List.mem_map.mp member
      exact (exact item (encode item)).mpr rfl
    · rw [List.map_map]
      exact (List.map_id items).symm
    · rw [encodeList, List.flatMap_map]

/-- A list whose elements have a property besides their spelling. -/
theorem counted_and (holds : α → Prop) (items : List α) (written : List UInt8) :
    Counted (fun item bytes => element item bytes ∧ holds item) items written ↔
      Counted element items written ∧ ∀ item ∈ items, holds item := by
  constructor
  · intro given
    obtain ⟨entries, fits, spelled⟩ := given
    refine ⟨Counted.intro entries fits fun entry member => (spelled entry member).1, ?_⟩
    intro item member
    obtain ⟨entry, found, rfl⟩ := List.mem_map.mp member
    exact (spelled entry found).2
  · intro given
    obtain ⟨⟨entries, fits, spelled⟩, every⟩ := given
    refine Counted.intro entries fits fun entry member => ⟨spelled entry member, ?_⟩
    exact every entry.1 (List.mem_map_of_mem member)

/-- A list whose elements come from others that are spelled. -/
theorem counted_map (change : β → α) (source : β → List UInt8 → Prop) (items : List α)
    (written : List UInt8) :
    Counted (fun item bytes => ∃ origin, source origin bytes ∧ change origin = item) items written ↔
      ∃ origins, Counted source origins written ∧ origins.map change = items := by
  constructor
  · intro given
    obtain ⟨entries, fits, spelled⟩ := given
    -- A list of origins beside their bytes, found element by element.
    have found : ∃ origins : List (β × List UInt8),
        (∀ origin ∈ origins, source origin.1 origin.2) ∧
          origins.map (fun origin => (change origin.1, origin.2)) = entries := by
      clear fits
      induction entries with
      | nil => exact ⟨[], by simp, rfl⟩
      | cons entry entries ih =>
        obtain ⟨head, tail⟩ := List.forall_mem_cons.mp spelled
        obtain ⟨origin, originSpelled, changed⟩ := head
        obtain ⟨origins, originsSpelled, rfl⟩ := ih tail
        refine ⟨(origin, entry.2) :: origins, ?_, by rw [List.map_cons, changed]⟩
        exact List.forall_mem_cons.mpr ⟨originSpelled, originsSpelled⟩
    obtain ⟨origins, originsSpelled, rfl⟩ := found
    rw [List.length_map] at fits
    refine ⟨origins.map Prod.fst, ?_, by simp⟩
    simpa [List.flatMap_map] using Counted.intro origins fits originsSpelled
  · intro given
    obtain ⟨_, ⟨origins, fits, spelled⟩, rfl⟩ := given
    have spelledEach : ∀ entry ∈ origins.map fun origin => (change origin.1, origin.2),
        ∃ origin, source origin entry.2 ∧ change origin = entry.1 := by
      intro entry member
      obtain ⟨origin, found, rfl⟩ := List.mem_map.mp member
      exact ⟨origin.1, spelled origin found, rfl⟩
    have fitsEach : (origins.map fun origin => (change origin.1, origin.2)).length <
        Nat.pow 2 32 := by
      rwa [List.length_map]
    simpa [List.flatMap_map, Function.comp_def] using Counted.intro _ fitsEach spelledEach

end Counted

/-- The string that a constant holds, if it is one. -/
def Constant.string? : Constant → Option ByteString
  | .string value => some value
  | _ => none

namespace Prototype

mutual

/-- The tree in which a function without a name takes the name of the nearest function around
it that has one, or the given name if there is none. -/
def inherit (inherited : ByteString) : Prototype → Prototype
  | prototype@{ source, functions, .. } =>
    { prototype with
      source := source.orElse inherited
      functions := inheritAll (source.orElse inherited) functions }

/-- The trees in which names are filled in. -/
def inheritAll (inherited : ByteString) : List Prototype → List Prototype
  | [] => []
  | first :: further => first.inherit inherited :: inheritAll inherited further

end

/-- Names are filled in tree by tree. -/
theorem inheritAll_eq_map (inherited : ByteString) (trees : List Prototype) :
    inheritAll inherited trees = trees.map (inherit inherited) := by
  induction trees with
  | nil => rw [inheritAll, List.map_nil]
  | cons first further ih => rw [inheritAll, List.map_cons, ih]

/-- Filling in names changes the name of the root and the trees below it. -/
theorem inherit_eq (inherited : ByteString) (prototype : Prototype) :
    prototype.inherit inherited =
      { prototype with
        source := prototype.source.orElse inherited
        functions := prototype.functions.map (inherit (prototype.source.orElse inherited)) } := by
  cases prototype
  simp only [inherit, inheritAll_eq_map]

/-- The functions of several trees are those of each tree. -/
theorem preorderAll_eq_flatMap (depth : Nat) (trees : List Prototype) :
    preorderAll depth trees = trees.flatMap (preorder depth) := by
  induction trees with
  | nil => rw [preorderAll, List.flatMap_nil]
  | cons first further ih => rw [preorderAll, List.flatMap_cons, ih]

/-- What holds in a tree holds at its root and in the trees below the root, one level deeper. -/
theorem forall_preorder_iff (holds : Nat → Prototype → Prop) (depth : Nat) (tree : Prototype) :
    (∀ entry ∈ tree.preorder depth, holds entry.1 entry.2) ↔
      holds depth tree ∧
        ∀ inner ∈ tree.functions, ∀ entry ∈ inner.preorder (depth + 1), holds entry.1 entry.2 := by
  rw [preorder_eq, preorderAll_eq_flatMap, List.forall_mem_cons]
  simp only [List.mem_flatMap, forall_exists_index, and_imp]
  exact and_congr_right fun _ =>
    ⟨fun below inner member entry found => below entry inner member found,
      fun below entry inner member found => below inner member entry found⟩

/-- The lengths of the lists of a function. -/
def lengths (prototype : Prototype) : List Nat :=
  [prototype.code.length, prototype.constants.length, prototype.upvalues.length,
    prototype.functions.length, prototype.debug.lines.length, prototype.debug.locals.length,
    prototype.debug.upvalueNames.length]

/-- The strings of a function: its name, those among its constants, and the names of its local
variables and upvalues. -/
def strings (prototype : Prototype) : List ByteString :=
  prototype.source :: (prototype.constants.filterMap Constant.string? ++
    prototype.debug.locals.map LocalVariable.name ++ prototype.debug.upvalueNames)

/-- The lists and strings of a function are within bounds. -/
structure Within (prototype : Prototype) (maxSequence maxString : Nat) : Prop where
  /-- No list is longer than its bound. -/
  lengths_le : ∀ length ∈ prototype.lengths, length ≤ maxSequence
  /-- No string is longer than its bound. -/
  strings_le : ∀ string ∈ prototype.strings, string.size ≤ maxString

/-- Every function of a tree has lists and strings whose sizes the wire format can express: the
length of a list in four bytes, and one more than the size of a string in eight. -/
def Representable (tree : Prototype) : Prop :=
  ∀ entry ∈ tree.preorder 0, entry.2.Within (Nat.pow 2 32 - 1) (Nat.pow 2 64 - 2)

/-- The bounds of a function, list by list and string by string. -/
theorem within_iff (prototype : Prototype) (maxSequence maxString : Nat) :
    prototype.Within maxSequence maxString ↔
      (prototype.code.length ≤ maxSequence ∧ prototype.constants.length ≤ maxSequence ∧
        prototype.upvalues.length ≤ maxSequence ∧ prototype.functions.length ≤ maxSequence ∧
        prototype.debug.lines.length ≤ maxSequence ∧
        prototype.debug.locals.length ≤ maxSequence ∧
        prototype.debug.upvalueNames.length ≤ maxSequence) ∧
      prototype.source.size ≤ maxString ∧
      (∀ constant ∈ prototype.constants, ∀ string, constant.string? = some string →
        string.size ≤ maxString) ∧
      (∀ named ∈ prototype.debug.locals, named.name.size ≤ maxString) ∧
      ∀ name ∈ prototype.debug.upvalueNames, name.size ≤ maxString := by
  constructor
  · intro given
    obtain ⟨lists, texts⟩ := given
    simp only [lengths, List.forall_mem_cons, List.not_mem_nil, false_implies, implies_true,
      and_true] at lists
    simp only [strings, List.forall_mem_cons, List.forall_mem_append, List.forall_mem_map,
      and_assoc] at texts
    obtain ⟨source, constants, rest⟩ := texts
    refine ⟨lists, source, ?_, rest⟩
    intro constant member string found
    exact constants string (List.mem_filterMap.mpr ⟨constant, member, found⟩)
  · intro given
    obtain ⟨lists, source, constants, locals, names⟩ := given
    constructor
    · simpa only [lengths, List.forall_mem_cons, List.not_mem_nil, false_implies, implies_true,
        and_true] using lists
    · simp only [strings, List.forall_mem_cons, List.forall_mem_append, List.forall_mem_map,
        and_assoc]
      refine ⟨source, ?_, locals, names⟩
      intro string member
      obtain ⟨constant, memberConstant, found⟩ := List.mem_filterMap.mp member
      exact constants constant memberConstant string found

end Prototype

namespace Policy

/-- All functions of a tree whose root lies at a depth are within the bounds of the policy. -/
def AdmitsFrom (policy : Policy) (depth : Nat) (tree : Prototype) : Prop :=
  ∀ entry ∈ tree.preorder depth,
    entry.1 ≤ policy.maxDepth ∧ entry.2.Within policy.maxSequence policy.maxString

/-- All functions of a tree are within the bounds of the policy. -/
def Admits (policy : Policy) (tree : Prototype) : Prop := policy.AdmitsFrom 0 tree

/-- A tree is admitted when its root is and the trees below the root are, one level deeper. -/
theorem admitsFrom_iff (policy : Policy) (depth : Nat) (tree : Prototype) :
    policy.AdmitsFrom depth tree ↔
      depth ≤ policy.maxDepth ∧ tree.Within policy.maxSequence policy.maxString ∧
        ∀ nested ∈ tree.functions, policy.AdmitsFrom (depth + 1) nested := by
  unfold AdmitsFrom
  rw [Prototype.forall_preorder_iff fun depth prototype =>
    depth ≤ policy.maxDepth ∧ prototype.Within policy.maxSequence policy.maxString, and_assoc]

/-- The depths of the functions of a tree, and the sizes of their lists and strings. -/
def sizes (tree : Prototype) : List Nat :=
  (tree.preorder 0).flatMap fun entry =>
    entry.1 :: (entry.2.lengths ++ entry.2.strings.map ByteString.size)

/-- A policy whose bounds are at least the sizes of a tree admits it. -/
theorem admits_of_sizes_le (tree : Prototype) (bound : Nat) (allowTrailing : Bool)
    (large : ∀ size ∈ sizes tree, size ≤ bound) :
    Admits ⟨bound, bound, bound, allowTrailing⟩ tree := by
  intro entry member
  have each : ∀ size ∈ entry.1 :: (entry.2.lengths ++ entry.2.strings.map ByteString.size),
      size ≤ bound :=
    fun size found => large size (List.mem_flatMap.mpr ⟨entry, member, found⟩)
  rw [List.forall_mem_cons, List.forall_mem_append, List.forall_mem_map] at each
  exact ⟨each.1, each.2.1, each.2.2⟩

/-- Some policy admits both of two trees. -/
theorem exists_admits (left right : Prototype) :
    ∃ policy : Policy, policy.Admits left ∧ policy.Admits right := by
  let bound := (sizes left ++ sizes right).max?.getD 0
  have large : ∀ size ∈ sizes left ++ sizes right, size ≤ bound :=
    fun _ member => List.le_max?_getD_of_mem member
  rw [List.forall_mem_append] at large
  exact ⟨⟨bound, bound, bound, true⟩, admits_of_sizes_le left bound true large.1,
    admits_of_sizes_le right bound true large.2⟩

end Policy

end LuaChunk
