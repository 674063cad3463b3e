import LuaChunk.Proofs.Acceptance
import LuaChunk.Proofs.Preorder
import Mathlib.Algebra.BigOperators.Ring.List
import Mathlib.Algebra.Order.BigOperators.Group.List
import Mathlib.Algebra.Order.Ring.Nat

/-!
# What a tree costs

A tree is paid for by the bytes of its chunk, whatever lengths the chunk declares. A function
takes forty bytes or more even if all of its lists are empty, and every element of a list takes
some bytes of its own. `Prototype.cost` adds this up over the functions of a tree, and
`cost_le_of_decode` says that a chunk never has fewer bytes. So nothing that is read from a chunk
is large unless the chunk is.
-/
namespace LuaChunk

/-- The number of bytes of the string that a constant holds, if it is one. -/
def Constant.stringSize (constant : Constant) : Nat :=
  (constant.string?.map ByteString.size).getD 0

namespace Prototype

/-- The strings in the lists of a function, which are all of its strings but its name. -/
def listedStrings (prototype : Prototype) : List ByteString :=
  prototype.constants.filterMap Constant.string? ++
    prototype.debug.locals.map LocalVariable.name ++ prototype.debug.upvalueNames

/-- The least number of bytes that a function takes without the functions nested in it. Its name
counts as one byte whatever it is, because it may be inherited. -/
def ownCost (prototype : Prototype) : Nat :=
  40 + 4 * prototype.code.length + prototype.constants.length + 2 * prototype.upvalues.length +
    4 * prototype.debug.lines.length + 9 * prototype.debug.locals.length +
    prototype.debug.upvalueNames.length + (prototype.listedStrings.map ByteString.size).sum

/-- The least number of bytes that a tree takes. -/
def cost (tree : Prototype) : Nat := ((tree.preorder 0).map fun entry => entry.2.ownCost).sum

/-- A tree costs what its root costs and what the trees below the root cost. -/
theorem cost_eq (tree : Prototype) :
    tree.cost = tree.ownCost + (tree.functions.map cost).sum := by
  have below : ∀ inner : Prototype,
      ((inner.preorder 1).map fun entry => entry.2.ownCost).sum = inner.cost := by
    intro inner
    have same := congrArg (List.map ownCost) (inner.preorder_map_snd 1 0)
    rw [List.map_map, List.map_map] at same
    exact congrArg List.sum same
  rw [cost, preorder_eq, preorderAll_eq_flatMap, List.flatMap_def]
  simp only [List.map_cons, List.sum_cons, List.map_flatten, List.sum_flatten, List.map_map,
    Function.comp_def, Nat.zero_add, below]

/-- A tree costs what a tree nested in its root costs, or more. -/
theorem cost_le_of_mem {tree inner : Prototype} (member : inner ∈ tree.functions) :
    inner.cost ≤ tree.cost := by
  have listed : inner.cost ∈ tree.functions.map cost := List.mem_map_of_mem member
  have single := List.single_le_sum (fun _ _ => Nat.zero_le _) inner.cost listed
  rw [cost_eq tree]
  omega

/-- The functions of a tree are its root and those of the trees below the root. -/
theorem functionCount_eq_sum (tree : Prototype) :
    tree.functionCount = 1 + (tree.functions.map functionCount).sum := by
  have all : ∀ trees : List Prototype, functionCountAll trees = (trees.map functionCount).sum := by
    intro trees
    induction trees with
    | nil => rfl
    | cons first further ih => rw [functionCountAll, ih, List.map_cons, List.sum_cons]
  rw [functionCount_eq, all]

/-- Every function of a tree costs forty bytes or more. -/
theorem functionCount_le_cost (tree : Prototype) : 40 * tree.functionCount ≤ tree.cost := by
  induction tree using nestedInduction with
  | step tree ih =>
    have below : 40 * (tree.functions.map functionCount).sum ≤ (tree.functions.map cost).sum := by
      rw [← List.sum_map_mul_left]
      exact List.sum_le_sum ih
    have own : 40 ≤ tree.ownCost := by
      unfold ownCost
      omega
    rw [functionCount_eq_sum, cost_eq]
    omega

/-- Names that are filled in cost nothing. -/
theorem cost_inherit (tree : Prototype) (inherited : ByteString) :
    (tree.inherit inherited).cost = tree.cost := by
  induction tree using nestedInduction generalizing inherited with
  | step tree ih =>
    have below : tree.functions.map
        (fun inner => (inner.inherit (tree.source.orElse inherited)).cost) =
          tree.functions.map cost :=
      List.map_congr_left fun inner member => ih inner member _
    rw [cost_eq, cost_eq tree, inherit_eq]
    simp only [List.map_map, Function.comp_def, below]
    rfl

end Prototype

section Counted

variable {α : Type} {element : α → List UInt8 → Prop} {items : List α} {written : List UInt8}

/-- A list takes four bytes for its length and what its elements take. -/
theorem Counted.sum_le (counted : Counted element items written) (weight : α → Nat)
    (each : ∀ item ∈ items, ∀ bytes, element item bytes → weight item ≤ bytes.length) :
    4 + (items.map weight).sum ≤ written.length := by
  obtain ⟨entries, _, spelled⟩ := counted
  have lighter : (entries.map fun entry => weight entry.1).sum ≤
      (entries.map fun entry => entry.2.length).sum :=
    List.sum_le_sum fun entry member =>
      each entry.1 (List.mem_map_of_mem member) entry.2 (spelled entry member)
  rw [List.length_append, LittleEndian.length_encode, List.length_flatMap, List.map_map]
  exact Nat.add_le_add_left lighter 4

/-- A list whose elements all take some number of bytes takes that number for each. -/
theorem Counted.mul_length_le (counted : Counted element items written) (least : Nat)
    (each : ∀ item bytes, element item bytes → least ≤ bytes.length) :
    4 + least * items.length ≤ written.length := by
  have sum := counted.sum_le (fun _ => least) fun item _ => each item
  rw [List.map_const', List.sum_replicate_nat] at sum
  rw [Nat.mul_comm]
  exact sum

end Counted

/-- A string takes one byte more than it has, or more. -/
theorem ByteString.SpelledBy.size_lt {string : ByteString} {written : List UInt8}
    (spelled : string.SpelledBy written) : 1 + string.size ≤ written.length := by
  cases spelled with
  | absent spelled => exact spelled.length_pos
  | present spelled =>
    have size := spelled.length_pos
    rw [List.length_append]
    exact Nat.add_le_add_right size _

/-- A constant takes a byte for its tag and what a string in it takes. -/
theorem Constant.SpelledBy.stringSize_lt {constant : Constant} {written : List UInt8}
    (spelled : constant.SpelledBy written) : 1 + constant.stringSize ≤ written.length := by
  cases spelled with
  | shortString spelled => exact Nat.le_succ_of_le spelled.size_lt
  | longString spelled => exact Nat.le_succ_of_le spelled.size_lt
  | nil => exact Nat.le_refl 1
  | boolean => exact Nat.le_succ 1
  | number => exact Nat.le_add_left 1 _
  | integer => exact Nat.le_add_left 1 _

/-- A local variable takes eight bytes and what its name takes. -/
theorem LocalVariable.SpelledBy.size_le {named : LocalVariable} {written : List UInt8}
    (spelled : named.SpelledBy written) : 9 + named.name.size ≤ written.length := by
  obtain ⟨spelled⟩ := spelled
  have name := spelled.size_lt
  simp only [List.length_append, encodeWord, LittleEndian.length_encode]
  omega

namespace Prototype

/-- The strings in the lists of a function, added up list by list. -/
theorem sum_listedStrings (prototype : Prototype) :
    (prototype.listedStrings.map ByteString.size).sum =
      (prototype.constants.map Constant.stringSize).sum +
        (prototype.debug.locals.map fun named => named.name.size).sum +
        (prototype.debug.upvalueNames.map ByteString.size).sum := by
  have constants : ∀ values : List Constant,
      ((values.filterMap Constant.string?).map ByteString.size).sum =
        (values.map Constant.stringSize).sum := by
    intro values
    induction values with
    | nil => rfl
    | cons value values ih =>
      rw [List.map_cons, List.sum_cons, ← ih]
      cases value <;> simp [List.filterMap_cons, Constant.string?, Constant.stringSize]
  simp only [listedStrings, List.map_append, List.sum_append, List.map_map, constants]
  rfl

/-- A tree is not spelled by fewer bytes than it costs. -/
theorem SpelledBy.cost_le {tree : Prototype} {written : List UInt8}
    (spelled : tree.SpelledBy written) : tree.cost ≤ written.length := by
  induction tree using nestedInduction generalizing written with
  | step tree ih =>
    obtain ⟨name, code, constants, upvalues, functions, lines, locals, names⟩ := spelled
    have nameCost := name.size_lt
    have codeCost := code.mul_length_le 4 fun _ _ spelled => by cases spelled; rfl
    have constantsCost := constants.sum_le (fun value => 1 + value.stringSize)
      fun _ _ _ spelled => spelled.stringSize_lt
    have upvaluesCost := upvalues.mul_length_le 2 fun _ _ spelled => by cases spelled; rfl
    have functionsCost := functions.sum_le cost fun inner member _ => ih inner member
    have linesCost := lines.mul_length_le 4 fun _ _ spelled => by cases spelled; rfl
    have localsCost := locals.sum_le (fun named => 9 + named.name.size)
      fun _ _ _ spelled => spelled.size_le
    have namesCost := names.sum_le (fun name => 1 + name.size)
      fun _ _ _ spelled => spelled.size_lt
    simp only [List.sum_map_add, List.map_const', List.sum_replicate_nat] at constantsCost
    simp only [List.sum_map_add, List.map_const', List.sum_replicate_nat] at localsCost namesCost
    rw [cost_eq, ownCost, sum_listedStrings]
    simp only [List.length_append, List.length_cons, List.length_nil, encodeWord,
      LittleEndian.length_encode]
    omega

end Prototype

/-- If bytes are read as a chunk, then the header, the byte behind it and the costs of all
functions are not more than the bytes that the reader takes, and those are not more than there
are. So there is at most one function for every forty bytes behind the first 34. -/
theorem cost_le_of_decode (policy : Policy) (bytes : List UInt8) (tree : Prototype)
    (succeeds : decode policy bytes = .ok tree) :
    34 + tree.cost ≤ (read policy bytes).stop.position ∧
      (read policy bytes).stop.position ≤ bytes.length ∧
      tree.functionCount ≤ (bytes.length - 34) / 40 := by
  obtain ⟨yields, _⟩ := (Reader.chunk_yields_iff policy (.start bytes) tree
    (read policy bytes).stop).mp ⟨succeeds, rfl⟩
  obtain ⟨main, written, splits, _, rfl, place⟩ :=
    (Reader.mainFunction_yields_iff policy bytes tree _).mp yields
  have paid := splits.spelled.cost_le
  have count := (main.inherit .empty).functionCount_le_cost
  have length : 34 + written.length ≤ bytes.length := by
    obtain ⟨upvalueCount, parts⟩ := splits.parts
    rw [parts]
    simp only [List.length_append, List.length_cons, Header.length_bytes_standard]
    omega
  rw [main.cost_inherit .empty] at count ⊢
  have fits : 40 * (main.inherit .empty).functionCount ≤ bytes.length - 34 := by omega
  refine ⟨by omega, by omega, ?_⟩
  rw [Nat.le_div_iff_mul_le (by decide)]
  omega

/-- A chunk of 94 bytes pays for a function with an instruction, a string constant, an upvalue and
a local variable, which costs 59 bytes with the three bytes of its strings. -/
theorem cost_le_of_decode_local :
    let main : Prototype :=
      ⟨.empty, 0, 0, 0, 0, 0, [7], [.string ⟨[0x68, 0x69]⟩], [⟨1, 0⟩], [],
        ⟨[], [⟨⟨[0x78]⟩, 0, 1⟩], []⟩⟩
    let lists : List UInt8 :=
      [1, 0, 0, 0, 7, 0, 0, 0] ++ [1, 0, 0, 0, 0x04, 3, 0x68, 0x69] ++ [1, 0, 0, 0, 1, 0] ++
        [0, 0, 0, 0] ++ [0, 0, 0, 0] ++ [1, 0, 0, 0, 2, 0x78, 0, 0, 0, 0, 1, 0, 0, 0] ++
        [0, 0, 0, 0]
    let bytes := Header.standard.bytes ++ List.replicate 13 0 ++ lists
    decode .default bytes = .ok main ∧ main.cost = 59 ∧ bytes.length = 94 ∧
      34 + main.cost ≤ (read .default bytes).stop.position ∧
      (read .default bytes).stop.position ≤ bytes.length ∧
      main.functionCount ≤ (bytes.length - 34) / 40 := by
  intro main lists bytes
  have succeeds : decode .default bytes = .ok main := by decide +kernel
  have cost : main.cost = 59 := by decide +kernel
  have length : bytes.length = 94 := by decide +kernel
  exact ⟨succeeds, cost, length, cost_le_of_decode .default bytes main succeeds⟩

end LuaChunk
