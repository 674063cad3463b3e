import LuaChunk.Listing
import LuaChunk.Proofs.Machine.Reader
import LuaChunk.Proofs.Cost

/-!
# The listing with numbers in words

The listing numbers the lines of its tables and shows the instructions between which a local
variable is alive, each one more than it is counted in the chunk. Here all these numbers are words
and the text is only there if none of the sums is too large for one. It always is there for a tree
that a chunk can hold (`Prototype.listingWord_eq`).
-/
namespace LuaChunk

namespace Listing

/-- Lines of a table for items that are counted in a word, unless there are too many. -/
def appendCounted {α : Type} (entries : UInt64 → α → Option (List String)) :
    UInt64 → String → List α → Option String
  | _, text, [] => some text
  | counter, text, item :: further => do
    let shown ← entries counter item
    appendCounted entries (← checkedAdd counter 1) (text ++ line shown) further

/-- The entries for an instruction with its line, behind a number of others. -/
def instructionWord (counter : UInt64) (item : UInt32 × Option UInt32) : Option (List String) := do
  return instruction (← checkedAdd counter 1).toNat item

/-- The entries for a constant behind a number of others. -/
def constantWord (counter : UInt64) (item : Constant) : Option (List String) := do
  return constant (← checkedAdd counter 1).toNat item

/-- The entries for a local variable. -/
def localVariableWord (counter : UInt64) (named : LocalVariable) : Option (List String) := do
  let start ← checkedAdd named.start.toUInt64 1
  let stop ← checkedAdd named.stop.toUInt64 1
  return [toString counter.toNat, named.name.toText, toString start.toNat, toString stop.toNat]

/-- The entries for an upvalue with its name. -/
def upvalueWord (counter : UInt64) (item : Upvalue × Option ByteString) : Option (List String) :=
  some (upvalue counter.toNat item)

/-- A table has its lines if each item has, whether the numbers shown begin with zero or one. -/
theorem appendCounted_eq {α : Type} {entriesWord : UInt64 → α → Option (List String)}
    {entries : Nat → α → List String} (first : Nat)
    (each : ∀ counter item, counter + 1 < Nat.pow 2 64 →
      entriesWord (.ofNat counter) item = some (entries (counter + first) item))
    (counter : Nat) (text : String) (items : List α)
    (fits : counter + items.length < Nat.pow 2 64) :
    appendCounted entriesWord (.ofNat counter) text items =
      some (appendNumbered entries (counter + first) text items) := by
  induction items generalizing counter text with
  | nil => rfl
  | cons item further ih =>
    rw [List.length_cons] at fits
    have fitsNext : counter + 1 < Nat.pow 2 64 := by omega
    have shown := each counter item fitsNext
    have next : checkedAdd (.ofNat counter) 1 = some (.ofNat (counter + 1)) :=
      checkedAdd_ofNat fitsNext
    have rest := ih (counter + 1) (text ++ line (entries (counter + first) item)) (by omega)
    rw [Nat.add_right_comm] at rest
    simp only [appendCounted, shown, Option.bind_eq_bind, Option.bind_some, next, rest,
      appendNumbered]

/-- An instruction is numbered from one on. -/
theorem instructionWord_eq (counter : Nat) (item : UInt32 × Option UInt32)
    (fits : counter + 1 < Nat.pow 2 64) :
    instructionWord (.ofNat counter) item = some (instruction (counter + 1) item) := by
  have next : checkedAdd (.ofNat counter) 1 = some (.ofNat (counter + 1)) := checkedAdd_ofNat fits
  simp only [instructionWord, next, Option.bind_eq_bind, Option.bind_some, toNat_ofNat_word fits]
  rfl

/-- A constant is numbered from one on. -/
theorem constantWord_eq (counter : Nat) (item : Constant) (fits : counter + 1 < Nat.pow 2 64) :
    constantWord (.ofNat counter) item = some (constant (counter + 1) item) := by
  have next : checkedAdd (.ofNat counter) 1 = some (.ofNat (counter + 1)) := checkedAdd_ofNat fits
  simp only [constantWord, next, Option.bind_eq_bind, Option.bind_some, toNat_ofNat_word fits]
  rfl

/-- One more than a word of four bytes is a word of eight. -/
theorem checkedAdd_toUInt64_one (word : UInt32) :
    ∃ next, checkedAdd word.toUInt64 1 = some next ∧ next.toNat = word.toNat + 1 := by
  have number : word.toUInt64.toNat = word.toNat := UInt32.toNat_toUInt64 word
  have small : word.toNat < Nat.pow 2 32 := word.toNat_lt
  have gap : Nat.pow 2 32 + 1 < Nat.pow 2 64 := by decide
  have fits : word.toUInt64.toNat + 1 < Nat.pow 2 64 := by omega
  refine ⟨word.toUInt64 + 1, if_pos fits, ?_⟩
  rw [UInt64.toNat_add, number]
  rw [number] at fits
  exact Nat.mod_eq_of_lt fits

/-- A local variable is numbered from zero on, and its instructions from one on. -/
theorem localVariableWord_eq (counter : Nat) (named : LocalVariable)
    (fits : counter + 1 < Nat.pow 2 64) :
    localVariableWord (.ofNat counter) named = some (localVariable counter named) := by
  obtain ⟨start, startNext, startNumber⟩ := checkedAdd_toUInt64_one named.start
  obtain ⟨stop, stopNext, stopNumber⟩ := checkedAdd_toUInt64_one named.stop
  have number : (UInt64.ofNat counter).toNat = counter := toNat_ofNat_word (by omega)
  simp only [localVariableWord, startNext, stopNext, Option.bind_eq_bind, Option.bind_some, number,
    startNumber, stopNumber]
  rfl

/-- An upvalue is numbered from zero on. -/
theorem upvalueWord_eq (counter : Nat) (item : Upvalue × Option ByteString)
    (fits : counter + 1 < Nat.pow 2 64) :
    upvalueWord (.ofNat counter) item = some (upvalue counter item) := by
  have number : (UInt64.ofNat counter).toNat = counter := toNat_ofNat_word (by omega)
  rw [upvalueWord, number]

/-- No item is lost beside the notes, and none is added. -/
theorem length_align_le {α β : Type} (items : List α) (notes : List β) :
    (align items notes).length ≤ items.length := by
  rw [align, List.length_zip]
  exact Nat.min_le_left _ _

end Listing

namespace Prototype

open Listing

/-- Append the block of a function, with numbers in words. -/
def appendBlockWord (text : String) (prototype : Prototype) : Option String := do
  let text ← appendCounted instructionWord 0 (text ++ prototype.banner)
    (align prototype.code prototype.debug.lines)
  let text ← appendCounted constantWord 0
    (text ++ heading "constants" prototype.constants.length) prototype.constants
  let text ← appendCounted localVariableWord 0
    (text ++ heading "locals" prototype.debug.locals.length) prototype.debug.locals
  appendCounted upvalueWord 0 (text ++ heading "upvalues" prototype.upvalues.length)
    (align prototype.upvalues prototype.debug.upvalueNames)

mutual

/-- Append the listing of a function, with numbers in words. -/
def appendListingWord (text : String) : Prototype → Option String
  | prototype@{ functions, .. } => do
    appendListingsWord (← prototype.appendBlockWord text) functions

/-- Append the listings of several functions, with numbers in words. -/
def appendListingsWord (text : String) : List Prototype → Option String
  | [] => some text
  | first :: further => do appendListingsWord (← first.appendListingWord text) further

end

/-- The listing of a function with everything nested in it, with numbers in words. -/
def listingWord (prototype : Prototype) : Option String := prototype.appendListingWord ""

/-- The block of a function is there if the function does not cost more than a word can tell. -/
theorem appendBlockWord_eq (text : String) (prototype : Prototype)
    (fits : prototype.ownCost < Nat.pow 2 64) :
    prototype.appendBlockWord text = some (prototype.appendBlock text) := by
  unfold ownCost at fits
  have codeLength := length_align_le prototype.code prototype.debug.lines
  have upvaluesLength := length_align_le prototype.upvalues prototype.debug.upvalueNames
  have code : ∀ text, appendCounted instructionWord 0 text
      (align prototype.code prototype.debug.lines) =
        some (appendNumbered instruction 1 text (align prototype.code prototype.debug.lines)) :=
    fun text => appendCounted_eq 1 instructionWord_eq 0 text _ (by omega)
  have constants : ∀ text, appendCounted constantWord 0 text prototype.constants =
      some (appendNumbered constant 1 text prototype.constants) :=
    fun text => appendCounted_eq 1 constantWord_eq 0 text _ (by omega)
  have locals : ∀ text, appendCounted localVariableWord 0 text prototype.debug.locals =
      some (appendNumbered localVariable 0 text prototype.debug.locals) :=
    fun text => appendCounted_eq 0 localVariableWord_eq 0 text _ (by omega)
  have upvalues : ∀ text, appendCounted upvalueWord 0 text
      (align prototype.upvalues prototype.debug.upvalueNames) =
        some (appendNumbered upvalue 0 text
          (align prototype.upvalues prototype.debug.upvalueNames)) :=
    fun text => appendCounted_eq 0 upvalueWord_eq 0 text _ (by omega)
  simp only [appendBlockWord, code, constants, locals, upvalues, Option.bind_eq_bind,
    Option.bind_some]
  rfl

/-- The listings of several trees are there if each of them is behind every text. -/
theorem appendListingsWord_eq (trees : List Prototype)
    (each : ∀ inner ∈ trees, ∀ text,
      inner.appendListingWord text = some (inner.appendListing text)) (text : String) :
    appendListingsWord text trees = some (appendListings text trees) := by
  induction trees generalizing text with
  | nil => rfl
  | cons first further ih =>
    rw [List.forall_mem_cons] at each
    have head := each.1 text
    have rest := ih each.2 (first.appendListing text)
    simp only [appendListingsWord, head, rest, Option.bind_eq_bind, Option.bind_some,
      appendListings]

/-- The listing of a tree is there behind every text if the tree does not cost more than a word can
tell. -/
theorem appendListingWord_eq (tree : Prototype) (text : String)
    (fits : tree.cost < Nat.pow 2 64) :
    tree.appendListingWord text = some (tree.appendListing text) := by
  induction tree using nestedInduction generalizing text with
  | step tree ih =>
    have each : ∀ inner ∈ tree.functions, ∀ text,
        inner.appendListingWord text = some (inner.appendListing text) := by
      intro inner member text
      have cheaper := cost_le_of_mem member
      exact ih inner member text (by omega)
    rw [cost_eq] at fits
    have block := appendBlockWord_eq text tree (by omega)
    have below := appendListingsWord_eq tree.functions each (tree.appendBlock text)
    cases tree
    simp only [appendListingWord, block, Option.bind_eq_bind, Option.bind_some, below,
      appendListing]

/-- The listing of a tree is there if the tree does not cost more than a word can tell. -/
theorem listingWord_eq (tree : Prototype) (fits : tree.cost < Nat.pow 2 64) :
    tree.listingWord = some tree.listing := tree.appendListingWord_eq "" fits

end Prototype

end LuaChunk
