import LuaChunk.Prototype
import LuaChunk.Text.Utf8

/-!
# The listing

The listing shows one block for each function: a banner, the instruction words with their lines,
and tables of the constants, locals and upvalues. The block of a function is followed by the
listings of the functions nested in it. Everything is appended to a text that may hold something
already.
-/
namespace LuaChunk

/-- The name of a chunk for display. A file name and a name given as such lose their mark, a
chunk loaded from a string or from a binary string has no name of its own. -/
def ByteString.displayName (source : ByteString) : String :=
  match source.bytes with
  | [] => "?"
  | mark :: name =>
    if mark = 0x40 ∨ mark = 0x3D then ByteString.toText ⟨name⟩
    else if mark = 0x1B then "(bstring)"
    else "(string)"

namespace Listing

/-- Pair each item of the first list with the item at the same place of the second one, if there
is one. -/
def align {α β : Type} (items : List α) (notes : List β) : List (α × Option β) :=
  items.zip (notes.map some ++ List.replicate (items.length - notes.length) none)

/-- A line of a table: a tab, the entries with tabs between them, and a line feed. -/
def line (entries : List String) : String := "\t" ++ "\t".intercalate entries ++ "\n"

/-- Lines of a table for numbered items, the first one with the given number. -/
def appendNumbered {α : Type} (entries : Nat → α → List String) :
    Nat → String → List α → String
  | _, text, [] => text
  | number, text, item :: further =>
    appendNumbered entries (number + 1) (text ++ line (entries number item)) further

/-- The line that introduces a table. -/
def heading (name : String) (size : Nat) : String :=
  name ++ " (" ++ toString size ++ "):\n"

/-- The entries for an instruction with its line. -/
def instruction (number : Nat) : UInt32 × Option UInt32 → List String
  | (word, some line) => [toString number, "[" ++ toString line.toNat ++ "]", Text.word word]
  | (word, none) => [toString number, "[_]", Text.word word]

/-- The entries for a constant. -/
def constant (number : Nat) (constant : Constant) : List String :=
  [toString number, constant.listed]

/-- The entries for a local variable. -/
def localVariable (number : Nat) (named : LocalVariable) : List String :=
  [toString number, named.name.toText, toString (named.start.toNat + 1),
    toString (named.stop.toNat + 1)]

/-- The entries for an upvalue with its name. -/
def upvalue (number : Nat) : Upvalue × Option ByteString → List String
  | (upvalue, name) =>
    [toString number, (name.map ByteString.toText).getD "-", toString upvalue.stackFlag.toNat,
      toString upvalue.index.toNat]

end Listing

namespace Prototype

open Listing

/-- The first lines of a block: what the function is and how large it is. -/
def banner (prototype : Prototype) : String :=
  "\n" ++ (if prototype.isMain then "main" else "function") ++ " <" ++
    prototype.source.displayName ++ ":" ++ toString prototype.lineDefined.toNat ++ "," ++
    toString prototype.lastLineDefined.toNat ++ "> (" ++ toString prototype.code.length ++
    " instructions)\n\n" ++ toString prototype.parameterCount.toNat ++
    (if prototype.isVararg then "+" else "") ++ " params, " ++
    toString prototype.stackSize.toNat ++ " slots, " ++ toString prototype.upvalues.length ++
    " upvalues, " ++ toString prototype.debug.locals.length ++ " locals, " ++
    toString prototype.constants.length ++ " constants, " ++
    toString prototype.functions.length ++ " functions\n"

/-- Append the block of a function, without the functions nested in it. -/
def appendBlock (text : String) (prototype : Prototype) : String :=
  let text := appendNumbered instruction 1 (text ++ prototype.banner)
    (align prototype.code prototype.debug.lines)
  let text := appendNumbered constant 1
    (text ++ heading "constants" prototype.constants.length) prototype.constants
  let text := appendNumbered localVariable 0
    (text ++ heading "locals" prototype.debug.locals.length) prototype.debug.locals
  appendNumbered upvalue 0 (text ++ heading "upvalues" prototype.upvalues.length)
    (align prototype.upvalues prototype.debug.upvalueNames)

mutual

/-- Append the listing of a function: its block, then the functions nested in it. -/
def appendListing (text : String) : Prototype → String
  | prototype@{ functions, .. } => appendListings (prototype.appendBlock text) functions

/-- Append the listings of several functions. -/
def appendListings (text : String) : List Prototype → String
  | [] => text
  | first :: further => appendListings (first.appendListing text) further

end

/-- The listing of a function with everything nested in it. -/
def listing (prototype : Prototype) : String := prototype.appendListing ""

end Prototype

end LuaChunk
