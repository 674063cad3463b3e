/-!
# What a reader accepts

A chunk may come from anywhere, and the sizes it declares are only claims. A policy bounds them
before anything is read on their account, and says whether bytes may follow the main function.
-/
namespace LuaChunk

/-- The bounds under which a chunk is read. -/
structure Policy where
  /-- The greatest number of elements of a list. -/
  maxSequence : Nat
  /-- The greatest number of bytes of a string. -/
  maxString : Nat
  /-- How many levels below the main function functions may be nested. -/
  maxDepth : Nat
  /-- Whether bytes may follow the main function. -/
  allowTrailing : Bool
  deriving DecidableEq, Inhabited

/-- The bounds of a reader that is told nothing else: generous sizes, the nesting that Lua itself
allows, and trailing bytes allowed. -/
def Policy.default : Policy where
  maxSequence := Nat.pow 2 26
  maxString := Nat.pow 2 30
  maxDepth := 200
  allowTrailing := true

end LuaChunk
