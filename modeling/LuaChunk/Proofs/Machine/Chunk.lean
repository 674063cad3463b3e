import LuaChunk.Proofs.Cost
import LuaChunk.Proofs.Machine.Reader

/-!
# A decoder on machine words

The steps of a decoder as programs on words. The limits of the caller are words, the depth is
counted up in front of a nested function and down behind it, also where the function failed, and
the number of functions of a chunk is added up. Every program runs as its reader does, so none of
them panics.
-/
namespace LuaChunk

/-- The bounds under which a chunk is read, in words. -/
structure WordPolicy where
  /-- The greatest number of elements of a list. -/
  maxSequence : UInt64
  /-- The greatest number of bytes of a string. -/
  maxString : UInt64
  /-- How many levels below the main function functions may be nested. -/
  maxDepth : UInt64
  /-- Whether bytes may follow the main function. -/
  allowTrailing : Bool
  deriving DecidableEq

/-- The policy with the same bounds. -/
def WordPolicy.policy (words : WordPolicy) : Policy :=
  ⟨words.maxSequence.toNat, words.maxString.toNat, words.maxDepth.toNat, words.allowTrailing⟩

mutual

/-- The number of functions in a tree, if it is a word. -/
def Prototype.countWord : Prototype → Option UInt64
  | { functions, .. } => do checkedAdd 1 (← Prototype.countWordAll 0 functions)

/-- The number of functions in several trees and of those counted already, if it is a word. -/
def Prototype.countWordAll (counted : UInt64) : List Prototype → Option UInt64
  | [] => some counted
  | first :: further => do
    Prototype.countWordAll (← checkedAdd counted (← first.countWord)) further

end

namespace Machine

variable {α : Type}

/-- Take a number of bytes. -/
def bytes (count : UInt64) : Machine (List UInt8) := block count.toNat count

/-- Programs on words as the steps of a decoder. They keep no records. -/
def primitives : Primitives Machine where
  position := return (← position).toNat
  remaining := return (← remaining).toNat
  fail := fail
  log _ := return ()
  -- The format asks only for a few bytes here, the parts of the header and numbers. Strings and
  -- lists, whose size comes from the chunk, have programs with words of their own.
  bytes count := bytes (.ofNat count)

/-- Four times a number, or the greatest word if that is no word. -/
def fourTimes (count : UInt64) : UInt64 := .ofNat (min (4 * count.toNat) (Nat.pow 2 64 - 1))

/-- Read a number of words of four bytes. -/
def words (count : UInt64) : Machine (List UInt32) :=
  return LittleEndian.words (← block (4 * count.toNat) (fourTimes count))

/-- Read the size in front of a string. -/
def stringSize : Machine UInt64 := do
  let first ← primitives.byte
  if first = Reader.sizeEscape then primitives.longWord else return first.toUInt64

/-- Read a string. -/
def string (limit : UInt64) : Machine ByteString := do
  let offset ← position
  let size ← stringSize
  if size = 0 then return .empty
  else
    let declared ← check (checkedSub size 1)
    if limit < declared then
      fail (.limitExceeded "string" declared.toNat limit.toNat offset.toNat)
    else return ⟨← bytes declared⟩

/-- Read the length of a list. -/
def length (policy : WordPolicy) (part : Part) : Machine UInt64 := do
  let offset ← position
  let declared ← primitives.word
  if declared.toUInt64 ≤ policy.maxSequence then return declared.toUInt64
  else fail (.limitExceeded part.label declared.toNat policy.maxSequence.toNat offset.toNat)

/-- Read a list, element by element. Room is made for as many elements as bytes are left at most. -/
def list (policy : WordPolicy) (part : Part) (element : Machine α) : Machine (List α) := do
  let count ← length policy part
  let _ ← remaining
  times element count.toNat

/-- Read a list of words. -/
def wordList (policy : WordPolicy) (part : Part) : Machine (List UInt32) := do
  words (← length policy part)

/-- Programs on words as the steps of a decoder, within the bounds of a policy. -/
def operations (policy : WordPolicy) : Operations Machine where
  toPrimitives := primitives
  string := string policy.maxString
  wordList := wordList policy
  list := list policy
  allowTrailing := policy.allowTrailing

/-- The number of functions that the program is inside of. -/
def depth : Machine UInt64 := fun _ registers => some (.ok registers.depth, registers)

/-- Set the depth. It is a panic to set it above its limit. -/
def setDepth (policy : WordPolicy) (depth : UInt64) : Machine Unit := fun _ registers =>
  if depth ≤ policy.maxDepth then some (.ok (), { registers with depth }) else none

/-- Run a program and keep its error for later. -/
def attempt (program : Machine α) : Machine (Except DecodeError α) := fun bytes registers =>
  (program bytes registers).map fun answer => (.ok answer.1, answer.2)

/-- Go on with an outcome that was kept. -/
def resume (outcome : Except DecodeError α) : Machine α := fun _ registers =>
  some (outcome, registers)

/-- Read a nested function one level deeper, given the program that reads functions. -/
def nested (policy : WordPolicy) (function : ByteString → Machine Prototype)
    (inherited : ByteString) : Machine Prototype := do
  if policy.maxDepth ≤ (← depth) then
    fail (.nestedTooDeep policy.maxDepth.toNat (← position).toNat)
  else
    setDepth policy (← check (checkedAdd (← depth) 1))
    let outcome ← attempt (function inherited)
    setDepth policy (← check (checkedSub (← depth) 1))
    resume outcome

/-- Read a function with everything nested in it, as long as not more than a number of functions
are open at a time. What would happen beyond that number is left open. -/
def function (policy : WordPolicy) (beyond : ByteString → Machine Prototype) :
    Nat → ByteString → Machine Prototype
  | 0 => beyond
  | calls + 1 => (operations policy).functionWith (nested policy (function policy beyond calls))

/-- Read a chunk, given the program that reads its main function, and count its functions. -/
def chunk (policy : WordPolicy) (function : ByteString → Machine Prototype) : Machine Prototype :=
  (operations policy).chunk function fun main => return (← check main.countWord).toNat

end Machine

end LuaChunk
