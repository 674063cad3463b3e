import LuaChunk.Wire.Policy
import LuaChunk.Wire.Reader

/-!
# Reading a chunk

A chunk is a header, the upvalue count of the main closure, and the main function. A function
holds lists, each behind its length, and one of the lists holds the functions nested in it. A
function without a name of its own takes the name of the function it is nested in.

The format is written down once, over the steps of a decoder (`Operations`). The steps may be
programs of any kind: those of this library are readers under a policy (`Reader.operations`), and a
decoder that keeps a counter or computes in machine words only has to give its own steps.

Nesting is bounded by the policy, and the reader of a nested function is defined by recursion on
the number of levels that are left, so reading is total without a count of steps and no state is
carried from one function to the next.
-/
namespace LuaChunk

/-- The lists of a function. -/
inductive Part where
  /-- The instructions. -/
  | code
  /-- The constants. -/
  | constants
  /-- The upvalues. -/
  | upvalues
  /-- The nested functions. -/
  | functions
  /-- The line of each instruction. -/
  | lines
  /-- The local variables. -/
  | locals
  /-- The names of the upvalues. -/
  | upvalueNames
  deriving DecidableEq

/-- What an error calls the elements of a list. -/
def Part.label : Part → String
  | code => "code"
  | constants => "constant"
  | upvalues => "upvalue"
  | functions => "function"
  | lines => "line info"
  | locals => "local variable"
  | upvalueNames => "upvalue name"

/-- The steps of a decoder of chunks: those of fixed size, and those whose size the chunk tells,
within the bounds of a caller. -/
structure Operations (m : Type → Type) extends Primitives m where
  /-- Read a string. -/
  string : m ByteString
  /-- Read a list of words. -/
  wordList : Part → m (List UInt32)
  /-- Read a list, element by element. -/
  list {α : Type} : Part → m α → m (List α)
  /-- Whether bytes may follow the main function. -/
  allowTrailing : Bool

section Format

variable {m : Type → Type} [Monad m]

namespace Primitives

variable (primitives : Primitives m)

/-- Read header fields and compare each with the bytes expected. A field is read as a whole
before it is compared. -/
def expect : List (HeaderField × List UInt8) → m Unit
  | [] => return ()
  | (field, expected) :: further => do
    let offset ← primitives.position
    let found ← primitives.bytes expected.length
    if found = expected then expect further
    else primitives.fail (.headerMismatch field offset)

/-- Read the header. -/
def header : m Header := do
  primitives.expect Header.standard.fields
  primitives.log (.header .standard)
  return .standard

/-- Read an upvalue. -/
def upvalue : m Upvalue := return ⟨← primitives.byte, ← primitives.byte⟩

end Primitives

namespace Operations

variable (operations : Operations m)

/-- Read what follows the tag of a constant. -/
def payload : Constant.Tag → m Constant
  | .nil => return .nil
  | .boolean => return .boolean ((← operations.byte) != 0)
  | .number => return .number (← operations.number)
  | .shortString => return .string (← operations.string)
  | .integer => return .integer (← operations.integer)
  | .longString => return .string (← operations.string)

/-- Read a constant. -/
def constant : m Constant := do
  let offset ← operations.position
  let tagByte ← operations.byte
  match Constant.Tag.ofByte? tagByte with
  | none => operations.fail (.unknownTag tagByte offset)
  | some tag =>
    let value ← operations.payload tag
    operations.log (.constant tag offset value)
    return value

/-- Read a local variable. -/
def localVariable : m LocalVariable :=
  return ⟨← operations.string, ← operations.word, ← operations.word⟩

/-- Read the debug information of a function. -/
def debugInfo : m DebugInfo := do
  let lines ← operations.wordList .lines
  let locals ← operations.list .locals operations.localVariable
  let upvalueNames ← operations.list .upvalueNames operations.string
  return ⟨lines, locals, upvalueNames⟩

/-- Read a function, given how the functions nested in it are read for the name they inherit, and
the name that this function inherits. -/
def functionWith (nested : ByteString → m Prototype) (inherited : ByteString) : m Prototype := do
  let offset ← operations.position
  let own ← operations.string
  let source := own.orElse inherited
  let lineDefined ← operations.word
  let lastLineDefined ← operations.word
  let parameterCount ← operations.byte
  let varargFlag ← operations.byte
  let stackSize ← operations.byte
  let code ← operations.wordList .code
  let constants ← operations.list .constants operations.constant
  let upvalues ← operations.list .upvalues operations.upvalue
  let functions ← operations.list .functions (nested source)
  let debug ← operations.debugInfo
  operations.log (.function source lineDefined lastLineDefined offset code.length
    constants.length upvalues.length functions.length)
  return {
    source, lineDefined, lastLineDefined, parameterCount, varargFlag, stackSize, code, constants,
    upvalues, functions, debug }

/-- Deal with the bytes after the main function. -/
def trailing : m Unit := do
  let offset ← operations.position
  let count ← operations.remaining
  if count = 0 then return ()
  else if operations.allowTrailing then operations.log (.trailing count offset)
  else operations.fail (.trailingBytes offset count)

/-- Read a chunk, given how its main function is read for the name it inherits and how functions
are counted. The main function has no name to inherit. -/
def chunk (function : ByteString → m Prototype) (count : Prototype → m Nat) : m Prototype := do
  let _ ← operations.header
  let upvalueCount ← operations.byte
  operations.log (.closure upvalueCount)
  let main ← function .empty
  operations.trailing
  operations.log (.chunk main.source (← count main))
  return main

end Operations

end Format

namespace Reader

variable {α : Type}

/-- Read the length of a list. -/
def length (policy : Policy) (part : Part) : Reader Nat := do
  let offset ← position
  let declared ← word
  if declared.toNat ≤ policy.maxSequence then return declared.toNat
  else fail (.limitExceeded part.label declared.toNat policy.maxSequence offset)

/-- Read a list, element by element. -/
def list (policy : Policy) (part : Part) (element : Reader α) : Reader (List α) := do
  times element (← length policy part)

/-- Read a list of words in one block. -/
def wordList (policy : Policy) (part : Part) : Reader (List UInt32) := do
  words (← length policy part)

/-- Readers as the steps of a decoder, within the bounds of a policy. -/
def operations (policy : Policy) : Operations Reader where
  toPrimitives := primitives
  string := string policy.maxString
  wordList := wordList policy
  list := list policy
  allowTrailing := policy.allowTrailing

/-- Read header fields. -/
def expect : List (HeaderField × List UInt8) → Reader Unit := primitives.expect

/-- Read the header. -/
def header : Reader Header := primitives.header

/-- Read what follows the tag of a constant. -/
def payload (policy : Policy) : Constant.Tag → Reader Constant := (operations policy).payload

/-- Read a constant. -/
def constant (policy : Policy) : Reader Constant := (operations policy).constant

/-- Read an upvalue. -/
def upvalue : Reader Upvalue := primitives.upvalue

/-- Read a local variable. -/
def localVariable (policy : Policy) : Reader LocalVariable := (operations policy).localVariable

/-- Read the debug information of a function. -/
def debugInfo (policy : Policy) : Reader DebugInfo := (operations policy).debugInfo

/-- Read a function, given the reader of the functions nested in it for the name they inherit,
and the name that this function inherits. -/
def functionWith (policy : Policy) (nested : ByteString → Reader Prototype)
    (inherited : ByteString) : Reader Prototype := (operations policy).functionWith nested inherited

/-- Read a function where a number of levels are left for it and the functions nested in it. -/
def nestedFunction (policy : Policy) : Nat → ByteString → Reader Prototype
  | 0, _ => do fail (.nestedTooDeep policy.maxDepth (← position))
  | levels + 1, inherited => functionWith policy (nestedFunction policy levels) inherited

/-- Read a function with everything nested in it, given the name that it inherits. -/
def function (policy : Policy) (inherited : ByteString) : Reader Prototype :=
  functionWith policy (nestedFunction policy policy.maxDepth) inherited

/-- Deal with the bytes after the main function. -/
def trailing (policy : Policy) : Reader Unit := (operations policy).trailing

/-- Read a chunk. -/
def chunk (policy : Policy) : Reader Prototype :=
  (operations policy).chunk (function policy) fun main => return main.functionCount

end Reader

/-- Read bytes as a chunk and keep the records of the reading. -/
def read (policy : Policy) (bytes : List UInt8) : Reading Prototype :=
  Reader.chunk policy (.start bytes)

/-- Decode bytes as a chunk. -/
def decode (policy : Policy) (bytes : List UInt8) : Except DecodeError Prototype :=
  (read policy bytes).outcome

/-- The records of reading bytes as a chunk that a log with the given limit admits. -/
def records (policy : Policy) (limit : Option Severity) (bytes : List UInt8) : List Record :=
  (read policy bytes).records.filter fun record => record.severity.isAdmitted limit

end LuaChunk
