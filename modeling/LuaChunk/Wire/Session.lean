import LuaChunk.Wire.Chunk

/-!
# Steps on one chunk

A chunk can also be read step by step, with a caller who chooses each step and may go on after
a failure. A step answers with an item or an error and leaves a cursor, and that cursor is all
the next step depends on, apart from the limits the caller has set.
-/
namespace LuaChunk

/-- A step that reads one item of the wire format, or sets the limit of later strings. -/
inductive WireStep where
  /-- Read one byte. -/
  | byte
  /-- Read a word of four bytes. -/
  | word
  /-- Read a word of eight bytes. -/
  | longWord
  /-- Read an integer. -/
  | integer
  /-- Read a float. -/
  | number
  /-- Read a number of bytes. -/
  | bytes (count : Nat)
  /-- Read a number of words of four bytes. -/
  | words (count : Nat)
  /-- Read a string. -/
  | string
  /-- Set the greatest number of bytes of a string. -/
  | limit (maxString : Nat)
  deriving DecidableEq

/-- An item of the wire format. -/
inductive WireItem where
  /-- One byte. -/
  | byte (value : UInt8)
  /-- A word of four bytes. -/
  | word (value : UInt32)
  /-- A word of eight bytes. -/
  | longWord (value : UInt64)
  /-- An integer. -/
  | integer (value : Int64)
  /-- A float. -/
  | number (value : Binary64)
  /-- Several bytes. -/
  | bytes (values : List UInt8)
  /-- Several words. -/
  | words (values : List UInt32)
  /-- A string. -/
  | string (value : ByteString)
  /-- The limit is set. -/
  | limited
  deriving DecidableEq

/-- The state between two steps that read items. -/
structure WireState where
  /-- Where the next step reads. -/
  cursor : Cursor
  /-- The greatest number of bytes of a string. -/
  maxString : Nat
  deriving DecidableEq

/-- The state before the first step. -/
def WireState.start (bytes : List UInt8) : WireState := ⟨.start bytes, Policy.default.maxString⟩

/-- The reader of a step, under the limit on strings. -/
def WireStep.reader (maxString : Nat) : WireStep → Reader WireItem
  | byte => return .byte (← Reader.byte)
  | word => return .word (← Reader.word)
  | longWord => return .longWord (← Reader.longWord)
  | integer => return .integer (← Reader.integer)
  | number => return .number (← Reader.number)
  | bytes count => return .bytes (← Reader.bytes count)
  | words count => return .words (← Reader.words count)
  | string => return .string (← Reader.string maxString)
  | limit _ => return .limited

/-- The answer to a step and the state after it. -/
def WireStep.take (state : WireState) (step : WireStep) :
    Except DecodeError WireItem × WireState :=
  let reading := step.reader state.maxString state.cursor
  let maxString :=
    match step with
    | limit chosen => chosen
    | _ => state.maxString
  (reading.outcome, ⟨reading.stop, maxString⟩)

/-- A step that reads one part of a chunk. -/
inductive ChunkStep where
  /-- Read a header. -/
  | header
  /-- Read a constant. -/
  | constant
  /-- Read a function, given the name that it inherits. -/
  | function (inherited : ByteString)
  /-- Read a whole chunk without moving. -/
  | chunk
  deriving DecidableEq

/-- A part of a chunk. -/
inductive ChunkItem where
  /-- A header. -/
  | header (value : Header)
  /-- A constant. -/
  | constant (value : Constant)
  /-- A function with everything nested in it. -/
  | function (value : Prototype)
  deriving DecidableEq

/-- The program of a decoder for a step, given how it reads functions and chunks. -/
def ChunkStep.program {m : Type → Type} [Monad m] (operations : Operations m)
    (readFunction : ByteString → m Prototype) (readChunk : m Prototype) : ChunkStep → m ChunkItem
  | header => return .header (← operations.header)
  | constant => return .constant (← operations.constant)
  | function inherited => return .function (← readFunction inherited)
  | chunk => return .function (← readChunk)

/-- The reader of a step, under a policy. -/
def ChunkStep.reader (policy : Policy) : ChunkStep → Reader ChunkItem :=
  program (Reader.operations policy) (Reader.function policy) (Reader.chunk policy)

/-- The answer to a step and the cursor after it. -/
def ChunkStep.take (policy : Policy) (cursor : Cursor) (step : ChunkStep) :
    Except DecodeError ChunkItem × Cursor :=
  let reading := step.reader policy cursor
  (reading.outcome, if step = chunk then cursor else reading.stop)

/-- The answers to steps taken one after the other, each with the state after its step. -/
def answers {Step State Answer : Type} (take : State → Step → Answer × State) (state : State) :
    List Step → List (Answer × State)
  | [] => []
  | step :: further =>
    let answered := take state step
    answered :: answers take answered.2 further

end LuaChunk
