import LuaChunk.Wire.Session

/-!
# Decoders with corresponding steps

The parts of a chunk are put together from the steps of a decoder in one way, whatever kind of
programs the steps are. So two decoders need only be compared step by step: a relation between their
programs that respects sequences and holds between corresponding steps (`Operations.Correspond`)
holds between the programs for constants, for functions and for whole chunks. It is a fact about the
format alone. What the relation says is up to the decoders: that one of them keeps a counter as it
was, that it leaves records out, or that it runs on machine words without a panic.
-/
namespace LuaChunk

variable {m n : Type → Type} [Monad m] [Monad n]

/-- The steps of two decoders correspond in a relation between programs that respects sequences. -/
structure Primitives.Correspond (relation : (α : Type) → m α → n α → Prop) (left : Primitives m)
    (right : Primitives n) : Prop where
  /-- Doing nothing. -/
  pure {α : Type} (value : α) : relation α (pure value) (pure value)
  /-- One program after the other. -/
  bind {α β : Type} {first : m α} {second : n α} {next : α → m β} {other : α → n β}
    (head : relation α first second) (tail : ∀ value, relation β (next value) (other value)) :
    relation β (first >>= next) (second >>= other)
  /-- Asking for the place. -/
  position : relation Nat left.position right.position
  /-- Counting the bytes that are left. -/
  remaining : relation Nat left.remaining right.remaining
  /-- Failing with the same error. -/
  fail {α : Type} (error : DecodeError) : relation α (left.fail error) (right.fail error)
  /-- Keeping the same record. -/
  log (record : Record) : relation Unit (left.log record) (right.log record)
  /-- Taking a number of bytes, if the number is a word. -/
  bytes (count : Nat) (fits : count < Nat.pow 2 64) :
    relation (List UInt8) (left.bytes count) (right.bytes count)

/-- The steps of two decoders with bounds correspond in a relation between programs. -/
structure Operations.Correspond (relation : (α : Type) → m α → n α → Prop) (left : Operations m)
    (right : Operations n) : Prop
    extends left.toPrimitives.Correspond relation right.toPrimitives where
  /-- Reading a string. -/
  string : relation ByteString left.string right.string
  /-- Reading a list of words. -/
  wordList (part : Part) : relation (List UInt32) (left.wordList part) (right.wordList part)
  /-- Reading a list of elements that are read correspondingly. -/
  list {α : Type} (part : Part) {first : m α} {second : n α} (elements : relation α first second) :
    relation (List α) (left.list part first) (right.list part second)
  /-- The same is allowed after the main function. -/
  allowTrailing : left.allowTrailing = right.allowTrailing

variable {relation : (α : Type) → m α → n α → Prop}

namespace Primitives.Correspond

variable {left : Primitives m} {right : Primitives n} (steps : left.Correspond relation right)

include steps

/-- A number of a width. -/
theorem unsigned (width : Nat) (fits : width < Nat.pow 2 64) :
    relation Nat (left.unsigned width) (right.unsigned width) :=
  steps.bind (steps.bytes width fits) fun _ => steps.pure _

/-- A byte. -/
theorem byte : relation UInt8 left.byte right.byte :=
  steps.bind (steps.unsigned 1 (by decide)) fun _ => steps.pure _

/-- A word of four bytes. -/
theorem word : relation UInt32 left.word right.word :=
  steps.bind (steps.unsigned 4 (by decide)) fun _ => steps.pure _

/-- A word of eight bytes. -/
theorem longWord : relation UInt64 left.longWord right.longWord :=
  steps.bind (steps.unsigned 8 (by decide)) fun _ => steps.pure _

/-- An integer. -/
theorem integer : relation Int64 left.integer right.integer :=
  steps.bind steps.longWord fun _ => steps.pure _

/-- A float. -/
theorem number : relation Binary64 left.number right.number :=
  steps.bind steps.longWord fun _ => steps.pure _

/-- Header fields, none of which is longer than a word can tell. -/
theorem expect (fields : List (HeaderField × List UInt8))
    (fits : ∀ entry ∈ fields, entry.2.length < Nat.pow 2 64) :
    relation Unit (left.expect fields) (right.expect fields) := by
  induction fields with
  | nil => exact steps.pure ()
  | cons entry further ih =>
    obtain ⟨fitsHere, fitsFurther⟩ := List.forall_mem_cons.mp fits
    refine steps.bind steps.position fun offset => ?_
    refine steps.bind (steps.bytes entry.2.length fitsHere) fun found => ?_
    by_cases same : found = entry.2
    · rw [if_pos same, if_pos same]
      exact ih fitsFurther
    · rw [if_neg same, if_neg same]
      exact steps.fail _

/-- The header. -/
theorem header : relation Header left.header right.header := by
  refine steps.bind (steps.expect Header.standard.fields (by decide)) fun _ => ?_
  exact steps.bind (steps.log _) fun _ => steps.pure _

/-- An upvalue. -/
theorem upvalue : relation Upvalue left.upvalue right.upvalue :=
  steps.bind steps.byte fun _ => steps.bind steps.byte fun _ => steps.pure _

end Primitives.Correspond

namespace Operations.Correspond

variable {left : Operations m} {right : Operations n} (steps : left.Correspond relation right)

include steps

/-- What follows the tag of a constant. -/
theorem payload (tag : Constant.Tag) :
    relation Constant (left.payload tag) (right.payload tag) := by
  cases tag with
  | nil => exact steps.pure _
  | boolean => exact steps.bind steps.byte fun _ => steps.pure _
  | number => exact steps.bind steps.number fun _ => steps.pure _
  | shortString => exact steps.bind steps.string fun _ => steps.pure _
  | integer => exact steps.bind steps.integer fun _ => steps.pure _
  | longString => exact steps.bind steps.string fun _ => steps.pure _

/-- A constant. -/
theorem constant : relation Constant left.constant right.constant := by
  refine steps.bind steps.position fun offset => ?_
  refine steps.bind steps.byte fun tagByte => ?_
  cases Constant.Tag.ofByte? tagByte with
  | none => exact steps.fail _
  | some tag =>
    refine steps.bind (steps.payload tag) fun value => ?_
    exact steps.bind (steps.log _) fun _ => steps.pure value

/-- A local variable. -/
theorem localVariable : relation LocalVariable left.localVariable right.localVariable := by
  refine steps.bind steps.string fun name => ?_
  refine steps.bind steps.word fun start => ?_
  exact steps.bind steps.word fun stop => steps.pure _

/-- The debug information of a function. -/
theorem debugInfo : relation DebugInfo left.debugInfo right.debugInfo := by
  refine steps.bind (steps.wordList .lines) fun lines => ?_
  refine steps.bind (steps.list .locals steps.localVariable) fun locals => ?_
  exact steps.bind (steps.list .upvalueNames steps.string) fun upvalueNames => steps.pure _

/-- A function, if the functions nested in it are read correspondingly. -/
theorem functionWith {nested : ByteString → m Prototype} {other : ByteString → n Prototype}
    (inner : ∀ name, relation Prototype (nested name) (other name)) (inherited : ByteString) :
    relation Prototype (left.functionWith nested inherited)
      (right.functionWith other inherited) := by
  refine steps.bind steps.position fun offset => ?_
  refine steps.bind steps.string fun own => ?_
  refine steps.bind steps.word fun lineDefined => ?_
  refine steps.bind steps.word fun lastLineDefined => ?_
  refine steps.bind steps.byte fun parameterCount => ?_
  refine steps.bind steps.byte fun varargFlag => ?_
  refine steps.bind steps.byte fun stackSize => ?_
  refine steps.bind (steps.wordList .code) fun code => ?_
  refine steps.bind (steps.list .constants steps.constant) fun constants => ?_
  refine steps.bind (steps.list .upvalues steps.upvalue) fun upvalues => ?_
  refine steps.bind (steps.list .functions (inner _)) fun functions => ?_
  refine steps.bind steps.debugInfo fun debug => ?_
  exact steps.bind (steps.log _) fun _ => steps.pure _

/-- The bytes after the main function. -/
theorem trailing : relation Unit left.trailing right.trailing := by
  refine steps.bind steps.position fun offset => ?_
  refine steps.bind steps.remaining fun count => ?_
  by_cases none : count = 0
  · rw [if_pos none, if_pos none]
    exact steps.pure ()
  · rw [if_neg none, if_neg none, steps.allowTrailing]
    by_cases allowed : right.allowTrailing = true
    · rw [if_pos allowed, if_pos allowed]
      exact steps.log _
    · rw [if_neg allowed, if_neg allowed]
      exact steps.fail _

/-- A chunk, if its main function is read correspondingly and its functions are counted so. -/
theorem chunk {function : ByteString → m Prototype} {other : ByteString → n Prototype}
    {count : Prototype → m Nat} {otherCount : Prototype → n Nat}
    (main : relation Prototype (function .empty) (other .empty))
    (counted : ∀ tree, relation Nat (count tree) (otherCount tree)) :
    relation Prototype (left.chunk function count) (right.chunk other otherCount) := by
  refine steps.bind steps.header fun _ => ?_
  refine steps.bind steps.byte fun upvalueCount => ?_
  refine steps.bind (steps.log _) fun _ => ?_
  refine steps.bind main fun tree => ?_
  refine steps.bind steps.trailing fun _ => ?_
  refine steps.bind (counted tree) fun functions => ?_
  exact steps.bind (steps.log _) fun _ => steps.pure tree

/-- A step of a session, if functions and chunks are read correspondingly. -/
theorem program {readFunction : ByteString → m Prototype} {otherFunction : ByteString → n Prototype}
    {readChunk : m Prototype} {otherChunk : n Prototype}
    (functions : ∀ name, relation Prototype (readFunction name) (otherFunction name))
    (chunks : relation Prototype readChunk otherChunk) (step : ChunkStep) :
    relation ChunkItem (step.program left readFunction readChunk)
      (step.program right otherFunction otherChunk) := by
  cases step with
  | header => exact steps.bind steps.header fun _ => steps.pure _
  | constant => exact steps.bind steps.constant fun _ => steps.pure _
  | function inherited => exact steps.bind (functions inherited) fun _ => steps.pure _
  | chunk => exact steps.bind chunks fun _ => steps.pure _

end Operations.Correspond

end LuaChunk
