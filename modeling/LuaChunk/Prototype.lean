import LuaChunk.Constant

/-!
# Function prototypes

A chunk holds one main function with all functions defined inside it, and a function is
described by its prototype: where it stands in its source, its instructions, the values they
use, and the prototypes nested in it. Instructions stay words; nothing here interprets them.
-/
namespace LuaChunk

/-- Where a closure finds one of its upvalues when it is created. -/
structure Upvalue where
  /-- Not zero if the variable is a register of the enclosing function. -/
  stackFlag : UInt8
  /-- The register, or the upvalue of the enclosing function. -/
  index : UInt8
  deriving DecidableEq, Inhabited

/-- Whether the variable is a register of the enclosing function. -/
def Upvalue.isInStack (upvalue : Upvalue) : Bool := upvalue.stackFlag != 0

/-- A local variable and the instructions between which it is alive. -/
structure LocalVariable where
  /-- The name. -/
  name : ByteString
  /-- The first instruction where the variable is alive. -/
  start : UInt32
  /-- The first instruction where it is not alive any more. -/
  stop : UInt32
  deriving DecidableEq, Inhabited

/-- What a function remembers of its source. A stripped chunk has none of it, and there may be
fewer lines than instructions and fewer names than upvalues. -/
structure DebugInfo where
  /-- The source line of each instruction. -/
  lines : List UInt32
  /-- The local variables. -/
  locals : List LocalVariable
  /-- The name of each upvalue. -/
  upvalueNames : List ByteString
  deriving DecidableEq, Inhabited

namespace DebugInfo

/-- Whether nothing is remembered. -/
def isStripped (debug : DebugInfo) : Bool :=
  debug.lines.isEmpty && debug.locals.isEmpty && debug.upvalueNames.isEmpty

/-- The source line of an instruction, if it is remembered. -/
def line? (debug : DebugInfo) (instruction : Nat) : Option UInt32 := debug.lines[instruction]?

/-- The name of an upvalue, if it is remembered. -/
def upvalueName? (debug : DebugInfo) (index : Nat) : Option ByteString :=
  debug.upvalueNames[index]?

end DebugInfo

/-- A function with everything nested in it. -/
structure Prototype where
  /-- The name of the chunk the function stands in. -/
  source : ByteString
  /-- The line where the function begins, zero for the main function. -/
  lineDefined : UInt32
  /-- The line where the function ends. -/
  lastLineDefined : UInt32
  /-- The number of fixed parameters. -/
  parameterCount : UInt8
  /-- Not zero if the function takes further arguments. -/
  varargFlag : UInt8
  /-- The number of registers the function needs. -/
  stackSize : UInt8
  /-- The instruction words. -/
  code : List UInt32
  /-- The constants that instructions refer to. -/
  constants : List Constant
  /-- The upvalues. -/
  upvalues : List Upvalue
  /-- The functions nested directly in this one. -/
  functions : List Prototype
  /-- What is remembered of the source. -/
  debug : DebugInfo
  deriving Inhabited

namespace Prototype

/-- Whether the function is the main function of its chunk. -/
def isMain (prototype : Prototype) : Bool := prototype.lineDefined == 0

/-- Whether the function takes arguments beyond its parameters. -/
def isVararg (prototype : Prototype) : Bool := prototype.varargFlag != 0

mutual

/-- The number of functions in the tree, its root included. -/
def functionCount : Prototype → Nat
  | { functions, .. } => 1 + functionCountAll functions

/-- The number of functions in several trees. -/
def functionCountAll : List Prototype → Nat
  | [] => 0
  | first :: further => first.functionCount + functionCountAll further

end

mutual

/-- The functions of a tree with their depths, each function before the ones nested in it and
those in order. -/
def preorder (depth : Nat) : Prototype → List (Nat × Prototype)
  | prototype@{ functions, .. } => (depth, prototype) :: preorderAll (depth + 1) functions

/-- The functions of several trees, one tree after the other. -/
def preorderAll (depth : Nat) : List Prototype → List (Nat × Prototype)
  | [] => []
  | first :: further => first.preorder depth ++ preorderAll depth further

end

/-- The function that a path leads to, if it leads to one. Each number of the path chooses among
the functions nested directly in the one reached so far. -/
def follow? : List Nat → Prototype → Option Prototype
  | [], prototype => some prototype
  | index :: path, prototype => prototype.functions[index]?.bind (follow? path)

mutual

/-- Equality of prototypes is decidable. -/
def decEq : (left right : Prototype) → Decidable (left = right)
  | ⟨source, line, last, parameters, vararg, stack, code, constants, upvalues,
      functions, debug⟩,
    ⟨source', line', last', parameters', vararg', stack', code', constants', upvalues',
      functions', debug'⟩ =>
    match decEqAll functions functions' with
    | isFalse different => isFalse fun same => different (congrArg Prototype.functions same)
    | isTrue same =>
      decidable_of_iff
        (source = source' ∧ line = line' ∧ last = last' ∧ parameters = parameters' ∧
          vararg = vararg' ∧ stack = stack' ∧ code = code' ∧ constants = constants' ∧
          upvalues = upvalues' ∧ debug = debug')
        (by simp [same])

/-- Equality of lists of prototypes is decidable. -/
def decEqAll : (left right : List Prototype) → Decidable (left = right)
  | [], [] => isTrue rfl
  | [], _ :: _ => isFalse nofun
  | _ :: _, [] => isFalse nofun
  | left :: lefts, right :: rights =>
    match decEq left right, decEqAll lefts rights with
    | isTrue same, isTrue sameRest => isTrue (by rw [same, sameRest])
    | isFalse different, _ => isFalse fun same => different (List.cons.inj same).1
    | _, isFalse different => isFalse fun same => different (List.cons.inj same).2

end

instance : DecidableEq Prototype := decEq

/-- A tree has one function more than the trees nested in its root. -/
theorem functionCount_eq (prototype : Prototype) :
    prototype.functionCount = 1 + functionCountAll prototype.functions := by
  cases prototype
  rw [functionCount]

/-- The functions of a tree are its root and then the functions nested in it. -/
theorem preorder_eq (depth : Nat) (prototype : Prototype) :
    prototype.preorder depth =
      (depth, prototype) :: preorderAll (depth + 1) prototype.functions := by
  cases prototype
  rw [preorder]

end Prototype

end LuaChunk
