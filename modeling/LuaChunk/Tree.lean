import LuaChunk.Prototype
import LuaChunk.Text.Outline

/-!
# The tree view

The tree view shows every field of every function. A tree is laid out as an outline, and its
text is the indented layout.
-/
namespace LuaChunk

/-- Words laid out as a list of numbers. -/
def wordOutline (words : List UInt32) : Outline :=
  .list (words.map fun word => .natural word.toNat)

/-- A byte string laid out with every byte visible. -/
def ByteString.outline (string : ByteString) : Outline := .leaf string.escaped

/-- An upvalue laid out. -/
def Upvalue.outline (upvalue : Upvalue) : Outline :=
  .record "Upvalue"
    [.field "instack" (.natural upvalue.stackFlag.toNat),
      .field "idx" (.natural upvalue.index.toNat)]

/-- A local variable laid out. -/
def LocalVariable.outline (named : LocalVariable) : Outline :=
  .record "LocalVariable"
    [.field "varname" named.name.outline,
      .field "startpc" (.natural named.start.toNat),
      .field "endpc" (.natural named.stop.toNat)]

/-- Debug information laid out. -/
def DebugInfo.outline (debug : DebugInfo) : Outline :=
  .record "DebugInfo"
    [.field "lineinfo" (wordOutline debug.lines),
      .field "locals" (.list (debug.locals.map LocalVariable.outline)),
      .field "upvalue_names" (.list (debug.upvalueNames.map ByteString.outline))]

namespace Prototype

mutual

/-- A function laid out with everything nested in it. -/
def outline : Prototype → Outline
  | ⟨source, lineDefined, lastLineDefined, parameterCount, varargFlag, stackSize, code, constants,
      upvalues, functions, debug⟩ =>
    .record "Prototype"
      [.field "source_name" source.outline,
        .field "line_defined" (.natural lineDefined.toNat),
        .field "last_line_defined" (.natural lastLineDefined.toNat),
        .field "num_params" (.natural parameterCount.toNat),
        .field "is_vararg" (.natural varargFlag.toNat),
        .field "max_stack_size" (.natural stackSize.toNat),
        .field "code" (wordOutline code),
        .field "constants" (.list (constants.map Constant.outline)),
        .field "upvalues" (.list (upvalues.map Upvalue.outline)),
        .field "prototypes" (.list (outlineAll functions)),
        .field "debug_info" debug.outline]

/-- Several functions laid out. -/
def outlineAll : List Prototype → List Outline
  | [] => []
  | first :: further => first.outline :: outlineAll further

end

/-- The text of the tree view. -/
def tree (prototype : Prototype) : String := prototype.outline.indented

end Prototype

end LuaChunk
