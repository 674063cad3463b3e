import LuaChunk.Proofs.Decimal.Notation
import LuaChunk.Proofs.Inheritance
import LuaChunk.Proofs.Text.Outline
import LuaChunk.Tree
import Mathlib.Data.List.Forall2

/-!
# Tree views are faithful

Two trees agree if they have the same fields in every function, where numbers are compared by their
texts (`Prototype.Agrees`). The tree view shows exactly this: its outline is readable, because every
name and every numeral is a word and every string has its escapes, and the outlines of two trees are
the same if and only if the trees agree (`Prototype.tree_eq_iff`).
-/
namespace LuaChunk

open Outline (Readable)

namespace Outline

open Text

/-- Numbers are known from their numerals. -/
@[simp] theorem natural_inj (left right : Nat) : natural left = natural right ↔ left = right := by
  rw [natural, natural, leaf.injEq, ← String.toList_inj, toList_toString_nat, toList_toString_nat,
    toDigits_inj]

/-- Words are known from their outline. -/
@[simp] theorem wordOutline_inj (left right : List UInt32) :
    wordOutline left = wordOutline right ↔ left = right := by
  rw [wordOutline, wordOutline, list.injEq, List.map_inj_right]
  intro word word'
  rw [natural_inj, UInt32.toNat_inj]
  exact id

/-- The outline of words is readable. -/
theorem readable_wordOutline (words : List UInt32) : Readable .list (wordOutline words) :=
  .map (fun _ => .word) fun word _ => .natural word.toNat

/-- Lists are laid out alike if and only if their items are in relation one by one, where the
relation is that of being laid out alike. -/
theorem map_eq_map_iff_forall₂ {α β γ : Type} {first : α → γ} {second : β → γ}
    {related : α → β → Prop} {left : List α} {right : List β}
    (each : ∀ item ∈ left, ∀ other, first item = second other ↔ related item other) :
    left.map first = right.map second ↔ List.Forall₂ related left right := by
  induction left generalizing right with
  | nil => cases right <;> simp
  | cons item further ih =>
    cases right with
    | nil => simp
    | cons other others =>
      rw [List.forall_mem_cons] at each
      rw [List.map_cons, List.map_cons, List.cons.injEq, List.forall₂_cons, each.1, ih each.2]

end Outline

namespace ByteString

/-- Strings are known from their outlines. -/
@[simp] theorem outline_inj (left right : ByteString) :
    left.outline = right.outline ↔ left = right := by
  rw [outline, outline, Outline.leaf.injEq, escaped_inj]

end ByteString

namespace Upvalue

/-- Upvalues are known from their outlines. -/
@[simp] theorem outline_inj (left right : Upvalue) :
    left.outline = right.outline ↔ left = right := by
  cases left
  cases right
  simp [outline, UInt8.toNat_inj]

/-- The outline of an upvalue is readable. -/
theorem readable_outline (upvalue : Upvalue) : Readable .record upvalue.outline := by
  apply Readable.record (by decide)
  simp only [List.forall_mem_cons]
  exact ⟨.field (by decide) (.natural _), .field (by decide) (.natural _), nofun⟩

end Upvalue

namespace LocalVariable

/-- Local variables are known from their outlines. -/
@[simp] theorem outline_inj (left right : LocalVariable) :
    left.outline = right.outline ↔ left = right := by
  cases left
  cases right
  simp [outline, UInt32.toNat_inj]

/-- The outline of a local variable is readable. -/
theorem readable_outline (named : LocalVariable) : Readable .record named.outline := by
  apply Readable.record (by decide)
  simp only [List.forall_mem_cons]
  exact ⟨.field (by decide) (.string named.name), .field (by decide) (.natural _),
    .field (by decide) (.natural _), nofun⟩

end LocalVariable

namespace DebugInfo

/-- Debug information is known from its outline. -/
@[simp] theorem outline_inj (left right : DebugInfo) :
    left.outline = right.outline ↔ left = right := by
  cases left
  cases right
  simp [outline, List.map_inj_right]

/-- The outline of debug information is readable. -/
theorem readable_outline (debug : DebugInfo) : Readable .record debug.outline := by
  have locals : Readable .list (.list (debug.locals.map LocalVariable.outline)) :=
    .map (fun _ => .record) fun named _ => named.readable_outline
  have names : Readable .list (.list (debug.upvalueNames.map ByteString.outline)) :=
    .map (fun _ => .string) fun name _ => .string name
  apply Readable.record (by decide)
  simp only [List.forall_mem_cons]
  exact ⟨.field (by decide) (Outline.readable_wordOutline debug.lines), .field (by decide) locals,
    .field (by decide) names, nofun⟩

end DebugInfo

namespace Constant

/-- Two constants are of one kind and have the same value, or they are numbers with the same
text. -/
def Agrees : Constant → Constant → Prop
  | number left, number right => left.shown = right.shown
  | left, right => left = right

/-- Constants agree exactly if they are laid out alike. -/
theorem outline_eq_iff (left right : Constant) :
    left.outline = right.outline ↔ left.Agrees right := by
  have booleans (value value' : Bool) : toString value = toString value' ↔ value = value' := by
    cases value <;> cases value' <;> decide
  have integers (value value' : Int64) :
      toString value.toInt = toString value'.toInt ↔ value = value' := by
    rw [Text.toString_int_inj, Int64.toInt_inj]
  cases left <;> cases right <;>
    simp only [outline, Agrees, Outline.leaf.injEq, Outline.variant.injEq, reduceCtorEq,
      string.injEq, boolean.injEq, integer.injEq, booleans, integers, ByteString.escaped_inj,
      String.reduceEq, true_and, false_and]

/-- How the outline of a constant begins: only that of nil is a leaf. -/
def opening : Outline → Outline.Opening
  | .leaf _ => .word
  | _ => .variant

/-- The outline of a constant is readable. -/
theorem readable_outline (constant : Constant) :
    Readable (opening constant.outline) constant.outline := by
  cases constant with
  | nil => exact .word (by decide)
  | boolean value => exact .variant (by decide) (.word (by cases value <;> decide))
  | integer value => exact .variant (by decide) (.word (Text.isWord_toString_int value.toInt))
  | number value => exact .variant (by decide) (.word value.isWord_shown)
  | string value => exact .variant (by decide) (.string value)

end Constant

namespace Prototype

/-- Two functions agree in every field but the functions nested in them. -/
structure AgreesAlone (left right : Prototype) : Prop where
  /-- The names of the chunk are the same. -/
  source : left.source = right.source
  /-- They begin in the same line. -/
  lineDefined : left.lineDefined = right.lineDefined
  /-- They end in the same line. -/
  lastLineDefined : left.lastLineDefined = right.lastLineDefined
  /-- They have as many parameters. -/
  parameterCount : left.parameterCount = right.parameterCount
  /-- The flags for further arguments are the same. -/
  varargFlag : left.varargFlag = right.varargFlag
  /-- They need as many registers. -/
  stackSize : left.stackSize = right.stackSize
  /-- They have the same instructions. -/
  code : left.code = right.code
  /-- Their constants agree one by one. -/
  constants : List.Forall₂ Constant.Agrees left.constants right.constants
  /-- They have the same upvalues. -/
  upvalues : left.upvalues = right.upvalues
  /-- They remember the same of their source. -/
  debug : left.debug = right.debug

/-- Two trees agree in every field of every function. -/
inductive Agrees : Prototype → Prototype → Prop where
  /-- The roots agree alone, and the functions nested in them agree one by one. -/
  | intro {left right : Prototype} (alone : left.AgreesAlone right)
      (nested : List.Forall₂ Agrees left.functions right.functions) : Agrees left right

/-- Two trees agree if their roots do and the trees below the roots do. -/
theorem agrees_iff (left right : Prototype) :
    left.Agrees right ↔
      left.AgreesAlone right ∧ List.Forall₂ Agrees left.functions right.functions := by
  constructor
  · rintro ⟨alone, nested⟩
    exact ⟨alone, nested⟩
  · rintro ⟨alone, nested⟩
    exact ⟨alone, nested⟩

/-- Several functions are laid out one by one. -/
theorem outlineAll_eq_map (prototypes : List Prototype) :
    outlineAll prototypes = prototypes.map outline := by
  induction prototypes with
  | nil => rfl
  | cons first further ih => rw [outlineAll, ih, List.map_cons]

/-- A function laid out, field by field. -/
theorem outline_eq (prototype : Prototype) :
    prototype.outline =
      .record "Prototype"
        [.field "source_name" prototype.source.outline,
          .field "line_defined" (.natural prototype.lineDefined.toNat),
          .field "last_line_defined" (.natural prototype.lastLineDefined.toNat),
          .field "num_params" (.natural prototype.parameterCount.toNat),
          .field "is_vararg" (.natural prototype.varargFlag.toNat),
          .field "max_stack_size" (.natural prototype.stackSize.toNat),
          .field "code" (wordOutline prototype.code),
          .field "constants" (.list (prototype.constants.map Constant.outline)),
          .field "upvalues" (.list (prototype.upvalues.map Upvalue.outline)),
          .field "prototypes" (.list (prototype.functions.map outline)),
          .field "debug_info" prototype.debug.outline] := by
  cases prototype
  rw [outline, outlineAll_eq_map]

/-- Trees agree exactly if they are laid out alike. -/
theorem outline_eq_iff (left right : Prototype) :
    left.outline = right.outline ↔ left.Agrees right := by
  induction left using nestedInduction generalizing right with
  | step left ih =>
    have constants : left.constants.map Constant.outline = right.constants.map Constant.outline ↔
        List.Forall₂ Constant.Agrees left.constants right.constants :=
      Outline.map_eq_map_iff_forall₂ fun constant _ => constant.outline_eq_iff
    have upvalues : left.upvalues.map Upvalue.outline = right.upvalues.map Upvalue.outline ↔
        left.upvalues = right.upvalues :=
      List.map_inj_right fun upvalue upvalue' => (upvalue.outline_inj upvalue').mp
    have functions : left.functions.map outline = right.functions.map outline ↔
        List.Forall₂ Agrees left.functions right.functions :=
      Outline.map_eq_map_iff_forall₂ ih
    rw [agrees_iff, outline_eq, outline_eq]
    simp only [Outline.record.injEq, List.cons.injEq, Outline.field.injEq, Outline.list.injEq,
      true_and, and_true, ByteString.outline_inj, Outline.natural_inj, Outline.wordOutline_inj,
      DebugInfo.outline_inj, UInt32.toNat_inj, UInt8.toNat_inj, constants, upvalues, functions]
    constructor
    · rintro ⟨source, lineDefined, lastLineDefined, parameterCount, varargFlag, stackSize, code,
        constants, upvalues, functions, debug⟩
      exact ⟨⟨source, lineDefined, lastLineDefined, parameterCount, varargFlag, stackSize, code,
        constants, upvalues, debug⟩, functions⟩
    · rintro ⟨alone, functions⟩
      exact ⟨alone.source, alone.lineDefined, alone.lastLineDefined, alone.parameterCount,
        alone.varargFlag, alone.stackSize, alone.code, alone.constants, alone.upvalues, functions,
        alone.debug⟩

/-- The outline of a tree is readable. -/
theorem readable_outline (prototype : Prototype) : Readable .record prototype.outline := by
  induction prototype using nestedInduction with
  | step prototype ih =>
    have constants : Readable .list (.list (prototype.constants.map Constant.outline)) :=
      .map Constant.opening fun constant _ => constant.readable_outline
    have upvalues : Readable .list (.list (prototype.upvalues.map Upvalue.outline)) :=
      .map (fun _ => .record) fun upvalue _ => upvalue.readable_outline
    have functions : Readable .list (.list (prototype.functions.map outline)) :=
      .map (fun _ => .record) ih
    rw [outline_eq]
    apply Readable.record (by decide)
    simp only [List.forall_mem_cons]
    exact ⟨.field (by decide) (.string prototype.source), .field (by decide) (.natural _),
      .field (by decide) (.natural _), .field (by decide) (.natural _),
      .field (by decide) (.natural _), .field (by decide) (.natural _),
      .field (by decide) (Outline.readable_wordOutline prototype.code),
      .field (by decide) constants, .field (by decide) upvalues, .field (by decide) functions,
      .field (by decide) prototype.debug.readable_outline, nofun⟩

/-- Two trees have the same tree view exactly if they agree in every field of every function, where
numbers are compared by their texts. -/
theorem tree_eq_iff (left right : Prototype) : left.tree = right.tree ↔ left.Agrees right := by
  rw [tree, tree, left.readable_outline.indented_inj right.readable_outline, outline_eq_iff]

end Prototype

end LuaChunk
