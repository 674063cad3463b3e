import LuaChunk.Listing
import LuaChunk.Proofs.Decimal.Notation
import LuaChunk.Proofs.Inheritance

/-!
# The lines of a listing

A listing shows some of what a function holds and nothing else: `Prototype.listedForm` is what it
shows. The listing of a function is a list of lines that follow from this form
(`Prototype.toList_listing`), and no line has a line feed in it unless one of the names shown has
(`Prototype.oneLined_lines`): the texts of constants never do, because strings are quoted.
-/
namespace LuaChunk

open Text

/-- What a listing shows of a function and of everything nested in it. -/
structure ListedFunction where
  /-- The line where the function begins. -/
  lineDefined : UInt32
  /-- The line where the function ends. -/
  lastLineDefined : UInt32
  /-- The name of the chunk for display. -/
  name : String
  /-- The number of fixed parameters. -/
  parameterCount : UInt8
  /-- Whether the function takes further arguments. -/
  isVararg : Bool
  /-- The number of registers. -/
  stackSize : UInt8
  /-- Each instruction word with its line, if there is one. -/
  code : List (UInt32 × Option UInt32)
  /-- The text of each constant. -/
  constants : List String
  /-- The text of the name of each local variable, with the first instruction where it is alive and
  the first one where it is not. -/
  locals : List (String × UInt32 × UInt32)
  /-- Each upvalue with the text for its name. -/
  upvalues : List (Upvalue × String)
  /-- What is shown of the functions nested directly in this one. -/
  functions : List ListedFunction

namespace Prototype

/-- The text for the name of an upvalue, a hyphen if it has none. -/
def shownUpvalueName (prototype : Prototype) (index : Nat) : String :=
  ((prototype.debug.upvalueName? index).map ByteString.toText).getD "-"

mutual

/-- What the listing shows of a function. -/
def listedForm : Prototype → ListedFunction
  | prototype@{ functions, .. } =>
    { lineDefined := prototype.lineDefined
      lastLineDefined := prototype.lastLineDefined
      name := prototype.source.displayName
      parameterCount := prototype.parameterCount
      isVararg := prototype.isVararg
      stackSize := prototype.stackSize
      code := prototype.code.mapIdx fun index word => (word, prototype.debug.line? index)
      constants := prototype.constants.map Constant.listed
      locals := prototype.debug.locals.map fun named =>
        (named.name.toText, named.start, named.stop)
      upvalues := prototype.upvalues.mapIdx fun index upvalue =>
        (upvalue, prototype.shownUpvalueName index)
      functions := listedForms functions }

/-- What the listing shows of several functions. -/
def listedForms : List Prototype → List ListedFunction
  | [] => []
  | first :: further => first.listedForm :: listedForms further

end

/-- What the listing shows of a function, field by field. -/
theorem listedForm_eq (prototype : Prototype) :
    prototype.listedForm =
      { lineDefined := prototype.lineDefined
        lastLineDefined := prototype.lastLineDefined
        name := prototype.source.displayName
        parameterCount := prototype.parameterCount
        isVararg := prototype.isVararg
        stackSize := prototype.stackSize
        code := prototype.code.mapIdx fun index word => (word, prototype.debug.line? index)
        constants := prototype.constants.map Constant.listed
        locals := prototype.debug.locals.map fun named =>
          (named.name.toText, named.start, named.stop)
        upvalues := prototype.upvalues.mapIdx fun index upvalue =>
          (upvalue, prototype.shownUpvalueName index)
        functions := listedForms prototype.functions } := by
  cases prototype
  rfl

/-- What is shown of several functions is shown of each one. -/
theorem listedForms_eq_map (prototypes : List Prototype) :
    listedForms prototypes = prototypes.map listedForm := by
  induction prototypes with
  | nil => rfl
  | cons first further ih => rw [listedForms, ih, List.map_cons]

end Prototype

namespace Listing

/-- The characters of a line of a table. -/
def tableLine (entries : List String) : List Char :=
  '\t' :: ['\t'].intercalate (entries.map String.toList)

/-- The lines of a table for numbered items, the first one with the given number. -/
def tableLines {α : Type} (entries : Nat → α → List String) : Nat → List α → List (List Char)
  | _, [] => []
  | number, item :: further =>
    tableLine (entries number item) :: tableLines entries (number + 1) further

/-- The entries for the text of a constant. -/
def constantText (number : Nat) (text : String) : List String := [toString number, text]

/-- The entries for the text of a local variable and the instructions where it is alive. -/
def localText (number : Nat) : String × UInt32 × UInt32 → List String
  | (name, start, stop) =>
    [toString number, name, toString (start.toNat + 1), toString (stop.toNat + 1)]

/-- The entries for an upvalue and the text for its name. -/
def upvalueText (number : Nat) : Upvalue × String → List String
  | (upvalue, name) =>
    [toString number, name, toString upvalue.stackFlag.toNat, toString upvalue.index.toNat]

/-- The line that introduces a table. -/
def headingLine (name : String) (size : Nat) : List Char :=
  (name ++ " ").toList ++ counted '(' size "):"

section Tables

variable {α β : Type}

/-- A table appends its lines. -/
theorem toList_appendNumbered (entries : Nat → α → List String) (number : Nat) (text : String)
    (items : List α) :
    (appendNumbered entries number text items).toList =
      text.toList ++ ofLines (tableLines entries number items) := by
  induction items generalizing number text with
  | nil => simp [appendNumbered, tableLines]
  | cons item further ih =>
    rw [appendNumbered, ih, tableLines, ofLines_cons]
    simp [line, tableLine, String.toList_append, String.toList_intercalate]

/-- The lines of items that are changed before. -/
theorem tableLines_map (entries : Nat → β → List String) (change : α → β) (number : Nat)
    (items : List α) :
    tableLines entries number (items.map change) =
      tableLines (fun number item => entries number (change item)) number items := by
  induction items generalizing number with
  | nil => rfl
  | cons item further ih => rw [List.map_cons, tableLines, ih, tableLines]

/-- Items are aligned with the notes that have their places. -/
theorem align_eq (items : List α) (notes : List β) :
    align items notes = items.mapIdx fun index item => (item, notes[index]?) := by
  apply List.ext_getElem?
  intro index
  rw [align, List.zip_eq_zipWith, List.getElem?_zipWith, List.getElem?_mapIdx]
  by_cases inside : index < items.length
  · have note : (notes.map some ++ List.replicate (items.length - notes.length) none)[index]? =
        some notes[index]? := by
      by_cases noted : index < notes.length
      · rw [List.getElem?_append_left (by simpa using noted)]
        simp [noted]
      · rw [List.getElem?_append_right (by simpa using noted), List.length_map,
          List.getElem?_replicate, if_pos (by omega),
          List.getElem?_eq_none (Nat.le_of_not_lt noted)]
    simp [note, inside]
  · simp [List.getElem?_eq_none (Nat.le_of_not_lt inside)]

end Tables

/-- A quoted byte has no line feed. -/
theorem newline_notMem_quotedByte (byte : UInt8) : '\n' ∉ quotedByte byte := by
  have all : ∀ value : Fin 256, '\n' ∉ quotedByte (UInt8.ofFin value) := by decide +kernel
  exact all byte.toFin

/-- The text of a constant has no line feed, not even if the constant is a string that has one. -/
theorem newline_notMem_listed (constant : Constant) : '\n' ∉ constant.listed.toList := by
  have feed : isWordCharacter '\n' = false := by decide
  cases constant with
  | nil => exact (by decide : '\n' ∉ "nil".toList)
  | boolean value => cases value <;> decide
  | integer value => exact (isWord_toString_int value.toInt).notMem feed
  | number value => exact value.isWord_listed.notMem feed
  | string value => simp [Constant.listed, ByteString.quoted, newline_notMem_quotedByte]

/-- A numeral with its mark and its label has a line feed only if one of these has. -/
@[simp] theorem newline_mem_counted (mark : Char) (number : Nat) (label : String) :
    '\n' ∈ counted mark number label ↔ '\n' = mark ∨ '\n' ∈ label.toList := by
  have digits : '\n' ∉ Nat.toDigits 10 number := (isWord_toDigits number).notMem (by decide)
  simp [counted, digits]

/-- A line of a table has a line feed only if one of its entries has. -/
theorem newline_notMem_tableLine {entries : List String}
    (each : ∀ entry ∈ entries, '\n' ∉ entry.toList) : '\n' ∉ tableLine entries := by
  have joined : '\n' ∉ ['\t'].intercalate (entries.map String.toList) := by
    induction entries with
    | nil => simp
    | cons first further ih =>
      rw [List.forall_mem_cons] at each
      cases further with
      | nil => simpa using each.1
      | cons second others =>
        have rest := ih each.2
        simpa [each.1] using rest
  simp [tableLine, joined]

/-- The lines of a table have no line feeds if the entries have none. -/
theorem oneLined_tableLines {α : Type} {entries : Nat → α → List String} (number : Nat)
    {items : List α}
    (each : ∀ number, ∀ item ∈ items, ∀ entry ∈ entries number item, '\n' ∉ entry.toList) :
    OneLined (tableLines entries number items) := by
  induction items generalizing number with
  | nil => exact oneLined_nil
  | cons item further ih =>
    rw [tableLines, oneLined_cons]
    constructor
    · exact newline_notMem_tableLine (each number item List.mem_cons_self)
    · apply ih
      intro number item member
      exact each number item (List.mem_cons_of_mem _ member)

end Listing

namespace ListedFunction

open Listing

/-- The line that says what a function is. -/
def bannerLine (form : ListedFunction) : List Char :=
  (if form.lineDefined = 0 then "main" else "function").toList ++ " <".toList ++
    form.name.toList ++ counted ':' form.lineDefined.toNat "" ++
    counted ',' form.lastLineDefined.toNat "> " ++ counted '(' form.code.length " instructions)"

/-- The line that says how large a function is. -/
def sizesLine (form : ListedFunction) : List Char :=
  Nat.toDigits 10 form.parameterCount.toNat ++ (if form.isVararg then "+" else "").toList ++
    " params,".toList ++ counted ' ' form.stackSize.toNat " slots," ++
    counted ' ' form.upvalues.length " upvalues," ++ counted ' ' form.locals.length " locals," ++
    counted ' ' form.constants.length " constants," ++
    counted ' ' form.functions.length " functions"

/-- The lines of a function without the functions nested in it. -/
def blockLines (form : ListedFunction) : List (List Char) :=
  [[], form.bannerLine, [], form.sizesLine] ++ tableLines instruction 1 form.code ++
    [headingLine "constants" form.constants.length] ++ tableLines constantText 1 form.constants ++
    [headingLine "locals" form.locals.length] ++ tableLines localText 0 form.locals ++
    [headingLine "upvalues" form.upvalues.length] ++ tableLines upvalueText 0 form.upvalues

mutual

/-- The lines of a function: its own, then those of the functions nested in it. -/
def lines : ListedFunction → List (List Char)
  | form@{ functions, .. } => form.blockLines ++ linesAll functions

/-- The lines of several functions. -/
def linesAll : List ListedFunction → List (List Char)
  | [] => []
  | first :: further => first.lines ++ linesAll further

end

/-- The lines of a function are its own and then those of the functions nested in it. -/
theorem lines_eq (form : ListedFunction) :
    form.lines = form.blockLines ++ linesAll form.functions := by
  cases form
  rw [lines]

/-- The lines of several functions are those of each one. -/
theorem linesAll_eq_flatMap (forms : List ListedFunction) :
    linesAll forms = forms.flatMap lines := by
  induction forms with
  | nil => rfl
  | cons first further ih => rw [linesAll, ih, List.flatMap_cons]

/-- No name that is shown of the function itself has a line feed. -/
def SingleLined (form : ListedFunction) : Prop :=
  '\n' ∉ form.name.toList ∧ (∀ named ∈ form.locals, '\n' ∉ named.1.toList) ∧
    ∀ named ∈ form.upvalues, '\n' ∉ named.2.toList

instance decidableSingleLined : DecidablePred SingleLined := fun form =>
  inferInstanceAs (Decidable ('\n' ∉ form.name.toList ∧
    (∀ named ∈ form.locals, '\n' ∉ named.1.toList) ∧
      ∀ named ∈ form.upvalues, '\n' ∉ named.2.toList))

/-- The lines of a block have no line feeds if the names and the texts of the constants have
none. -/
theorem oneLined_blockLines {form : ListedFunction} (names : form.SingleLined)
    (constants : ∀ text ∈ form.constants, '\n' ∉ text.toList) : OneLined form.blockLines := by
  have digits (value : Nat) : '\n' ∉ Nat.toDigits 10 value :=
    (isWord_toDigits value).notMem (by decide)
  have word (value : UInt32) : '\n' ∉ (Text.word value).toList :=
    (isWord_word value).notMem (by decide)
  have banner : '\n' ∉ form.bannerLine := by
    unfold bannerLine
    split <;> simp [names.1]
  have sizes : '\n' ∉ form.sizesLine := by
    unfold sizesLine
    split <;> simp [digits]
  have code : OneLined (tableLines instruction 1 form.code) := by
    apply oneLined_tableLines
    rintro number ⟨value, line⟩ -
    cases line <;> simp [instruction, digits, word]
  have texts : OneLined (tableLines constantText 1 form.constants) := by
    apply oneLined_tableLines
    intro number text member
    simp [constantText, digits, constants text member]
  have locals : OneLined (tableLines localText 0 form.locals) := by
    apply oneLined_tableLines
    intro number named member
    simp [localText, digits, names.2.1 named member]
  have upvalues : OneLined (tableLines upvalueText 0 form.upvalues) := by
    apply oneLined_tableLines
    intro number named member
    simp [upvalueText, digits, names.2.2 named member]
  simp [blockLines, headingLine, banner, sizes, code, texts, locals, upvalues]

end ListedFunction

namespace Prototype

open Listing

/-- The first lines of a block. -/
theorem toList_banner (prototype : Prototype) :
    prototype.banner.toList =
      ofLines [[], prototype.listedForm.bannerLine, [], prototype.listedForm.sizesLine] := by
  unfold banner ListedFunction.bannerLine ListedFunction.sizesLine
  simp only [listedForm_eq, isMain, String.toList_append, toList_toString_nat, counted,
    ofLines_cons, ofLines_nil, String.reduceToList, List.append_assoc, List.cons_append,
    List.nil_append, List.length_mapIdx, List.length_map, listedForms_eq_map, beq_iff_eq]

/-- The line that introduces a table, with its end. -/
theorem toList_heading (name : String) (size : Nat) :
    (heading name size).toList = ofLines [headingLine name size] := by
  simp [heading, headingLine, counted, String.toList_append]

/-- The table of upvalues has the names that the function shows. -/
theorem tableLines_upvalues (prototype : Prototype) (number : Nat) :
    tableLines upvalue number (align prototype.upvalues prototype.debug.upvalueNames) =
      tableLines upvalueText number prototype.listedForm.upvalues := by
  let named : Upvalue × Option ByteString → Upvalue × String :=
    fun item => (item.1, (item.2.map ByteString.toText).getD "-")
  have shown : prototype.listedForm.upvalues =
      (align prototype.upvalues prototype.debug.upvalueNames).map named := by
    apply List.ext_getElem?
    intro index
    simp [align_eq, listedForm_eq, shownUpvalueName, DebugInfo.upvalueName?, named,
      Function.comp_def]
  rw [shown, tableLines_map]
  rfl

/-- A block appends its lines. -/
theorem toList_appendBlock (text : String) (prototype : Prototype) :
    (prototype.appendBlock text).toList =
      text.toList ++ ofLines prototype.listedForm.blockLines := by
  have code : align prototype.code prototype.debug.lines = prototype.listedForm.code := by
    rw [align_eq, listedForm_eq]
    rfl
  have constants (number : Nat) : tableLines Listing.constant number prototype.constants =
      tableLines constantText number prototype.listedForm.constants := by
    rw [listedForm_eq, tableLines_map]
    rfl
  have locals (number : Nat) : tableLines Listing.localVariable number prototype.debug.locals =
      tableLines localText number prototype.listedForm.locals := by
    rw [listedForm_eq, tableLines_map]
    rfl
  have constantCount : prototype.listedForm.constants.length = prototype.constants.length := by
    rw [listedForm_eq, List.length_map]
  have localCount : prototype.listedForm.locals.length = prototype.debug.locals.length := by
    rw [listedForm_eq, List.length_map]
  have upvalueCount : prototype.listedForm.upvalues.length = prototype.upvalues.length := by
    rw [listedForm_eq, List.length_mapIdx]
  unfold appendBlock ListedFunction.blockLines
  simp only [toList_appendNumbered, String.toList_append, toList_banner, toList_heading, code,
    constants, locals, tableLines_upvalues, constantCount, localCount, upvalueCount,
    ofLines_append, List.append_assoc]

mutual

/-- A listing appends its lines. -/
theorem toList_appendListing (text : String) :
    ∀ prototype : Prototype,
      (prototype.appendListing text).toList =
        text.toList ++ ofLines prototype.listedForm.lines
  | prototype@⟨_, _, _, _, _, _, _, _, _, functions, _⟩ => by
    rw [appendListing, toList_appendListings _ functions, toList_appendBlock,
      ListedFunction.lines_eq, ofLines_append, List.append_assoc]
    rfl

/-- The listings of several functions append their lines. -/
theorem toList_appendListings (text : String) :
    ∀ prototypes : List Prototype,
      (appendListings text prototypes).toList =
        text.toList ++ ofLines (ListedFunction.linesAll (listedForms prototypes))
  | [] => (List.append_nil text.toList).symm
  | first :: further => by
    rw [appendListings, toList_appendListings _ further, toList_appendListing text first,
      listedForms, ListedFunction.linesAll, ofLines_append, List.append_assoc]

end

/-- A listing consists of the lines of what it shows. -/
theorem toList_listing (prototype : Prototype) :
    prototype.listing.toList = ofLines prototype.listedForm.lines := by
  rw [listing, toList_appendListing]
  rfl

/-- No name that the listing shows of the function itself has a line feed. -/
def SingleLined (prototype : Prototype) : Prop := prototype.listedForm.SingleLined

instance decidableSingleLined : DecidablePred SingleLined := fun prototype =>
  inferInstanceAs (Decidable prototype.listedForm.SingleLined)

/-- The texts of constants never have a line feed. -/
theorem newline_notMem_constants (prototype : Prototype) :
    ∀ text ∈ prototype.listedForm.constants, '\n' ∉ text.toList := by
  intro text member
  rw [listedForm_eq] at member
  obtain ⟨constant, -, rfl⟩ := List.mem_map.mp member
  exact newline_notMem_listed constant

/-- If no name that is shown has a line feed, then no line of the listing has. -/
theorem oneLined_lines (prototype : Prototype) (names : prototype.Everywhere SingleLined) :
    OneLined prototype.listedForm.lines := by
  induction prototype using nestedInduction with
  | step prototype ih =>
    obtain ⟨own, below⟩ := (everywhere_iff _ _).mp names
    have block := ListedFunction.oneLined_blockLines own prototype.newline_notMem_constants
    have nested : OneLined (ListedFunction.linesAll prototype.listedForm.functions) := by
      intro line member
      rw [listedForm_eq, ListedFunction.linesAll_eq_flatMap, listedForms_eq_map,
        List.mem_flatMap] at member
      obtain ⟨form, shown, inside⟩ := member
      obtain ⟨inner, among, rfl⟩ := List.mem_map.mp shown
      exact ih inner among (below inner among) line inside
    rw [ListedFunction.lines_eq, oneLined_append]
    exact ⟨block, nested⟩

end Prototype

end LuaChunk
