import LuaChunk.Proofs.Listing.Lines

/-!
# Listings are faithful

A block is read from its lines alone. The numbers of the banner and of the line below it stand
behind marks that no numeral has, so that they are found from the end of the line whatever the name
in front of them holds; they say how long the tables are and how many functions follow. The lines of
a function are therefore a code that ends by itself (`ListedFunction.lines_append_inj`), and two
trees have the same listing exactly if it shows the same of them (`Prototype.listing_eq_iff`).
-/
namespace LuaChunk

open Text

namespace Listing

/-- Entries of a table are told apart by the line in which they stand. -/
def Legible {α : Type} (entries : Nat → α → List String) : Prop :=
  ∀ number left right,
    tableLine (entries number left) = tableLine (entries number right) → left = right

/-- Tables of one size with legible entries are told apart, whatever stands behind them. -/
theorem tableLines_append_inj {α : Type} {entries : Nat → α → List String}
    (legible : Legible entries) {number : Nat} {left right : List α}
    {rest rest' : List (List Char)} (size : left.length = right.length)
    (same : tableLines entries number left ++ rest = tableLines entries number right ++ rest') :
    left = right ∧ rest = rest' := by
  induction left generalizing number right with
  | nil =>
    rw [List.length_nil, eq_comm, List.length_eq_zero_iff] at size
    rw [size] at same
    exact ⟨size.symm, same⟩
  | cons item further ih =>
    cases right with
    | nil => simp at size
    | cons other others =>
      rw [List.length_cons, List.length_cons, Nat.succ.injEq] at size
      rw [tableLines, tableLines, List.cons_append, List.cons_append, List.cons.injEq] at same
      have first := legible number item other same.1
      have behind := ih size same.2
      exact ⟨by rw [first, behind.1], behind.2⟩

/-- The text in brackets for a line, an underscore for none. -/
def bracketed : Option UInt32 → List Char
  | some line => '[' :: (Nat.toDigits 10 line.toNat ++ [']'])
  | none => ['[', '_', ']']

/-- The line of an instruction has three columns. -/
theorem tableLine_instruction (number : Nat) (word : UInt32) (line : Option UInt32) :
    tableLine (instruction number (word, line)) =
      '\t' :: Nat.toDigits 10 number ++ '\t' :: bracketed line ++
        '\t' :: (Text.word word).toList := by
  cases line <;> simp [tableLine, instruction, bracketed]

/-- Lines are told apart by their texts in brackets. -/
theorem bracketed_inj {left right : Option UInt32} (same : bracketed left = bracketed right) :
    left = right := by
  have digits : ∀ line : UInt32, Nat.toDigits 10 line.toNat ≠ ['_'] := by
    intro line written
    have underscore : '_' ∈ Nat.toDigits 10 line.toNat := by simp [written]
    exact absurd (isDigit_of_mem_toDigits underscore) (by decide)
  cases left with
  | none =>
    cases right with
    | none => rfl
    | some line =>
      have inside : ['_'] = Nat.toDigits 10 line.toNat :=
        List.append_cancel_right (List.cons.inj same).2
      exact absurd inside.symm (digits line)
  | some line =>
    cases right with
    | none =>
      have inside : Nat.toDigits 10 line.toNat = ['_'] :=
        List.append_cancel_right (List.cons.inj same).2
      exact absurd inside (digits line)
    | some other =>
      have inside := List.append_cancel_right (List.cons.inj same).2
      rw [toDigits_inj, UInt32.toNat_inj] at inside
      rw [inside]

/-- An instruction and its line are read from their columns. -/
theorem legible_instruction : Legible instruction := by
  rintro number ⟨word, line⟩ ⟨word', line'⟩ same
  rw [tableLine_instruction, tableLine_instruction,
    append_cons_inj_of_notMem ((isWord_word word).notMem (by decide))
      ((isWord_word word').notMem (by decide)), List.append_right_inj, String.toList_inj, word_inj]
    at same
  rw [bracketed_inj (List.cons.inj same.1).2, same.2]

/-- The line of a constant: its text is all that stands behind the number. -/
theorem tableLine_constantText (number : Nat) (text : String) :
    tableLine (constantText number text) =
      '\t' :: Nat.toDigits 10 number ++ '\t' :: text.toList := by
  simp [tableLine, constantText]

/-- The text of a constant is read from its line. -/
theorem legible_constantText : Legible constantText := by
  intro number left right same
  rwa [tableLine_constantText, tableLine_constantText, List.append_right_inj, List.cons_inj_right,
    String.toList_inj] at same

/-- The line of a local variable: the name may hold anything, the numbers stand at the end. -/
theorem tableLine_localText (number : Nat) (name : String) (start stop : UInt32) :
    tableLine (localText number (name, start, stop)) =
      '\t' :: Nat.toDigits 10 number ++ '\t' :: name.toList ++ counted '\t' (start.toNat + 1) "" ++
        counted '\t' (stop.toNat + 1) "" := by
  simp [tableLine, localText, counted]

/-- A local variable is read from its line. -/
theorem legible_localText : Legible localText := by
  rintro number ⟨name, start, stop⟩ ⟨name', start', stop'⟩ same
  rw [tableLine_localText, tableLine_localText, append_counted_inj (by decide),
    append_counted_inj (by decide), List.append_right_inj, List.cons_inj_right, String.toList_inj,
    Nat.add_right_cancel_iff, Nat.add_right_cancel_iff, UInt32.toNat_inj, UInt32.toNat_inj] at same
  rw [same.1.1, same.1.2, same.2]

/-- The line of an upvalue: the name may hold anything, the numbers stand at the end. -/
theorem tableLine_upvalueText (number : Nat) (upvalue : Upvalue) (name : String) :
    tableLine (upvalueText number (upvalue, name)) =
      '\t' :: Nat.toDigits 10 number ++ '\t' :: name.toList ++
        counted '\t' upvalue.stackFlag.toNat "" ++ counted '\t' upvalue.index.toNat "" := by
  simp [tableLine, upvalueText, counted]

/-- An upvalue is read from its line. -/
theorem legible_upvalueText : Legible upvalueText := by
  rintro number ⟨upvalue, name⟩ ⟨upvalue', name'⟩ same
  rw [tableLine_upvalueText, tableLine_upvalueText, append_counted_inj (by decide),
    append_counted_inj (by decide), List.append_right_inj, List.cons_inj_right, String.toList_inj,
    UInt8.toNat_inj, UInt8.toNat_inj] at same
  obtain ⟨⟨names, flags⟩, indices⟩ := same
  have upvalues : upvalue = upvalue' := by
    cases upvalue
    cases upvalue'
    rw [Upvalue.mk.injEq]
    exact ⟨flags, indices⟩
  rw [upvalues, names]

end Listing

namespace ListedFunction

open Listing

/-- The banner is read from its end up to the name. -/
theorem bannerLine_inj {left right : ListedFunction}
    (same : left.bannerLine = right.bannerLine) :
    left.lineDefined = right.lineDefined ∧ left.lastLineDefined = right.lastLineDefined ∧
      left.name = right.name ∧ left.code.length = right.code.length := by
  rw [bannerLine, bannerLine, append_counted_inj (by decide), append_counted_inj (by decide),
    append_counted_inj (by decide), UInt32.toNat_inj, UInt32.toNat_inj] at same
  obtain ⟨⟨⟨front, lineDefined⟩, lastLineDefined⟩, size⟩ := same
  rw [lineDefined, List.append_right_inj, String.toList_inj] at front
  exact ⟨lineDefined, lastLineDefined, front, size⟩

/-- A numeral is told from a numeral with a sign behind it. -/
theorem toDigits_append_sign_inj {left right : Nat} {sign sign' : Bool}
    (same : Nat.toDigits 10 left ++ (if sign then "+" else "").toList =
      Nat.toDigits 10 right ++ (if sign' then "+" else "").toList) :
    left = right ∧ sign = sign' := by
  have unsigned : ∀ value, '+' ∉ Nat.toDigits 10 value :=
    fun value => (isWord_toDigits value).notMem (by decide)
  have occurs : ∀ (value : Nat) (sign : Bool),
      '+' ∈ Nat.toDigits 10 value ++ (if sign then "+" else "").toList ↔ sign = true := by
    intro value sign
    cases sign <;> simp [unsigned]
  have signs : sign = sign' := by
    rw [Bool.eq_iff_iff, ← occurs left sign, same, occurs]
  rw [signs, List.append_left_inj, toDigits_inj] at same
  exact ⟨same, signs⟩

/-- The sizes are read from the end of their line. -/
theorem sizesLine_inj {left right : ListedFunction} (same : left.sizesLine = right.sizesLine) :
    (left.parameterCount = right.parameterCount ∧ left.isVararg = right.isVararg ∧
        left.stackSize = right.stackSize) ∧
      left.upvalues.length = right.upvalues.length ∧ left.locals.length = right.locals.length ∧
      left.constants.length = right.constants.length ∧
      left.functions.length = right.functions.length := by
  rw [sizesLine, sizesLine, append_counted_inj (by decide), append_counted_inj (by decide),
    append_counted_inj (by decide), append_counted_inj (by decide), append_counted_inj (by decide),
    List.append_left_inj, UInt8.toNat_inj] at same
  obtain ⟨⟨⟨⟨⟨front, stackSize⟩, upvalues⟩, locals⟩, constants⟩, functions⟩ := same
  obtain ⟨parameterCount, isVararg⟩ := toDigits_append_sign_inj front
  rw [UInt8.toNat_inj] at parameterCount
  exact ⟨⟨parameterCount, isVararg, stackSize⟩, upvalues, locals, constants, functions⟩

/-- A block is determined by its lines whatever follows, except for the functions nested in it, of
which it tells the number. -/
theorem blockLines_append_inj {left right : ListedFunction} {rest rest' : List (List Char)}
    (same : left.blockLines ++ rest = right.blockLines ++ rest') :
    (left.functions = right.functions → left = right) ∧
      left.functions.length = right.functions.length ∧ rest = rest' := by
  unfold blockLines at same
  simp only [List.append_assoc, List.cons_append, List.nil_append, List.cons.injEq] at same
  obtain ⟨-, banner, -, sizes, tables⟩ := same
  obtain ⟨lineDefined, lastLineDefined, name, codeSize⟩ := bannerLine_inj banner
  obtain ⟨⟨parameterCount, isVararg, stackSize⟩, upvalueSize, localSize, constantSize, nested⟩ :=
    sizesLine_inj sizes
  obtain ⟨code, tables⟩ := tableLines_append_inj legible_instruction codeSize tables
  obtain ⟨constants, tables⟩ :=
    tableLines_append_inj legible_constantText constantSize (List.cons.inj tables).2
  obtain ⟨locals, tables⟩ :=
    tableLines_append_inj legible_localText localSize (List.cons.inj tables).2
  obtain ⟨upvalues, behind⟩ :=
    tableLines_append_inj legible_upvalueText upvalueSize (List.cons.inj tables).2
  refine ⟨fun functions => ?_, nested, behind⟩
  cases left
  cases right
  rw [mk.injEq]
  exact ⟨lineDefined, lastLineDefined, name, parameterCount, isVararg, stackSize, code, constants,
    locals, upvalues, functions⟩

mutual

/-- The lines of a function end by themselves: they determine what is shown of it and what stands
behind them. -/
theorem lines_append_inj :
    ∀ (left right : ListedFunction) {rest rest' : List (List Char)},
      left.lines ++ rest = right.lines ++ rest' → left = right ∧ rest = rest'
  | ⟨_, _, _, _, _, _, _, _, _, _, functions⟩, right, _, _, same => by
    rw [lines_eq, lines_eq, List.append_assoc, List.append_assoc] at same
    obtain ⟨own, size, below⟩ := blockLines_append_inj same
    obtain ⟨nested, behind⟩ := linesAll_append_inj functions right.functions size below
    exact ⟨own nested, behind⟩

/-- So do the lines of several functions, if it is known how many they are. -/
theorem linesAll_append_inj :
    ∀ (left right : List ListedFunction) {rest rest' : List (List Char)},
      left.length = right.length → linesAll left ++ rest = linesAll right ++ rest' →
        left = right ∧ rest = rest'
  | [], [], _, _, _, same => ⟨rfl, same⟩
  | first :: further, other :: others, rest, rest', size, same => by
    rw [linesAll, linesAll, List.append_assoc, List.append_assoc] at same
    obtain ⟨heads, below⟩ := lines_append_inj first other same
    obtain ⟨tails, behind⟩ :=
      linesAll_append_inj further others (Nat.succ.inj size) below
    exact ⟨by rw [heads, tails], behind⟩

end

end ListedFunction

namespace Prototype

/-- Two trees whose names have no line feeds have the same listing exactly if it shows the same of
them. -/
theorem listing_eq_iff (left right : Prototype) (leftNames : left.Everywhere SingleLined)
    (rightNames : right.Everywhere SingleLined) :
    left.listing = right.listing ↔ left.listedForm = right.listedForm := by
  rw [← String.toList_inj, toList_listing, toList_listing,
    ofLines_inj (oneLined_lines left leftNames) (oneLined_lines right rightNames)]
  constructor
  · intro same
    have behind : left.listedForm.lines ++ [] = right.listedForm.lines ++ [] := by rw [same]
    exact (ListedFunction.lines_append_inj _ _ behind).1
  · intro same
    rw [same]

/-- Two functions have the same listing although they differ in a line without an instruction, in a
flag that is not zero, and in a byte of a local name that belongs to no character. The name of their
chunk holds the marks of a banner, and their constant is a line feed. -/
theorem listing_eq_iff_surplus :
    let left : Prototype :=
      ⟨⟨[0x40, 0x61, 0x3A, 0x31, 0x2C, 0x3E, 0x09]⟩, 0, 5, 0, 1, 2, [7], [.string ⟨[0x0A]⟩],
        [⟨1, 0⟩], [], ⟨[3, 4], [⟨⟨[0x78, 0xFF]⟩, 0, 1⟩], []⟩⟩
    let right : Prototype :=
      { left with varargFlag := 2, debug := ⟨[3], [⟨⟨[0x78, 0xFE]⟩, 0, 1⟩], []⟩ }
    left ≠ right ∧ left.Everywhere SingleLined ∧ right.Everywhere SingleLined ∧
      left.listing = right.listing := by
  intro left right
  have leftNames : left.Everywhere SingleLined := by decide +kernel
  have rightNames : right.Everywhere SingleLined := by decide +kernel
  have locals : ByteString.toText ⟨[0x78, 0xFF]⟩ = ByteString.toText ⟨[0x78, 0xFE]⟩ := by
    decide +kernel
  have shown : left.listedForm = right.listedForm := by
    rw [listedForm_eq, listedForm_eq]
    simp [left, right, locals, isVararg, DebugInfo.line?, shownUpvalueName,
      DebugInfo.upvalueName?]
  exact ⟨by decide, leftNames, rightNames,
    (listing_eq_iff left right leftNames rightNames).mpr shown⟩

end Prototype

end LuaChunk
