import LuaChunk.Proofs.Text.Numerals
import LuaChunk.Text.Escaped

/-!
# Strings with escapes read back

The escapes of bytes form a code: after its first one or two characters it is known how long an
escape is (`escapeLength`), and no escape begins with the quote that closes a string. Whatever the
bytes of a string are, the string is therefore known from the text between its quotes, and so is
the place where it ends (`ByteString.selfDelimiting_escaped`).
-/
namespace LuaChunk

namespace Text

section Codes

variable {α : Type} {code : α → List Char}

/-- The code of an item is known from any text that begins with it. -/
def SelfDelimiting (code : α → List Char) : Prop :=
  ∀ left right rest rest', code left ++ rest = code right ++ rest' → left = right ∧ rest = rest'

/-- Items are read one after the other up to a mark with which no code begins. -/
theorem flatMap_append_cons_inj {mark : Char} (delimits : SelfDelimiting code)
    (begins : ∀ item rest rest', code item ++ rest ≠ mark :: rest') {left right : List α}
    {rest rest' : List Char}
    (same : left.flatMap code ++ mark :: rest = right.flatMap code ++ mark :: rest') :
    left = right ∧ rest = rest' := by
  induction left generalizing right with
  | nil =>
    cases right with
    | nil => exact ⟨rfl, (List.cons.inj same).2⟩
    | cons other others =>
      rw [List.flatMap_nil, List.nil_append, List.flatMap_cons, List.append_assoc] at same
      exact absurd same.symm (begins other _ rest)
  | cons item further ih =>
    cases right with
    | nil =>
      rw [List.flatMap_nil, List.nil_append, List.flatMap_cons, List.append_assoc] at same
      exact absurd same (begins item _ rest')
    | cons other others =>
      rw [List.flatMap_cons, List.flatMap_cons, List.append_assoc, List.append_assoc] at same
      obtain ⟨first, behind⟩ := delimits item other _ _ same
      obtain ⟨tails, ends⟩ := ih behind
      exact ⟨by rw [first, tails], ends⟩

end Codes

/-- The length of the escape at the beginning of a text, by its first two characters. -/
def escapeLength (text : List Char) : Nat :=
  if text.head? = some '\\' then if text.tail.head? = some 'x' then 4 else 2 else 1

/-- The first escape of a text and what follows it. -/
def splitEscape (text : List Char) : List Char × List Char :=
  (text.take (escapeLength text), text.drop (escapeLength text))

/-- A text is one escape, and it does not close the string. -/
def isEscape (text : List Char) : Bool := text.length = escapeLength text && text != ['"']

/-- What follows an escape has no influence on its length. -/
theorem escapeLength_append {escape : List Char} (whole : escape.length = escapeLength escape)
    (rest : List Char) : escapeLength (escape ++ rest) = escape.length := by
  rw [whole]
  cases escape with
  | nil => contradiction
  | cons first further =>
    cases further with
    | nil =>
      have other : first ≠ '\\' := by
        rintro rfl
        contradiction
      simp [escapeLength, other]
    | cons second others => rfl

/-- An escape is found in front of any text. -/
theorem splitEscape_append {escape : List Char} (whole : isEscape escape = true)
    (rest : List Char) : splitEscape (escape ++ rest) = (escape, rest) := by
  have parts := Bool.and_eq_true_iff.mp whole
  have length := escapeLength_append (of_decide_eq_true parts.1) rest
  rw [splitEscape, length, List.take_left, List.drop_left]

/-- The byte of an escape. -/
def unescape : List Char → UInt8
  | ['\\', 't'] => 0x09
  | ['\\', 'r'] => 0x0D
  | ['\\', 'n'] => 0x0A
  | ['\\', 'x', high, low] => UInt8.ofNat (hexadecimalFrom 0 [high, low])
  | ['\\', character] => UInt8.ofNat character.toNat
  | [character] => UInt8.ofNat character.toNat
  | _ => 0

/-- Every byte is written as one escape, which denotes this byte. -/
theorem isEscape_escapedByte (byte : UInt8) :
    isEscape (escapedByte byte) = true ∧ unescape (escapedByte byte) = byte := by
  have all : ∀ value : Fin 256, isEscape (escapedByte (UInt8.ofFin value)) = true ∧
      unescape (escapedByte (UInt8.ofFin value)) = UInt8.ofFin value := by
    decide +kernel
  exact all byte.toFin

/-- The escapes of bytes end by themselves. -/
theorem selfDelimiting_escapedByte : SelfDelimiting escapedByte := by
  intro left right rest rest' same
  have split := congrArg splitEscape same
  rw [splitEscape_append (isEscape_escapedByte left).1,
    splitEscape_append (isEscape_escapedByte right).1, Prod.mk.injEq] at split
  have bytes := congrArg unescape split.1
  rw [(isEscape_escapedByte left).2, (isEscape_escapedByte right).2] at bytes
  exact ⟨bytes, split.2⟩

/-- No escape begins with the quote that closes a string. -/
theorem escapedByte_append_ne_quote (byte : UInt8) (rest rest' : List Char) :
    escapedByte byte ++ rest ≠ '"' :: rest' := by
  intro same
  have whole := (isEscape_escapedByte byte).1
  have split := congrArg splitEscape same
  rw [splitEscape_append whole] at split
  have quote : escapedByte byte = ['"'] := (Prod.mk.inj split).1
  rw [quote] at whole
  contradiction

end Text

namespace ByteString

open Text

/-- The texts of strings end by themselves. -/
theorem selfDelimiting_escaped :
    SelfDelimiting fun string : ByteString => string.escaped.toList := by
  intro left right rest rest' same
  simp only [escaped, String.toList_ofList, List.cons_append, List.append_assoc,
    List.nil_append, List.cons.injEq, true_and] at same
  obtain ⟨bytes, behind⟩ := flatMap_append_cons_inj selfDelimiting_escapedByte
    escapedByte_append_ne_quote same
  cases left
  cases right
  exact ⟨congrArg mk bytes, behind⟩

/-- Strings are determined by their texts with escapes. -/
@[simp] theorem escaped_inj (left right : ByteString) :
    left.escaped = right.escaped ↔ left = right := by
  refine ⟨fun same => ?_, congrArg escaped⟩
  have texts : left.escaped.toList ++ [] = right.escaped.toList ++ [] := by rw [same]
  exact (selfDelimiting_escaped left right [] [] texts).1

end ByteString

end LuaChunk
