import LuaChunk.Proofs.Text.Escaped
import LuaChunk.Text.Quoted

/-!
# Quoted strings read back

A reader of quoted strings as Lua has them: behind a backslash stand one of nine characters with a
meaning or as many decimal digits as follow, but no more than three (`Text.readQuoted`). It knows
nothing of how the strings are written. Each byte of a string is written as one item that such a
reader takes whole whatever follows it (`Text.readItems_append`), because a decimal escape is always
written with three digits. So the text of a string says where it ends and which bytes it has
(`ByteString.quoted_lossless`).
-/
namespace LuaChunk

namespace Text

/-- The characters with a meaning behind a backslash, and the bytes that they stand for. -/
def namedEscapes : List (Char × UInt8) :=
  [('"', 0x22), ('\\', 0x5C), ('a', 0x07), ('b', 0x08), ('f', 0x0C), ('n', 0x0A), ('r', 0x0D),
    ('t', 0x09), ('v', 0x0B)]

/-- The number of characters of the first item of a text between quotes. A backslash takes the
digits that follow it, three at most, or else one character. -/
def itemLength (text : List Char) : Nat :=
  if text.head? = some '\\' then 1 + max 1 ((text.tail.take 3).takeWhile Char.isDigit).length
  else 1

/-- The bytes that an item stands for, if it is allowed: a decimal escape is a number below 256, and
a line does not end inside of a string. -/
def itemBytes? (item : List Char) : Option (List UInt8) :=
  if item.head? = some '\\' then
    if item.tail ≠ [] ∧ item.tail.all Char.isDigit then
      let value := Nat.ofDigitChars 10 item.tail 0
      if value < 256 then some [UInt8.ofNat value] else none
    else (item.tail.head?.bind fun character => List.lookup character namedEscapes).map ([·])
  else if item.head? = some '\n' ∨ item.head? = some '\r' then none
  else some (item.flatMap String.utf8EncodeChar)

/-- Read items up to the quote that closes a string, and return what stands behind it. -/
def readItems : List Char → Option (List UInt8 × List Char)
  | [] => none
  | first :: further =>
    if first = '"' then some ([], further)
    else do
      let text := first :: further
      let bytes ← itemBytes? (text.take (itemLength text))
      let (others, rest) ← readItems (text.drop (itemLength text))
      some (bytes ++ others, rest)
termination_by text => text.length
decreasing_by
  have some : 1 ≤ itemLength (first :: further) := by
    unfold itemLength
    split <;> omega
  simp only [List.length_drop, List.length_cons]
  omega

/-- Read a quoted string, and return what stands behind it. -/
def readQuoted (text : List Char) : Option (List UInt8 × List Char) :=
  if text.head? = some '"' then readItems text.tail else none

/-- For each character of a text whether it is a quote without a backslash that escapes it. -/
def quoteMarks (escaped : Bool) : List Char → List Bool
  | [] => []
  | first :: further =>
    (!escaped && first == '"') :: quoteMarks (!escaped && first == '\\') further

/-- Whether a text ends with a backslash that escapes what follows. -/
def endsEscaped (escaped : Bool) (text : List Char) : Bool :=
  text.foldl (fun escaped character => !escaped && character == '\\') escaped

/-- A character of printable ASCII. -/
def isPrintable (character : Char) : Bool := ' ' ≤ character && character ≤ '~'

/-- A text is one item that does not change with what follows it: one character, or a backslash with
a character that is no digit or with three digits. -/
def isItem (text : List Char) : Bool :=
  if text.head? = some '\\' then
    text.length = 2 && !text.tail.all Char.isDigit || text.length = 4 && text.tail.all Char.isDigit
  else text.length = 1

/-- How a byte is written: as one item, which stands for this byte, does not close the string, has
no quotes that are not escaped and is printable. -/
theorem quotedByte_item (byte : UInt8) :
    isItem (quotedByte byte) = true ∧ itemBytes? (quotedByte byte) = some [byte] ∧
      quotedByte byte ≠ ['"'] ∧
      quoteMarks false (quotedByte byte) = List.replicate (quotedByte byte).length false ∧
      endsEscaped false (quotedByte byte) = false ∧
      (quotedByte byte).all isPrintable = true := by
  have all : ∀ value : Fin 256,
      isItem (quotedByte (UInt8.ofFin value)) = true ∧
        itemBytes? (quotedByte (UInt8.ofFin value)) = some [UInt8.ofFin value] ∧
        quotedByte (UInt8.ofFin value) ≠ ['"'] ∧
        quoteMarks false (quotedByte (UInt8.ofFin value)) =
          List.replicate (quotedByte (UInt8.ofFin value)).length false ∧
        endsEscaped false (quotedByte (UInt8.ofFin value)) = false ∧
        (quotedByte (UInt8.ofFin value)).all isPrintable = true := by
    decide +kernel
  exact all byte.toFin

/-- What follows an item has no influence on its length. -/
theorem itemLength_append {item : List Char} (whole : isItem item = true) (rest : List Char) :
    itemLength (item ++ rest) = item.length := by
  unfold isItem at whole
  by_cases marked : item.head? = some '\\'
  · obtain ⟨further, rfl⟩ := List.head?_eq_some_iff.mp marked
    rw [if_pos marked] at whole
    have shape : further.length = 1 ∧ further.all Char.isDigit = false ∨
        further.length = 3 ∧ further.all Char.isDigit = true := by
      simpa using whole
    have length : itemLength (('\\' :: further) ++ rest) =
        1 + max 1 (((further ++ rest).take 3).takeWhile Char.isDigit).length := rfl
    rw [length, List.length_cons]
    cases shape with
    | inl named =>
      obtain ⟨character, rfl⟩ := List.length_eq_one_iff.mp named.1
      have letter : character.isDigit = false := by simpa using named.2
      simp [letter]
    | inr decimal =>
      have digits : (further ++ rest).take 3 = further := by
        rw [← decimal.1, List.take_left]
      have all : (further ++ []).takeWhile Char.isDigit =
          further ++ [].takeWhile Char.isDigit :=
        List.takeWhile_append_of_pos (List.all_eq_true.mp decimal.2)
      rw [List.takeWhile_nil, List.append_nil] at all
      rw [digits, all, decimal.1]
      rfl
  · rw [if_neg marked] at whole
    obtain ⟨character, rfl⟩ := List.length_eq_one_iff.mp (of_decide_eq_true whole)
    exact if_neg marked

/-- An item that does not close the string is read in front of any text. -/
theorem readItems_append {item : List Char} {bytes : List UInt8} (whole : isItem item = true)
    (stands : itemBytes? item = some bytes) (inside : item ≠ ['"']) (rest : List Char) :
    readItems (item ++ rest) = (readItems rest).map (Prod.map (bytes ++ ·) id) := by
  have length := itemLength_append whole rest
  cases item with
  | nil => contradiction
  | cons first further =>
    have continues : first ≠ '"' := by
      rintro rfl
      cases further with
      | nil => exact inside rfl
      | cons _ _ => simp [isItem] at whole
    rw [List.cons_append] at length ⊢
    rw [readItems, if_neg continues]
    simp only [length]
    rw [← List.cons_append, List.take_left, List.drop_left, stands]
    cases readItems rest <;> rfl

/-- The bytes of a string are read up to the quote behind them. -/
theorem readItems_flatMap_quotedByte (bytes : List UInt8) (rest : List Char) :
    readItems (bytes.flatMap quotedByte ++ '"' :: rest) = some (bytes, rest) := by
  induction bytes with
  | nil =>
    rw [List.flatMap_nil, List.nil_append, readItems, if_pos rfl]
  | cons byte further ih =>
    obtain ⟨whole, stands, inside, _⟩ := quotedByte_item byte
    rw [List.flatMap_cons, List.append_assoc, readItems_append whole stands inside, ih]
    rfl

/-- The marks of a text are those of its parts; a backslash at the end of the first part escapes
the beginning of the second one. -/
theorem quoteMarks_append (escaped : Bool) (front back : List Char) :
    quoteMarks escaped (front ++ back) =
      quoteMarks escaped front ++ quoteMarks (endsEscaped escaped front) back := by
  induction front generalizing escaped with
  | nil => rfl
  | cons first further ih =>
    rw [List.cons_append, quoteMarks, ih, quoteMarks, List.cons_append]
    rfl

/-- Between its quotes the text of a string has no quote that is not escaped. -/
theorem quoteMarks_flatMap_quotedByte (bytes : List UInt8) (rest : List Char) :
    quoteMarks false (bytes.flatMap quotedByte ++ rest) =
      List.replicate (bytes.flatMap quotedByte).length false ++ quoteMarks false rest := by
  induction bytes with
  | nil => rfl
  | cons byte further ih =>
    obtain ⟨-, -, -, marks, ends, -⟩ := quotedByte_item byte
    rw [List.flatMap_cons, List.append_assoc, quoteMarks_append, marks, ends, ih,
      List.length_append, ← List.replicate_append_replicate, List.append_assoc]

end Text

namespace ByteString

open Text

/-- The characters of a quoted string. -/
theorem toList_quoted (string : ByteString) :
    string.quoted.toList = '"' :: (string.bytes.flatMap quotedByte ++ ['"']) := by
  rw [quoted, String.toList_ofList, List.cons_append]

/-- A quoted string is read in front of any text, and what is read are its bytes. -/
theorem readQuoted_quoted (string : ByteString) (rest : List Char) :
    readQuoted (string.quoted.toList ++ rest) = some (string.bytes, rest) := by
  have read := readItems_flatMap_quotedByte string.bytes rest
  rw [toList_quoted, List.cons_append, List.append_assoc]
  exact (if_pos rfl).trans read

/-- The texts of quoted strings end by themselves. -/
theorem selfDelimiting_quoted : SelfDelimiting fun string : ByteString => string.quoted.toList := by
  intro left right rest rest' same
  have read : some (left.bytes, rest) = some (right.bytes, rest') := by
    rw [← readQuoted_quoted, ← readQuoted_quoted, same]
  cases left
  cases right
  simpa using read

/-- The characters of a quoted string are printable. -/
theorem all_isPrintable_quoted (string : ByteString) :
    string.quoted.toList.all isPrintable = true := by
  have inside : (string.bytes.flatMap quotedByte).all isPrintable = true := by
    rw [List.all_flatMap, List.all_eq_true]
    intro byte _
    obtain ⟨-, -, -, -, -, all⟩ := quotedByte_item byte
    exact all
  rw [toList_quoted, List.all_cons, List.all_append, inside]
  decide

/-- A quoted string consists of printable characters of ASCII. Of its quotes only the first and the
last character are not escaped. Whatever text follows it, its reader finds the bytes of the string
and this text. So two texts that begin with quoted strings are equal only if the strings are equal,
and what follows them, too. -/
theorem quoted_lossless (string other : ByteString) (rest rest' : List Char) :
    string.quoted.toList.all isPrintable = true ∧
      (∃ inside : List Char, string.quoted.toList = '"' :: (inside ++ ['"']) ∧
        quoteMarks false string.quoted.toList =
          true :: (List.replicate inside.length false ++ [true])) ∧
      readQuoted (string.quoted.toList ++ rest) = some (string.bytes, rest) ∧
      (string.quoted.toList ++ rest = other.quoted.toList ++ rest' ↔
        string = other ∧ rest = rest') := by
  have marks : quoteMarks false string.quoted.toList =
      true :: (List.replicate (string.bytes.flatMap quotedByte).length false ++ [true]) := by
    have further := quoteMarks_flatMap_quotedByte string.bytes ['"']
    rw [toList_quoted]
    exact congrArg (true :: ·) further
  have ends : string.quoted.toList ++ rest = other.quoted.toList ++ rest' ↔
      string = other ∧ rest = rest' := by
    constructor
    · exact selfDelimiting_quoted string other rest rest'
    · rintro ⟨rfl, rfl⟩
      rfl
  exact ⟨string.all_isPrintable_quoted, ⟨_, string.toList_quoted, marks⟩,
    string.readQuoted_quoted rest, ends⟩

example : ByteString.quoted ⟨[0x00, 0x31, 0x22, 0x5C, 0x0A, 0xFF]⟩ =
    "\"\\0001\\\"\\\\\\n\\255\"" := by decide

end ByteString

end LuaChunk
