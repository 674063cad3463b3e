import LuaChunk.Proofs.Text.Lines
import LuaChunk.Text.Hexadecimal

/-!
# Numerals in a text

Numerals consist of word characters: letters, digits and a few others, but no spaces and none of
the marks that separate parts of a text (`IsWord`). A decimal numeral behind a mark can be read from
the end of a text (`append_counted_inj`), and a word in hexadecimal digits reads back
(`word_inj`).
-/
namespace LuaChunk.Text

/-- Letters, digits, and the other characters of names and numerals. -/
def isWordCharacter (character : Char) : Bool :=
  character.isAlphanum || character = '_' || character = '.' || character = '-'

/-- Only characters of names and numerals occur. -/
def IsWord (characters : List Char) : Prop :=
  ∀ character ∈ characters, isWordCharacter character = true

instance decidableIsWord (characters : List Char) : Decidable (IsWord characters) :=
  List.decidableBAll (isWordCharacter · = true) characters

@[simp] theorem isWord_nil : IsWord [] := nofun

@[simp] theorem isWord_cons (character : Char) (characters : List Char) :
    IsWord (character :: characters) ↔
      isWordCharacter character = true ∧ IsWord characters := List.forall_mem_cons

@[simp] theorem isWord_append (front back : List Char) :
    IsWord (front ++ back) ↔ IsWord front ∧ IsWord back := List.forall_mem_append

/-- A character that occurs in no word does not occur in this one. -/
theorem IsWord.notMem {characters : List Char} (word : IsWord characters) {mark : Char}
    (other : isWordCharacter mark = false) : mark ∉ characters := by
  intro member
  have inside := word mark member
  rw [other] at inside
  contradiction

/-- Digits are word characters. -/
theorem isWordCharacter_of_isDigit {character : Char} (digit : character.isDigit = true) :
    isWordCharacter character = true := by
  simp [isWordCharacter, Char.isAlphanum, digit]

/-- The numeral of a number consists of digits. -/
theorem isDigit_of_mem_toDigits {value : Nat} {character : Char}
    (member : character ∈ Nat.toDigits 10 value) : character.isDigit = true :=
  Nat.isDigit_of_mem_toDigits (by decide) (by decide) member

/-- The numeral of a number is a word. -/
@[simp] theorem isWord_toDigits (value : Nat) : IsWord (Nat.toDigits 10 value) :=
  fun _ member => isWordCharacter_of_isDigit (isDigit_of_mem_toDigits member)

/-- Numbers are determined by their numerals. -/
@[simp] theorem toDigits_inj (left right : Nat) :
    Nat.toDigits 10 left = Nat.toDigits 10 right ↔ left = right := by
  refine ⟨fun same => ?_, congrArg (Nat.toDigits 10)⟩
  have values := congrArg (Nat.ofDigitChars 10 · 0) same
  simpa [Nat.ofDigitChars_ten_toDigits] using values

/-- The characters of the text of a natural number. -/
@[simp] theorem toList_toString_nat (value : Nat) :
    (toString value).toList = Nat.toDigits 10 value := by
  rw [Nat.toString_eq_repr, Nat.toList_repr]

/-- The characters of the text of an integer: a negative one has its sign in front. -/
theorem toList_toString_int (value : Int) :
    (toString value).toList =
      match value with
      | .ofNat value => Nat.toDigits 10 value
      | .negSucc value => '-' :: Nat.toDigits 10 (value + 1) := by
  cases value with
  | ofNat value => exact toList_toString_nat value
  | negSucc value =>
    show (toString (Int.negSucc value)).toList = '-' :: Nat.toDigits 10 (value + 1)
    rw [← toList_toString_nat]
    exact String.toList_append

/-- The text of an integer is a word. -/
theorem isWord_toString_int (value : Int) : IsWord (toString value).toList := by
  rw [toList_toString_int]
  cases value with
  | ofNat value => exact isWord_toDigits value
  | negSucc value => exact (isWord_cons _ _).mpr ⟨by decide, isWord_toDigits (value + 1)⟩

/-- Integers are determined by their texts. -/
theorem toString_int_inj (left right : Int) : toString left = toString right ↔ left = right := by
  have unsigned : ∀ (positive : Nat) (digits : List Char),
      Nat.toDigits 10 positive ≠ '-' :: digits := by
    intro positive digits same
    have sign : '-' ∈ Nat.toDigits 10 positive := by simp [same]
    exact absurd (isDigit_of_mem_toDigits sign) (by decide)
  rw [← String.toList_inj, toList_toString_int, toList_toString_int]
  cases left with
  | ofNat left =>
    cases right with
    | ofNat right => simp only [toDigits_inj, Int.ofNat.injEq]
    | negSucc right => simp [unsigned left]
  | negSucc left =>
    cases right with
    | ofNat right => simp [(unsigned right _).symm]
    | negSucc right => simp

/-- A mark, the numeral of a number behind it, and a label behind the numeral. -/
def counted (mark : Char) (number : Nat) (label : String) : List Char :=
  mark :: (Nat.toDigits 10 number ++ label.toList)

/-- A number behind a mark is read from the end of a text, up to the label behind it. -/
theorem append_counted_inj {front front' : List Char} {mark : Char} {number number' : Nat}
    {label : String} (other : isWordCharacter mark = false) :
    front ++ counted mark number label = front' ++ counted mark number' label ↔
      front = front' ∧ number = number' := by
  have regroup : ∀ (front : List Char) (number : Nat),
      front ++ counted mark number label =
        (front ++ mark :: Nat.toDigits 10 number) ++ label.toList := by
    intro front number
    simp [counted]
  rw [regroup, regroup, List.append_left_inj,
    append_cons_inj_of_notMem ((isWord_toDigits number).notMem other)
      ((isWord_toDigits number').notMem other), toDigits_inj]

/-- The value of a hexadecimal digit, capital or small. -/
def hexadecimalDigit (character : Char) : Nat :=
  if character.isDigit then character.toNat - 48
  else if character.isUpper then character.toNat - 55
  else character.toNat - 87

/-- The value of hexadecimal digits behind a value that is already read. -/
def hexadecimalFrom (value : Nat) (characters : List Char) : Nat :=
  characters.foldl (fun value character => 16 * value + hexadecimalDigit character) value

/-- Digits read back, as they are written and in capitals. -/
theorem hexadecimalDigit_digitChar (digit : Nat) (small : digit < 16) :
    hexadecimalDigit digit.digitChar = digit ∧
      hexadecimalDigit digit.digitChar.toUpper = digit := by
  revert digit
  decide

/-- Zeros in front change nothing. -/
theorem hexadecimalFrom_leftpad (width : Nat) (characters : List Char) :
    hexadecimalFrom 0 (characters.leftpad width '0') = hexadecimalFrom 0 characters := by
  have zeros : ∀ count, hexadecimalFrom 0 (List.replicate count '0') = 0 := by
    intro count
    induction count with
    | zero => rfl
    | succ count ih =>
      rw [List.replicate_succ]
      exact ih
  rw [List.leftpad, hexadecimalFrom, List.foldl_append]
  exact congrArg (hexadecimalFrom · characters) (zeros _)

/-- A hexadecimal numeral reads back. -/
theorem hexadecimalFrom_toDigits (value : Nat) (change : Char → Char)
    (kept : ∀ digit < 16, hexadecimalDigit (change digit.digitChar) = digit) :
    hexadecimalFrom 0 ((Nat.toDigits 16 value).map change) = value := by
  induction value using Nat.strongRecOn with
  | ind value ih =>
    by_cases small : value < 16
    · rw [Nat.toDigits_of_lt_base small]
      simp [hexadecimalFrom, kept value small]
    · have earlier := ih (value / 16) (by omega)
      have last := kept (value % 16) (by omega)
      rw [Nat.toDigits_of_base_le (by decide) (by omega), List.map_append, hexadecimalFrom,
        List.foldl_append]
      change 16 * hexadecimalFrom 0 _ + hexadecimalDigit _ = value
      rw [earlier, last]
      omega

/-- A hexadecimal numeral has no other characters than the sixteen digits. -/
theorem exists_digit_of_mem_toDigits {value : Nat} {character : Char}
    (member : character ∈ Nat.toDigits 16 value) : ∃ digit < 16, digit.digitChar = character := by
  induction value using Nat.strongRecOn with
  | ind value ih =>
    by_cases small : value < 16
    · rw [Nat.toDigits_of_lt_base small, List.mem_singleton] at member
      exact ⟨value, small, member.symm⟩
    · rw [Nat.toDigits_of_base_le (by decide) (by omega), List.mem_append,
        List.mem_singleton] at member
      cases member with
      | inl earlier => exact ih (value / 16) (by omega) earlier
      | inr last => exact ⟨value % 16, by omega, last.symm⟩

/-- The text of an instruction word has only word characters. -/
theorem isWord_word (value : UInt32) : IsWord (word value).toList := by
  have capitals : ∀ digit < 16, isWordCharacter digit.digitChar.toUpper = true := by decide
  have padding : isWordCharacter '0'.toUpper = true := by decide
  have digits : ∀ small ∈ hexadecimalDigits 8 value.toNat,
      isWordCharacter small.toUpper = true := by
    intro small member
    rw [hexadecimalDigits, List.leftpad, List.mem_append, List.mem_replicate] at member
    cases member with
    | inl zero => rwa [zero.2]
    | inr written =>
      obtain ⟨digit, bounded, rfl⟩ := exists_digit_of_mem_toDigits written
      exact capitals digit bounded
  rw [word, String.toList_append, isWord_append]
  constructor
  · decide
  · rw [String.toList_ofList]
    exact List.forall_mem_map.mpr digits

/-- Words are determined by their eight digits. -/
theorem word_inj (left right : UInt32) : word left = word right ↔ left = right := by
  refine ⟨fun same => ?_, congrArg word⟩
  have readsBack : ∀ value : UInt32,
      hexadecimalFrom 0 (((hexadecimalDigits 8 value.toNat).map Char.toUpper)) = value.toNat := by
    intro value
    have zero : '0'.toUpper = '0' := by decide
    rw [hexadecimalDigits, List.leftpad, List.map_append, List.map_replicate, zero]
    have padded := hexadecimalFrom_leftpad 8 ((Nat.toDigits 16 value.toNat).map Char.toUpper)
    rw [List.leftpad, List.length_map] at padded
    rw [padded]
    exact hexadecimalFrom_toDigits value.toNat Char.toUpper
      fun digit small => (hexadecimalDigit_digitChar digit small).2
  have digits := congrArg String.toList same
  simp only [word, String.toList_append, String.toList_ofList, List.append_cancel_left_eq] at digits
  have values := congrArg (hexadecimalFrom 0) digits
  rw [readsBack, readsBack] at values
  exact UInt32.toNat_inj.mp values

end LuaChunk.Text
