import LuaChunk.Constant
import LuaChunk.Proofs.Decimal.Notation
import LuaChunk.Proofs.Decimal.Numeral
import LuaChunk.Proofs.Text.Quoted

/-!
# Constants in the listing

The text of a constant says what the constant is. Apart from a few words, a text with a quote in
front is a string, one with a point or the mark of an exponent is a float, and any other one is an
integer (`Listing.readConstant`). What is read from the text of a constant denotes the constant
(`Constant.exists_reading`), and a reading denotes one constant only, unless it is a NaN
(`Listing.Denotes.unique`). So constants with the same text are equal or both NaN
(`Constant.listed_identifies`).
-/
namespace LuaChunk

open Text

namespace Listing

/-- What the text of a constant says. -/
inductive Reading where
  /-- The value nil. -/
  | nil
  /-- A truth value. -/
  | boolean (value : Bool)
  /-- An integer. -/
  | integer (value : ℤ)
  /-- A NaN, whatever its bits are. -/
  | notANumber
  /-- An infinity with its sign. -/
  | infinite (negative : Bool)
  /-- A decimal with its sign. -/
  | finite (negative : Bool) (value : Decimal)
  /-- The bytes of a string. -/
  | string (bytes : List UInt8)

/-- The words that are constants. -/
def words : List (List Char × Reading) :=
  [("nil".toList, .nil), ("true".toList, .boolean true), ("false".toList, .boolean false),
    ("nan".toList, .notANumber), ("inf".toList, .infinite false), ("-inf".toList, .infinite true)]

/-- Read the text of a constant. -/
def readConstant (text : List Char) : Option Reading :=
  (words.lookup text).or <|
    if text.head? = some '"' then (readQuoted text).map fun read => .string read.1
    else if '.' ∈ text ∨ 'e' ∈ text then
      (number? text).map fun read => .finite read.1 read.2
    else (integer? text).map .integer

/-- What is read from a text denotes a constant. A decimal denotes the one number that it is rounded
to. -/
inductive Denotes : Reading → Constant → Prop where
  /-- The word nil. -/
  | nil : Denotes .nil .nil
  /-- A truth value. -/
  | boolean (value : Bool) : Denotes (.boolean value) (.boolean value)
  /-- An integer. -/
  | integer (value : Int64) : Denotes (.integer value.toInt) (.integer value)
  /-- Any NaN. -/
  | notANumber {number : Binary64} (kind : number.kind = .notANumber) :
    Denotes .notANumber (.number number)
  /-- An infinity. -/
  | infinite {number : Binary64} {negative : Bool} (kind : number.kind = .infinite negative) :
    Denotes (.infinite negative) (.number number)
  /-- A finite number. -/
  | finite {number : Binary64} {negative : Bool} {value : Decimal}
    (rounds : ∀ other : Binary64, other.RoundedFrom negative value.value ↔ other = number) :
    Denotes (.finite negative value) (.number number)
  /-- A string. -/
  | string (value : ByteString) : Denotes (.string value.bytes) (.string value)

end Listing

namespace Constant

/-- The constant is a NaN. -/
def IsNaN (constant : Constant) : Prop :=
  ∃ number : Binary64, constant = .number number ∧ number.kind = .notANumber

end Constant

namespace Listing

variable {reading : Reading} {left right : Constant}

/-- A reading denotes one constant only, unless it is a NaN. -/
theorem Denotes.unique (first : Denotes reading left) (second : Denotes reading right) :
    left = right ∨ left.IsNaN ∧ right.IsNaN := by
  cases first with
  | nil =>
    cases second
    exact Or.inl rfl
  | boolean value =>
    cases second
    exact Or.inl rfl
  | integer value =>
    generalize same : value.toInt = read at second
    cases second with
    | integer other => exact Or.inl (congrArg _ (Int64.toInt_inj.mp same))
  | notANumber kind =>
    cases second with
    | notANumber kind' => exact Or.inr ⟨⟨_, rfl, kind⟩, _, rfl, kind'⟩
  | infinite kind =>
    cases second with
    | infinite kind' => exact Or.inl (congrArg _ (Binary64.eq_of_infinite kind kind'))
  | finite rounds =>
    cases second with
    | finite rounds' => exact Or.inl (congrArg _ ((rounds' _).mp ((rounds _).mpr rfl)))
  | string value =>
    generalize same : value.bytes = bytes at second
    cases second with
    | string other =>
      cases value
      cases other
      exact Or.inl (congrArg _ (congrArg _ same))

/-- A text that is unlike all words is not one of them. -/
theorem lookup_words {text : List Char} (like : List Char → Bool) (own : like text = true)
    (unlike : words.all (fun entry => !like entry.1) = true) : words.lookup text = none := by
  rw [List.lookup_eq_none_iff]
  intro entry member
  have other := List.all_eq_true.mp unlike entry member
  simp only [bne_iff_ne, ne_eq]
  rintro rfl
  simp [own] at other

/-- A quoted string is read as its bytes. -/
theorem readConstant_quoted (string : ByteString) :
    readConstant string.quoted.toList = some (.string string.bytes) := by
  have quote : string.quoted.toList.head? = some '"' := by
    rw [ByteString.toList_quoted, List.head?_cons]
  have read := string.readQuoted_quoted []
  have other := lookup_words (fun text => text.head? = some '"') (by simpa using quote)
    (by decide)
  rw [List.append_nil] at read
  rw [readConstant, other, if_pos quote, read]
  rfl

/-- A finite number is read as the decimal that is written. -/
theorem readConstant_finite {number : Binary64} {negative : Bool} {magnitude : Dyadic}
    (finite : number.kind = .finite negative magnitude) :
    readConstant number.listed.toList = some (.finite negative magnitude.listedDecimal) := by
  have read := Binary64.number?_listed finite
  have other := lookup_words (fun text => (number? text).isSome) (by rw [read]; rfl) (by decide)
  have quote : number.listed.toList.head? ≠ some '"' :=
    fun first => number.isWord_listed.notMem (by decide) (List.mem_of_head? first)
  rw [readConstant, other, if_neg quote, if_pos (Binary64.point_or_exponent finite), read]
  rfl

/-- An integer is read as an integer. -/
theorem readConstant_integer (value : ℤ) :
    readConstant (toString value).toList = some (.integer value) := by
  have read := integer?_toString value
  have other := lookup_words (fun text => (integer? text).isSome) (by rw [read]; rfl) (by decide)
  have quote : (toString value).toList.head? ≠ some '"' :=
    fun first => (isWord_toString_int value).notMem (by decide) (List.mem_of_head? first)
  have marks : ¬ ('.' ∈ (toString value).toList ∨ 'e' ∈ (toString value).toList) := by
    rintro (point | exponent)
    · exact absurd (mem_toString_int point) (by decide)
    · exact absurd (mem_toString_int exponent) (by decide)
  rw [readConstant, other, if_neg quote, if_neg marks, read]
  rfl

end Listing

namespace Constant

open Listing

/-- The text of a number is read as what denotes the number. -/
theorem exists_reading_number (number : Binary64) :
    ∃ reading, readConstant number.listed.toList = some reading ∧
      Denotes reading (.number number) := by
  cases kind : number.kind with
  | notANumber =>
    have text : number.listed = "nan" := by simp [Binary64.listed, kind]
    have read : readConstant "nan".toList = some .notANumber := by rfl
    rw [text]
    exact ⟨_, read, .notANumber kind⟩
  | infinite negative =>
    have text : number.listed = Binary64.signed negative ['i', 'n', 'f'] := by
      simp [Binary64.listed, kind]
    have read : readConstant (Binary64.signed negative ['i', 'n', 'f']).toList =
        some (.infinite negative) := by
      cases negative <;> rfl
    rw [text]
    exact ⟨_, read, .infinite kind⟩
  | finite negative magnitude =>
    exact ⟨_, readConstant_finite kind, .finite (Binary64.roundedFrom_listedDecimal_iff kind)⟩

/-- The text of a constant is read as what denotes the constant. -/
theorem exists_reading (constant : Constant) :
    ∃ reading, readConstant constant.listed.toList = some reading ∧
      Denotes reading constant := by
  cases constant with
  | nil => exact ⟨.nil, rfl, .nil⟩
  | boolean value =>
    have read : readConstant (toString value).toList = some (.boolean value) := by
      cases value <;> rfl
    exact ⟨_, read, .boolean value⟩
  | integer value => exact ⟨_, readConstant_integer value.toInt, .integer value⟩
  | number value => exact exists_reading_number value
  | string value => exact ⟨_, readConstant_quoted value, .string value⟩

/-- Constants have the same text if they are equal or both NaN, and only then. -/
theorem listed_eq_iff (left right : Constant) :
    left.listed = right.listed ↔ left = right ∨ left.IsNaN ∧ right.IsNaN := by
  constructor
  · intro same
    obtain ⟨reading, read, denotes⟩ := left.exists_reading
    obtain ⟨reading', read', denotes'⟩ := right.exists_reading
    rw [same, read'] at read
    obtain rfl := Option.some.inj read
    exact denotes.unique denotes'
  · rintro (rfl | ⟨⟨number, rfl, kind⟩, number', rfl, kind'⟩)
    · rfl
    · simp [listed, Binary64.listed, kind, kind']

/-- The text of a constant identifies it: constants have the same text exactly if they are equal,
where numbers are compared by their bits, or both NaN. The text of a finite number is read as a sign
and an exact decimal, and the number is the only one that this decimal is rounded to. No number has
the text of an integer. -/
theorem listed_identifies :
    (∀ left right : Constant,
      left.listed = right.listed ↔ left = right ∨ left.IsNaN ∧ right.IsNaN) ∧
    (∀ (number : Binary64) (negative : Bool) (magnitude : Dyadic),
      number.kind = .finite negative magnitude →
        ∃ value : Decimal, number? (Constant.number number).listed.toList = some (negative, value) ∧
          ∀ other : Binary64, other.RoundedFrom negative value.value ↔ other = number) ∧
    ∀ (number : Binary64) (integer : ℤ), (Constant.number number).listed ≠ toString integer := by
  refine ⟨listed_eq_iff, ?_, ?_⟩
  · intro number negative magnitude finite
    exact ⟨_, Binary64.number?_listed finite, Binary64.roundedFrom_listedDecimal_iff finite⟩
  · intro number integer same
    obtain ⟨reading, read, denotes⟩ := exists_reading (.number number)
    rw [same, readConstant_integer] at read
    obtain rfl := Option.some.inj read
    contradiction

/-- The least positive number, and the float and the integer one. -/
theorem listed_identifies_smallest :
    (⟨1⟩ : Binary64).kind = .finite false ⟨1, -1074⟩ ∧
      (Constant.number ⟨1⟩).listed = "5e-324" ∧
      number? "5e-324".toList = some (false, ⟨5, -324⟩) ∧
      (⟨1⟩ : Binary64).RoundedFrom false (Decimal.value ⟨5, -324⟩) ∧
      (Constant.number ⟨0x3FF0000000000000⟩).listed ≠ (Constant.integer 1).listed := by
  have kind : (⟨1⟩ : Binary64).kind = .finite false ⟨1, -1074⟩ := by decide
  have text : (Constant.number ⟨1⟩).listed = "5e-324" := by decide +kernel
  have digits : number? "5e-324".toList = some (false, ⟨5, -324⟩) := by decide
  obtain ⟨-, finite, distinct⟩ := listed_identifies
  obtain ⟨value, read, rounds⟩ := finite ⟨1⟩ false ⟨1, -1074⟩ kind
  have pair : (false, value) = (false, (⟨5, -324⟩ : Decimal)) := by
    rw [text, digits] at read
    exact (Option.some.inj read).symm
  have same : value = ⟨5, -324⟩ := (Prod.mk.inj pair).2
  rw [same] at rounds
  exact ⟨kind, text, digits, (rounds ⟨1⟩).mpr rfl, distinct ⟨0x3FF0000000000000⟩ (1 : Int64).toInt⟩

end Constant

end LuaChunk
