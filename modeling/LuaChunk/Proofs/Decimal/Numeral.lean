import LuaChunk.Proofs.Decimal.Shortest
import LuaChunk.Proofs.Text.Numerals
import LuaChunk.Decimal.Notation
import Mathlib.Data.List.TakeWhile

/-!
# Decimal numerals read back

A reader of decimal numerals that knows nothing of how they are written: digits with or without a
point among them, then the mark of an exponent with an integer or neither (`Text.decimal?`), and a
sign in front of all or none (`Text.number?`). What it reads is an exact decimal.

Both notations of a decimal read back as this decimal (`Decimal.decimal?_scientific`,
`Decimal.decimal?_positional`), and digits with `.0` behind them as a decimal with the same value
(`Text.decimal?_natural`).
-/
namespace LuaChunk

namespace Text

/-- A natural number in decimal digits. -/
def natural? (text : List Char) : Option ℕ :=
  if text ≠ [] ∧ text.all Char.isDigit = true then some (Nat.ofDigitChars 10 text 0) else none

/-- An integer, with a minus sign if it is negative. -/
def integer? (text : List Char) : Option ℤ :=
  if text.head? = some '-' then (natural? text.tail).map fun value : ℕ => -(value : ℤ)
  else (natural? text).map fun value : ℕ => (value : ℤ)

/-- What stands before the first mark in a text. -/
def before (mark : Char) (text : List Char) : List Char := text.takeWhile (· != mark)

/-- What stands behind the first mark in a text. -/
def behind (mark : Char) (text : List Char) : List Char := (text.dropWhile (· != mark)).tail

/-- A decimal without a sign. -/
def decimal? (text : List Char) : Option Decimal := do
  let mantissa := before 'e' text
  let digits ← natural? (before '.' mantissa ++ behind '.' mantissa)
  let exponent ← if 'e' ∈ text then integer? (behind 'e' text) else some 0
  some ⟨digits, exponent - (behind '.' mantissa).length⟩

/-- A decimal with a minus sign or without. -/
def number? (text : List Char) : Option (Bool × Decimal) :=
  if text.head? = some '-' then (decimal? text.tail).map fun magnitude => (true, magnitude)
  else (decimal? text).map fun magnitude => (false, magnitude)

section Marks

variable {mark : Char} {front : List Char}

/-- All characters differ from a mark that does not occur. -/
theorem bne_of_notMem (absent : mark ∉ front) :
    ∀ character ∈ front, (character != mark) = true := by
  intro character member
  simpa using ne_of_mem_of_not_mem member absent

/-- What stands before a mark that does not occur there. -/
theorem before_append (absent : mark ∉ front) (back : List Char) :
    before mark (front ++ mark :: back) = front := by
  simp [before, List.takeWhile_append_of_pos (bne_of_notMem absent)]

/-- What stands behind a mark that does not occur earlier. -/
theorem behind_append (absent : mark ∉ front) (back : List Char) :
    behind mark (front ++ mark :: back) = back := by
  simp [behind, List.dropWhile_append_of_pos (bne_of_notMem absent)]

/-- The whole text stands before a mark that does not occur. -/
theorem before_of_notMem (absent : mark ∉ front) : before mark front = front :=
  List.takeWhile_eq_self_iff.mpr (bne_of_notMem absent)

/-- Nothing stands behind a mark that does not occur. -/
theorem behind_of_notMem (absent : mark ∉ front) : behind mark front = [] := by
  rw [behind, List.dropWhile_eq_nil_iff.mpr (bne_of_notMem absent), List.tail_nil]

end Marks

/-- A character that is no digit is not among digits. -/
theorem notMem_of_all_isDigit {text : List Char} (digits : text.all Char.isDigit = true)
    {mark : Char} (other : mark.isDigit = false) : mark ∉ text := by
  intro member
  have digit := List.all_eq_true.mp digits mark member
  rw [other] at digit
  contradiction

/-- A numeral has digits only. -/
theorem all_isDigit_toDigits (value : ℕ) : (Nat.toDigits 10 value).all Char.isDigit = true :=
  List.all_eq_true.mpr fun _ member => isDigit_of_mem_toDigits member

/-- The mark of an exponent is neither a digit nor a point. -/
theorem notMem_pointed {whole fraction : List Char} (digits : whole.all Char.isDigit = true)
    (further : fraction.all Char.isDigit = true) : 'e' ∉ whole ++ '.' :: fraction := by
  have front : 'e' ∉ whole := notMem_of_all_isDigit digits (by decide)
  have back : 'e' ∉ fraction := notMem_of_all_isDigit further (by decide)
  simp [front, back]

/-- Digits are read as a natural number. -/
theorem natural?_eq_some {text : List Char} (digits : text.all Char.isDigit = true)
    (written : text ≠ []) : natural? text = some (Nat.ofDigitChars 10 text 0) :=
  if_pos ⟨written, digits⟩

/-- A numeral reads back. -/
theorem natural?_toDigits (value : ℕ) : natural? (Nat.toDigits 10 value) = some value := by
  rw [natural?_eq_some (all_isDigit_toDigits value) Nat.toDigits_ne_nil,
    Nat.ofDigitChars_ten_toDigits]

/-- The text of an integer reads back. -/
theorem integer?_toString (value : ℤ) : integer? (toString value).toList = some value := by
  rw [toList_toString_int]
  cases value with
  | ofNat value =>
    have sign : (Nat.toDigits 10 value).head? ≠ some '-' := by
      intro first
      have digit := isDigit_of_mem_toDigits (List.mem_of_head? first)
      contradiction
    show integer? (Nat.toDigits 10 value) = _
    rw [integer?, if_neg sign, natural?_toDigits]
    rfl
  | negSucc value =>
    show integer? ('-' :: Nat.toDigits 10 (value + 1)) = _
    rw [integer?, if_pos List.head?_cons, List.tail_cons, natural?_toDigits]
    rfl

/-- The text of an integer has digits and a minus sign. -/
theorem mem_toString_int {value : ℤ} {character : Char}
    (member : character ∈ (toString value).toList) :
    character = '-' ∨ character.isDigit = true := by
  rw [toList_toString_int] at member
  cases value with
  | ofNat value => exact Or.inr (isDigit_of_mem_toDigits member)
  | negSucc value => exact (List.mem_cons.mp member).imp_right isDigit_of_mem_toDigits

/-- Digits with a point among them are read as a decimal. -/
theorem decimal?_pointed {whole fraction : List Char} (digits : whole.all Char.isDigit = true)
    (further : fraction.all Char.isDigit = true) (written : whole ++ fraction ≠ []) :
    decimal? (whole ++ '.' :: fraction) =
      some ⟨Nat.ofDigitChars 10 (whole ++ fraction) 0, -fraction.length⟩ := by
  have point : '.' ∉ whole := notMem_of_all_isDigit digits (by decide)
  have mark := notMem_pointed digits further
  have all : (whole ++ fraction).all Char.isDigit = true := by
    rw [List.all_append, digits, further]
    rfl
  simp only [decimal?, before_of_notMem mark, before_append point, behind_append point,
    natural?_eq_some all written, if_neg mark]
  simp

/-- Digits are read as a decimal. -/
theorem decimal?_toDigits (value : ℕ) : decimal? (Nat.toDigits 10 value) = some ⟨value, 0⟩ := by
  have point : '.' ∉ Nat.toDigits 10 value :=
    notMem_of_all_isDigit (all_isDigit_toDigits value) (by decide)
  have mark : 'e' ∉ Nat.toDigits 10 value :=
    notMem_of_all_isDigit (all_isDigit_toDigits value) (by decide)
  simp only [decimal?, before_of_notMem mark, before_of_notMem point, behind_of_notMem point,
    List.append_nil, natural?_toDigits, if_neg mark]
  rfl

/-- An exponent moves the point of the decimal before it. -/
theorem decimal?_exponent {mantissa : List Char} (mark : 'e' ∉ mantissa) (power : ℤ) :
    decimal? (mantissa ++ 'e' :: (toString power).toList) =
      (decimal? mantissa).map fun number => ⟨number.digits, power + number.exponent⟩ := by
  have inside : 'e' ∈ mantissa ++ 'e' :: (toString power).toList := by simp
  simp only [decimal?, before_append mark, behind_append mark, before_of_notMem mark,
    if_pos inside, if_neg mark, integer?_toString]
  cases natural? (before '.' mantissa ++ behind '.' mantissa) with
  | none => rfl
  | some digits =>
    simp [sub_eq_add_neg]

/-- Digits with a zero behind the point have the value of the digits. -/
theorem decimal?_natural (value : ℕ) :
    decimal? (Nat.toDigits 10 value ++ ['.', '0']) = some ⟨10 * value, -1⟩ := by
  have zero : ['0'].all Char.isDigit = true := by decide
  rw [decimal?_pointed (all_isDigit_toDigits value) zero (by simp), Nat.ofDigitChars_append,
    Nat.ofDigitChars_ten_toDigits]
  rfl

end Text

namespace Decimal

open Text

/-- A decimal with an exponent reads back. -/
theorem decimal?_scientific (number : Decimal) : decimal? number.scientific = some number := by
  have digits := all_isDigit_toDigits number.digits
  have value := Nat.ofDigitChars_ten_toDigits (n := number.digits)
  unfold scientific
  split
  · rename_i empty
    exact absurd empty Nat.toDigits_ne_nil
  · rename_i digit written
    have text : digit :: 'e' :: (toString number.exponent).toList =
        Nat.toDigits 10 number.digits ++ 'e' :: (toString number.exponent).toList := by
      rw [written]
      rfl
    have mark := notMem_of_all_isDigit digits (by decide : 'e'.isDigit = false)
    rw [text, decimal?_exponent mark, decimal?_toDigits, Option.map_some, add_zero]
  · rename_i digit further _ written
    rw [written] at digits value
    have parts := Bool.and_eq_true_iff.mp digits
    have first : [digit].all Char.isDigit = true := by
      rw [List.all_cons, parts.1, List.all_nil]
      rfl
    have mantissa := decimal?_pointed first parts.2 (List.cons_ne_nil _ _)
    have read := decimal?_exponent (notMem_pointed first parts.2)
      (number.exponent + further.length)
    have back : number.exponent + further.length + -(further.length : ℤ) = number.exponent := by
      omega
    rw [mantissa, Option.map_some, List.singleton_append, List.singleton_append, value,
      back] at read
    exact read

/-- Digits with a point that has some of them before it and some behind it. -/
theorem decimal?_inside {text : List Char} {places : ℕ} (digits : text.all Char.isDigit = true)
    (written : text ≠ []) (inside : places < text.length) :
    decimal? (text.take (text.length - places) ++ '.' :: text.drop (text.length - places)) =
      some ⟨Nat.ofDigitChars 10 text 0, -places⟩ := by
  have parts := List.take_append_drop (text.length - places) text
  have both : (text.take (text.length - places)).all Char.isDigit = true ∧
      (text.drop (text.length - places)).all Char.isDigit = true := by
    rwa [← Bool.and_eq_true_iff, ← List.all_append, parts]
  have length : (text.drop (text.length - places)).length = places := by
    rw [List.length_drop]
    omega
  rw [decimal?_pointed both.1 both.2 (by rwa [parts]), parts, length]

/-- Digits behind a point, a zero before it, and zeros up to the digits. -/
theorem decimal?_outside {text : List Char} {places : ℕ} (digits : text.all Char.isDigit = true)
    (outside : text.length ≤ places) :
    decimal? ('0' :: '.' :: List.replicate (places - text.length) '0' ++ text) =
      some ⟨Nat.ofDigitChars 10 text 0, -places⟩ := by
  have first : ['0'].all Char.isDigit = true := by decide
  have zero : Nat.ofDigitChars 10 ['0'] 0 = 0 := by decide
  have fraction : (List.replicate (places - text.length) '0' ++ text).all Char.isDigit = true := by
    rw [List.all_append, digits, List.all_replicate]
    simp
  have length : (List.replicate (places - text.length) '0' ++ text).length = places := by
    rw [List.length_append, List.length_replicate]
    omega
  have read := decimal?_pointed first fraction (List.cons_ne_nil _ _)
  rw [Nat.ofDigitChars_append, Nat.ofDigitChars_append, zero, Nat.ofDigitChars_replicate_zero,
    Nat.mul_zero, length] at read
  exact read

/-- A decimal with its point in place reads back, unless it is a natural number. -/
theorem decimal?_positional {number : Decimal} (broken : number.exponent < 0) :
    decimal? number.positional = some number := by
  have digits := all_isDigit_toDigits number.digits
  have value := Nat.ofDigitChars_ten_toDigits (n := number.digits)
  have exponent : -((-number.exponent).toNat : ℤ) = number.exponent := by omega
  rw [positional, if_neg (by omega)]
  split
  · rename_i inside
    rw [decimal?_inside digits Nat.toDigits_ne_nil inside, value, exponent]
  · rename_i outside
    rw [decimal?_outside digits (by omega), value, exponent]

/-- A decimal with an exponent has the mark of an exponent. -/
theorem mem_scientific (number : Decimal) : 'e' ∈ number.scientific := by
  unfold scientific
  split
  · rename_i empty
    exact absurd empty Nat.toDigits_ne_nil
  · simp
  · simp

/-- A decimal with its point in place has a point, unless it is a natural number. -/
theorem mem_positional {number : Decimal} (broken : number.exponent < 0) :
    '.' ∈ number.positional := by
  rw [positional, if_neg (by omega)]
  split <;> simp

end Decimal

namespace Dyadic

open Text

variable {number : Dyadic}

/-- Zero has no exponent. -/
theorem significand_pos_of_isExtreme (extreme : number.isExtreme = true) :
    0 < number.significand := by
  have denominator := number.denominator_pos
  by_contra positive
  have zero : number.significand = 0 := by omega
  have numerator : number.numerator = 0 := by rw [Dyadic.numerator, zero, Nat.zero_mul]
  simp [isExtreme, numerator] at extreme
  omega

/-- Zero is a natural number. -/
theorem significand_pos_of_not_isNatural (broken : number.isNatural ≠ true) :
    0 < number.significand := by
  by_contra positive
  have zero : number.significand = 0 := by omega
  simp [isNatural, numerator, zero] at broken

/-- The value of a natural number is the number below it. -/
theorem value_eq_floor (natural : number.isNatural = true) : number.value = number.floor := by
  have denominator := number.denominator_pos
  have cast : (number.denominator : ℚ) ≠ 0 := by exact_mod_cast denominator.ne'
  have divides : number.numerator % number.denominator = 0 := by simpa [isNatural] using natural
  have product : number.floor * number.denominator = number.numerator :=
    Nat.div_mul_cancel (Nat.dvd_of_mod_eq_zero divides)
  apply mul_right_cancel₀ cast
  rw [← numerator_eq, ← product]
  push_cast
  rfl

/-- The decimal that the listing writes: the exact value of a natural number that is not extreme,
and otherwise the shortest decimal. -/
def listedDecimal (number : Dyadic) : Decimal :=
  if number.isExtreme then number.shortest
  else if number.isNatural then ⟨10 * number.floor, -1⟩
  else number.shortest

/-- What the listing writes reads back. -/
theorem decimal?_listed (bounded : number.significand < 2 ^ 53) :
    decimal? number.listed = some number.listedDecimal := by
  unfold listed listedDecimal
  split
  · exact Decimal.decimal?_scientific _
  split
  · exact decimal?_natural _
  · rename_i broken
    have positive := significand_pos_of_not_isNatural broken
    exact Decimal.decimal?_positional
      (exponent_shortest_neg positive bounded (Bool.eq_false_iff.mpr broken))

/-- A magnitude is written with a point or an exponent. -/
theorem point_or_exponent (bounded : number.significand < 2 ^ 53) :
    '.' ∈ number.listed ∨ 'e' ∈ number.listed := by
  unfold listed
  split
  · exact Or.inr (Decimal.mem_scientific _)
  split
  · exact Or.inl (List.mem_append_right _ List.mem_cons_self)
  · rename_i broken
    have positive := significand_pos_of_not_isNatural broken
    exact Or.inl (Decimal.mem_positional
      (exponent_shortest_neg positive bounded (Bool.eq_false_iff.mpr broken)))

/-- What the listing writes is the exact value of a magnitude or the shortest decimal of a positive
one. -/
theorem listedDecimal_cases (number : Dyadic) :
    number.listedDecimal.value = number.value ∨
      0 < number.significand ∧ number.listedDecimal = number.shortest := by
  unfold listedDecimal
  split
  · rename_i extreme
    exact Or.inr ⟨significand_pos_of_isExtreme extreme, rfl⟩
  split
  · rename_i natural
    have value : Decimal.value ⟨10 * number.floor, -1⟩ = number.value := by
      rw [value_eq_floor natural, Decimal.value, zpow_neg_one, Nat.cast_mul]
      ring
    exact Or.inl value
  · rename_i broken
    exact Or.inr ⟨significand_pos_of_not_isNatural broken, rfl⟩

end Dyadic

namespace Text

/-- A text with a minus sign in front is no decimal without a sign. -/
theorem head?_ne_of_decimal? {text : List Char} {number : Decimal}
    (read : decimal? text = some number) : text.head? ≠ some '-' := by
  intro sign
  obtain ⟨further, rfl⟩ := List.head?_eq_some_iff.mp sign
  have digits : natural? (before '.' (before 'e' ('-' :: further)) ++
      behind '.' (before 'e' ('-' :: further))) = none := by
    simp [natural?, before]
  simp [decimal?, digits] at read

/-- A decimal with a sign reads back. -/
theorem number?_signed {magnitude : List Char} {number : Decimal}
    (read : decimal? magnitude = some number) (negative : Bool) :
    number? (Binary64.signed negative magnitude).toList = some (negative, number) := by
  rw [Binary64.signed, String.toList_ofList]
  cases negative with
  | false =>
    show number? magnitude = _
    rw [number?, if_neg (head?_ne_of_decimal? read), read]
    rfl
  | true =>
    show number? ('-' :: magnitude) = _
    rw [number?, if_pos List.head?_cons, List.tail_cons, read]
    rfl

end Text

namespace Binary64

open Text

variable {number : Binary64} {negative : Bool} {magnitude : Dyadic}

/-- The text of a finite number in the listing. -/
theorem listed_of_finite (finite : number.kind = .finite negative magnitude) :
    number.listed = signed negative magnitude.listed := by
  simp [listed, finite]

/-- The text of a finite number has a point or an exponent. -/
theorem point_or_exponent (finite : number.kind = .finite negative magnitude) :
    '.' ∈ number.listed.toList ∨ 'e' ∈ number.listed.toList := by
  have marks := Dyadic.point_or_exponent (significand_lt finite)
  rw [listed_of_finite finite, signed, String.toList_ofList]
  cases negative with
  | false => exact marks
  | true => exact marks.imp (List.mem_cons_of_mem _) (List.mem_cons_of_mem _)

/-- The text of a finite number reads back with its sign. -/
theorem number?_listed (finite : number.kind = .finite negative magnitude) :
    number? number.listed.toList = some (negative, magnitude.listedDecimal) := by
  rw [listed_of_finite finite]
  exact number?_signed (Dyadic.decimal?_listed (significand_lt finite)) negative

/-- What the listing writes is rounded to the number and to no other one. -/
theorem roundedFrom_listedDecimal_iff (finite : number.kind = .finite negative magnitude)
    (other : Binary64) : other.RoundedFrom negative magnitude.listedDecimal.value ↔
      other = number := by
  cases magnitude.listedDecimal_cases with
  | inl same =>
    rw [same]
    exact roundedFrom_value_iff finite other
  | inr short =>
    rw [short.2]
    exact roundedFrom_shortest_iff finite short.1 other

end Binary64

end LuaChunk
