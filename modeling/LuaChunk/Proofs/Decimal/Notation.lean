import LuaChunk.Decimal.Notation
import LuaChunk.Proofs.Text.Numerals

/-!
# The characters of numbers

However a number is written, its text is a word: digits, a point, a sign, the mark of an exponent,
or the name of a number that is not finite.
-/
namespace LuaChunk

open Text

namespace Decimal

/-- A decimal with an exponent is a word. -/
theorem isWord_scientific (number : Decimal) : IsWord number.scientific := by
  have point : isWordCharacter '.' = true := by decide
  have exponent : isWordCharacter 'e' = true := by decide
  have digits := isWord_toDigits number.digits
  unfold scientific
  split
  · exact isWord_nil
  · rename_i digit written
    rw [written] at digits
    rw [isWord_cons] at digits ⊢
    exact ⟨digits.1, (isWord_cons _ _).mpr ⟨exponent, isWord_toString_int _⟩⟩
  · rename_i digit further _ written
    rw [written] at digits
    rw [isWord_cons] at digits
    have power := isWord_toString_int (number.exponent + further.length)
    simp only [List.cons_append, isWord_cons, isWord_append]
    exact ⟨digits.1, point, digits.2, exponent, power⟩

/-- A decimal with its point in place is a word. -/
theorem isWord_positional (number : Decimal) : IsWord number.positional := by
  have point : isWordCharacter '.' = true := by decide
  have zeros : ∀ count, IsWord (List.replicate count '0') := by
    intro count character member
    rw [List.eq_of_mem_replicate member]
    decide
  have digits := isWord_toDigits number.digits
  have front : ∀ count, IsWord ((Nat.toDigits 10 number.digits).take count) :=
    fun count character member => digits character (List.mem_of_mem_take member)
  have back : ∀ count, IsWord ((Nat.toDigits 10 number.digits).drop count) :=
    fun count character member => digits character (List.mem_of_mem_drop member)
  have zero : isWordCharacter '0' = true := by decide
  simp only [positional]
  split
  · simp [zeros]
  split
  · simp [point, front, back]
  · simp [point, zero, zeros]

/-- A decimal with digits behind its point is a word. -/
theorem isWord_pointed (number : Decimal) : IsWord number.pointed := by
  unfold pointed
  split
  · rw [isWord_append]
    exact ⟨number.isWord_positional, by decide⟩
  · exact number.isWord_positional

end Decimal

namespace Dyadic

/-- A magnitude in the listing is a word. -/
theorem isWord_listed (number : Dyadic) : IsWord number.listed := by
  unfold listed
  split
  · exact number.shortest.isWord_scientific
  split
  · rw [isWord_append]
    exact ⟨isWord_toDigits _, by decide⟩
  · exact number.shortest.isWord_positional

/-- A magnitude in the tree view is a word. -/
theorem isWord_shown (number : Dyadic) : IsWord number.shown := by
  unfold shown
  split
  · decide
  split
  · exact number.shortest.isWord_scientific
  · exact number.shortest.isWord_pointed

end Dyadic

namespace Binary64

/-- A word with a sign is a word. -/
theorem isWord_signed (negative : Bool) {magnitude : List Char} (word : IsWord magnitude) :
    IsWord (signed negative magnitude).toList := by
  rw [signed, String.toList_ofList]
  cases negative with
  | false => exact word
  | true => exact (isWord_cons _ _).mpr ⟨by decide, word⟩

/-- A number in the listing is a word. -/
theorem isWord_listed (number : Binary64) : IsWord number.listed.toList := by
  unfold listed
  cases number.kind with
  | notANumber => exact (by decide : IsWord "nan".toList)
  | infinite negative => exact isWord_signed negative (by decide)
  | finite negative magnitude => exact isWord_signed negative magnitude.isWord_listed

/-- A number in the tree view is a word. -/
theorem isWord_shown (number : Binary64) : IsWord number.shown.toList := by
  unfold shown
  cases number.kind with
  | notANumber => exact (by decide : IsWord "NaN".toList)
  | infinite negative => exact isWord_signed negative (by decide)
  | finite negative magnitude => exact isWord_signed negative magnitude.isWord_shown

end Binary64

end LuaChunk
