import LuaChunk.Decimal.Binary64
import Mathlib.Algebra.Order.Field.Power
import Mathlib.Algebra.Order.Field.Rat
import Mathlib.Order.Monotone.Basic
import Mathlib.Tactic.Linarith
import Mathlib.Tactic.Positivity
import Mathlib.Tactic.Ring

/-!
# Rounding to the nearest number

The numbers with one sign stand in a row. The lower 63 bits of a number are its place in the row,
and the magnitudes grow from place to place by the last place of a significand (`row_succ`). Behind
the greatest finite number stands an infinity, which counts as the next power of two.

A magnitude is rounded to the nearest number of the row, and if two are equally near, to the one
with an even fraction (`Binary64.RoundedFrom`). Every magnitude that is not farther from a number
than halfway to its neighbours is rounded to this number and to no other one
(`Binary64.roundedFrom_iff_of_around`), and no magnitude that is farther is rounded to it
(`Binary64.around_of_roundedFrom`).
-/
namespace LuaChunk

/-- The value of a magnitude. -/
def Dyadic.value (number : Dyadic) : ℚ := number.significand * 2 ^ number.exponent

section Distances

variable {value near far : ℚ}

/-- Below the middle the lower one of two values is nearer, and as near as the other one only in the
middle. -/
theorem nearer_below (step : near < far) (middle : 2 * value ≤ near + far) :
    |value - near| ≤ |value - far| ∧
      (|value - near| = |value - far| → 2 * value = near + far) := by
  have distance : |value - far| = far - value := by
    rw [abs_sub_comm]
    exact abs_of_nonneg (by linarith)
  rw [distance]
  constructor
  · exact abs_le.mpr ⟨by linarith, by linarith⟩
  · intro tie
    cases abs_choice (value - near) with
    | inl behind => linarith
    | inr before => linarith

/-- Above the middle the upper one is nearer. -/
theorem nearer_above (step : far < near) (middle : near + far ≤ 2 * value) :
    |value - near| ≤ |value - far| ∧
      (|value - near| = |value - far| → near + far = 2 * value) := by
  have distance : |value - far| = value - far := abs_of_nonneg (by linarith)
  rw [distance]
  constructor
  · exact abs_le.mpr ⟨by linarith, by linarith⟩
  · intro tie
    cases abs_choice (value - near) with
    | inl behind => linarith
    | inr before => linarith

/-- The lower one of two values is as near as the other one only below the middle. -/
theorem le_middle_of_nearer (step : near < far) (nearer : |value - near| ≤ |value - far|) :
    2 * value ≤ near + far := by
  by_contra above
  have other := nearer_above step (by linarith : far + near ≤ 2 * value)
  have middle := other.2 (le_antisymm other.1 nearer)
  linarith

/-- The upper one is as near as the other one only above the middle. -/
theorem middle_le_of_nearer (step : far < near) (nearer : |value - near| ≤ |value - far|) :
    far + near ≤ 2 * value := by
  by_contra below
  have other := nearer_below step (by linarith : 2 * value ≤ far + near)
  have middle := other.2 (le_antisymm other.1 nearer)
  linarith

/-- In the middle both are equally near. -/
theorem tie_of_middle (middle : 2 * value = near + far) : |value - near| = |value - far| := by
  have mirrored : value - near = -(value - far) := by linarith
  rw [mirrored, abs_neg]

end Distances

section Rows

variable {row : ℕ → ℚ} {place other : ℕ} {value : ℚ}

/-- A value is not farther from a place of a row than halfway to its neighbours. It lies halfway
only if the place is even. -/
structure Around (row : ℕ → ℚ) (place : ℕ) (value : ℚ) : Prop where
  /-- The distance towards the place before. -/
  lower : ∀ before, before + 1 = place → row before + row place ≤ 2 * value
  /-- The distance towards the place behind. -/
  upper : 2 * value ≤ row place + row (place + 1)
  /-- Halfway to the place before. -/
  lowerEven : ∀ before, before + 1 = place → row before + row place = 2 * value → place % 2 = 0
  /-- Halfway to the place behind. -/
  upperEven : 2 * value = row place + row (place + 1) → place % 2 = 0

/-- Each place of a row is around itself. -/
theorem around_self (grows : StrictMono row) (place : ℕ) : Around row place (row place) where
  lower before next := by
    have below : row before < row place := grows (by omega)
    linarith
  upper := by
    have above : row place < row (place + 1) := grows (by omega)
    linarith
  lowerEven before next same := by
    have below : row before < row place := grows (by omega)
    linarith
  upperEven same := by
    have above : row place < row (place + 1) := grows (by omega)
    linarith

/-- No other place of a row is nearer than the one that a value is around. If one is as near, it is
a neighbour, so it is odd, and the place itself is even. -/
theorem Around.nearest (around : Around row place value) (grows : StrictMono row)
    (different : other ≠ place) :
    |value - row place| ≤ |value - row other| ∧
      (|value - row place| = |value - row other| → place % 2 = 0 ∧ other % 2 = 1) := by
  cases Nat.lt_or_gt_of_ne different with
  | inl before =>
    obtain ⟨previous, rfl⟩ : ∃ previous, previous + 1 = place := ⟨place - 1, by omega⟩
    have far : row other ≤ row previous := grows.monotone (by omega)
    have lower := around.lower previous rfl
    have nearer := nearer_above (grows before)
      (by linarith : row (previous + 1) + row other ≤ 2 * value)
    refine ⟨nearer.1, fun tie => ?_⟩
    -- The value is halfway to the place before already, so the other one cannot be farther.
    have middle := nearer.2 tie
    have neighbour : other = previous := grows.injective (by linarith)
    have even := around.lowerEven previous rfl (by linarith)
    omega
  | inr behind =>
    have far : row (place + 1) ≤ row other := grows.monotone (by omega)
    have upper := around.upper
    have nearer := nearer_below (grows behind)
      (by linarith : 2 * value ≤ row place + row other)
    refine ⟨nearer.1, fun tie => ?_⟩
    have middle := nearer.2 tie
    have neighbour : other = place + 1 := grows.injective (by linarith)
    have even := around.upperEven (by linarith)
    omega

end Rows

namespace Binary64

/-- The place of a number among those with its sign. -/
def place (number : Binary64) : ℕ := number.bits.toNat % 2 ^ 63

/-- The significand of the magnitude at a place. -/
def significandAt (place : ℕ) : ℕ := if place < 2 ^ 52 then place else 2 ^ 52 + place % 2 ^ 52

/-- The binary digits between the last place of the magnitude at a place and the last place of the
smallest magnitudes. -/
def scaleAt (place : ℕ) : ℕ := place / 2 ^ 52 - 1

/-- The magnitude at a place. -/
def row (place : ℕ) : ℚ := significandAt place * 2 ^ (scaleAt place - 1074 : ℤ)

/-- The magnitude of a number that is not a NaN. An infinity counts as a power of two. -/
def nominal (number : Binary64) : ℚ := row number.place

/-- The significand of the next place, by the last place of the one before. -/
theorem significandAt_succ (place : ℕ) :
    significandAt (place + 1) * 2 ^ scaleAt (place + 1) =
      (significandAt place + 1) * 2 ^ scaleAt place := by
  unfold significandAt scaleAt
  by_cases carry : place % 2 ^ 52 = 2 ^ 52 - 1
  · by_cases first : place < 2 ^ 52
    · have last : place = 2 ^ 52 - 1 := by omega
      subst last
      decide
    · have next : (place + 1) / 2 ^ 52 - 1 = (place / 2 ^ 52 - 1) + 1 := by omega
      have fraction : (place + 1) % 2 ^ 52 = 0 := by omega
      rw [if_neg (by omega), if_neg first, next, fraction, carry, pow_succ]
      ring
  · have same : (place + 1) / 2 ^ 52 = place / 2 ^ 52 := by omega
    rw [same]
    congr 1
    split <;> split <;> omega

/-- A magnitude in units of the smallest one. -/
theorem row_eq (place : ℕ) :
    row place = (significandAt place * 2 ^ scaleAt place : ℕ) * (2 : ℚ) ^ (-1074 : ℤ) := by
  rw [row, sub_eq_add_neg, zpow_add₀ two_ne_zero, zpow_natCast, ← mul_assoc, Nat.cast_mul,
    Nat.cast_pow, Nat.cast_ofNat]

/-- From a place to the next one the magnitude grows by one in its last place. -/
theorem row_succ (place : ℕ) : row (place + 1) = row place + 2 ^ (scaleAt place - 1074 : ℤ) := by
  rw [row_eq (place + 1), significandAt_succ, row, sub_eq_add_neg, zpow_add₀ two_ne_zero,
    zpow_natCast, Nat.cast_mul, Nat.cast_pow, Nat.cast_ofNat, Nat.cast_succ]
  generalize (2 : ℚ) ^ (-1074 : ℤ) = unit
  ring

/-- Magnitudes grow with their places. -/
theorem strictMono_row : StrictMono row := by
  apply strictMono_nat_of_lt_succ
  intro place
  have positive : (0 : ℚ) < 2 ^ (scaleAt place - 1074 : ℤ) := zpow_pos (by decide) _
  rw [row_succ]
  linarith

/-- The exponent field in the place of a number. -/
theorem exponentField_eq (number : Binary64) : number.exponentField = number.place / 2 ^ 52 := by
  simp only [exponentField, place, Nat.pow_eq]
  omega

/-- The fraction in the place of a number. -/
theorem fraction_eq (number : Binary64) : number.fraction = number.place % 2 ^ 52 := by
  simp only [fraction, place, Nat.pow_eq]
  omega

/-- What is known of the place of a finite number. -/
theorem place_of_kind {number : Binary64} {negative : Bool} {magnitude : Dyadic}
    (finite : number.kind = .finite negative magnitude) :
    number.isNegative = negative ∧ magnitude.significand = significandAt number.place ∧
      magnitude.exponent = scaleAt number.place - 1074 := by
  have field := number.exponentField_eq
  have fraction := number.fraction_eq
  unfold kind at finite
  unfold significandAt scaleAt
  split at finite
  · split at finite <;> contradiction
  split at finite
  · rename_i _ zero
    obtain ⟨sign, rfl⟩ := Kind.finite.inj finite
    have small : number.place < 2 ^ 52 := by omega
    rw [if_pos small]
    refine ⟨sign, ?_, ?_⟩
    · show number.fraction = number.place
      omega
    · show (-1074 : ℤ) = _
      omega
  · obtain ⟨sign, rfl⟩ := Kind.finite.inj finite
    have large : ¬ number.place < 2 ^ 52 := by omega
    rw [if_neg large]
    refine ⟨sign, ?_, ?_⟩
    · show 2 ^ 52 + number.fraction = _
      rw [fraction]
    · show (number.exponentField - 1075 : ℤ) = _
      omega

/-- The magnitude of a finite number is the value that its bits denote. -/
theorem nominal_of_finite {number : Binary64} {negative : Bool} {magnitude : Dyadic}
    (finite : number.kind = .finite negative magnitude) : number.nominal = magnitude.value := by
  obtain ⟨-, significand, exponent⟩ := place_of_kind finite
  rw [nominal, row, Dyadic.value, significand, exponent]

/-- The infinities stand behind the greatest exponent of a finite number. -/
theorem place_of_infinite {number : Binary64} {negative : Bool}
    (infinite : number.kind = .infinite negative) :
    number.isNegative = negative ∧ number.place = 2047 * 2 ^ 52 := by
  have field := number.exponentField_eq
  have fraction := number.fraction_eq
  unfold kind at infinite
  split at infinite
  · split at infinite
    · exact ⟨Kind.infinite.inj infinite, by omega⟩
    · contradiction
  · split at infinite <;> contradiction

/-- Every place up to that of the infinities is the place of a number with each sign. -/
theorem exists_of_place (negative : Bool) {place : ℕ} (bounded : place ≤ 2047 * 2 ^ 52) :
    ∃ number : Binary64, number.kind ≠ .notANumber ∧ number.isNegative = negative ∧
      number.place = place := by
  have pow63 : Nat.pow 2 63 = 2 ^ 63 := rfl
  obtain ⟨sign, bit, signed⟩ : ∃ sign : ℕ, (sign = 0 ∨ sign = 2 ^ 63) ∧
      (decide (2 ^ 63 ≤ sign) = negative) := by
    cases negative with
    | false => exact ⟨0, Or.inl rfl, by decide⟩
    | true => exact ⟨2 ^ 63, Or.inr rfl, by decide⟩
  have bits : (UInt64.ofNat (sign + place)).toNat = sign + place :=
    UInt64.toNat_ofNat_of_lt' (by simp only [UInt64.size]; omega)
  have same : (⟨UInt64.ofNat (sign + place)⟩ : Binary64).place = place := by
    show (UInt64.ofNat (sign + place)).toNat % 2 ^ 63 = place
    omega
  refine ⟨⟨UInt64.ofNat (sign + place)⟩, ?_, ?_, same⟩
  · have field := exponentField_eq ⟨UInt64.ofNat (sign + place)⟩
    have fraction := fraction_eq ⟨UInt64.ofNat (sign + place)⟩
    rw [same] at field fraction
    unfold kind
    split
    · rw [if_pos (by omega)]
      nofun
    · split <;> nofun
  · rw [← signed, isNegative, decide_eq_decide, bits]
    omega

/-- A finite number stands before the infinities. -/
theorem place_lt_of_finite {number : Binary64} {negative : Bool} {magnitude : Dyadic}
    (finite : number.kind = .finite negative magnitude) : number.place < 2047 * 2 ^ 52 := by
  have field := number.exponentField_eq
  have bounded : number.place < 2 ^ 63 := Nat.mod_lt _ (by decide)
  have below : number.exponentField ≠ 2047 := by
    intro greatest
    rw [kind, if_pos greatest] at finite
    split at finite <;> contradiction
  omega

/-- Numbers with the same sign and the same place are the same. -/
theorem eq_of_place {left right : Binary64} (signs : left.isNegative = right.isNegative)
    (places : left.place = right.place) : left = right := by
  have pow63 : Nat.pow 2 63 = 2 ^ 63 := rfl
  have bounded := left.bits.toNat_lt
  have bounded' := right.bits.toNat_lt
  have bits : left.bits.toNat = right.bits.toNat := by
    unfold isNegative at signs
    unfold place at places
    have halves := decide_eq_decide.mp signs
    omega
  cases left
  cases right
  exact congrArg mk (UInt64.toNat_inj.mp bits)

/-- Infinities with the same sign are the same. -/
theorem eq_of_infinite {left right : Binary64} {negative : Bool}
    (infinite : left.kind = .infinite negative) (infinite' : right.kind = .infinite negative) :
    left = right := by
  have first := place_of_infinite infinite
  have second := place_of_infinite infinite'
  exact eq_of_place (first.1.trans second.1.symm) (first.2.trans second.2.symm)

/-- A number is even as its place is. -/
theorem fraction_mod_two (number : Binary64) : number.fraction % 2 = number.place % 2 := by
  rw [fraction_eq]
  omega

/-- A number is what a magnitude with a sign is rounded to. -/
structure RoundedFrom (number : Binary64) (negative : Bool) (value : ℚ) : Prop where
  /-- The result is not a NaN. -/
  isNumber : number.kind ≠ .notANumber
  /-- It has the sign. -/
  sign : number.isNegative = negative
  /-- No other number with this sign is nearer. -/
  nearest : ∀ other : Binary64, other.kind ≠ .notANumber → other.isNegative = negative →
    |value - number.nominal| ≤ |value - other.nominal|
  /-- If another one is as near, the fraction of the result is even. -/
  even : ∀ other : Binary64, other.kind ≠ .notANumber → other.isNegative = negative →
    other ≠ number → |value - number.nominal| = |value - other.nominal| → number.fraction % 2 = 0

/-- A magnitude around the place of a number is rounded to this number and to no other one. -/
theorem roundedFrom_iff_of_around {number : Binary64} {value : ℚ}
    (isNumber : number.kind ≠ .notANumber) (around : Around row number.place value)
    (other : Binary64) : other.RoundedFrom number.isNegative value ↔ other = number := by
  have nearest : ∀ other : Binary64, other.isNegative = number.isNegative → other ≠ number →
      |value - number.nominal| ≤ |value - other.nominal| ∧
        (|value - number.nominal| = |value - other.nominal| →
          number.place % 2 = 0 ∧ other.place % 2 = 1) := by
    intro other sign different
    exact around.nearest strictMono_row fun places => different (eq_of_place sign places)
  constructor
  · intro rounded
    by_contra different
    have distances := nearest other rounded.sign different
    have tie : |value - number.nominal| = |value - other.nominal| :=
      le_antisymm distances.1 (rounded.nearest number isNumber rfl)
    have odd := (distances.2 tie).2
    have even := rounded.even number isNumber rfl (Ne.symm different) tie.symm
    rw [fraction_mod_two] at even
    omega
  · rintro rfl
    refine ⟨isNumber, rfl, ?_, ?_⟩
    · intro another _ sign
      by_cases same : another = other
      · rw [same]
      · exact (nearest another sign same).1
    · intro another _ sign different tie
      rw [fraction_mod_two]
      exact ((nearest another sign different).2 tie).1

/-- A magnitude that is rounded to a finite number is around its place. -/
theorem around_of_roundedFrom {number : Binary64} {negative : Bool} {magnitude : Dyadic} {value : ℚ}
    (finite : number.kind = .finite negative magnitude)
    (rounded : number.RoundedFrom negative value) : Around row number.place value := by
  have bounded := place_lt_of_finite finite
  -- The number at a neighbouring place is not nearer, and if it is as near, the number is even.
  have neighbour : ∀ place, place ≠ number.place → place ≤ number.place + 1 →
      |value - row number.place| ≤ |value - row place| ∧
        (|value - row number.place| = |value - row place| → number.place % 2 = 0) := by
    intro place different within
    have row : place ≤ 2047 * 2 ^ 52 := by omega
    obtain ⟨other, isNumber, sign, rfl⟩ := exists_of_place negative row
    refine ⟨rounded.nearest other isNumber sign, fun tie => ?_⟩
    rw [← fraction_mod_two]
    exact rounded.even other isNumber sign (fun same => different (by rw [same])) tie
  have behind := neighbour (number.place + 1) (by omega) (le_refl _)
  have upper : row number.place < row (number.place + 1) := strictMono_row (Nat.lt_succ_self _)
  refine ⟨fun before next => ?_, le_middle_of_nearer upper behind.1, fun before next middle => ?_,
    fun middle => behind.2 (tie_of_middle middle)⟩
  · have lower : row before < row number.place := strictMono_row (by omega)
    exact middle_le_of_nearer lower (neighbour before (by omega) (by omega)).1
  · exact (neighbour before (by omega) (by omega)).2 (tie_of_middle (by linarith))

end Binary64

end LuaChunk
