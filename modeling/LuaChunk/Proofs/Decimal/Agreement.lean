import LuaChunk.Proofs.Decimal.Fewest
import LuaChunk.Proofs.Decimal.Numeral

/-!
# The two printers of numbers agree

The listing writes natural numbers exactly, while the tree view searches for their shortest decimal.
That both come to the same text rests on the last place of the numbers below `10 ^ 16`, which
counts at most two (`Binary64.exponent_le_one`). If it counts one or less, no other natural number
is as near as half of it; if it counts two, then only the odd neighbours are, and these are on no
grid coarser than the one of the natural numbers (`Dyadic.eq_of_contains`), on which the number
itself is offered (`Dyadic.nearest?_zero_of_natural`). The shortest decimal is therefore the number
itself, up to zeros at its end (`Dyadic.shortest_of_natural`), and the printers agree
(`Binary64.printers_agree`).
-/
namespace LuaChunk

namespace Text

/-- A power of ten puts zeros behind a numeral. -/
theorem toDigits_mul_pow {value : ℕ} (positive : 0 < value) (count : ℕ) :
    Nat.toDigits 10 (value * 10 ^ count) = Nat.toDigits 10 value ++ List.replicate count '0' := by
  induction count with
  | zero => simp
  | succ count ih =>
    have before : 0 < value * 10 ^ count := by positivity
    have next : value * 10 ^ (count + 1) = 10 * (value * 10 ^ count) + 0 := by ring
    rw [next, ← Nat.toDigits_append_toDigits (by decide) before (by decide), ih,
      Nat.toDigits_zero, List.append_assoc, ← List.replicate_succ']

end Text

namespace Decimal

open Text

/-- A decimal without digits behind its point is written as the natural number that it is. -/
theorem positional_of_natural {number : Decimal} (natural : 0 ≤ number.exponent)
    (positive : 0 < number.digits) :
    number.positional = Nat.toDigits 10 (number.digits * 10 ^ number.exponent.toNat) := by
  have places : (-number.exponent).toNat = 0 := by omega
  rw [positional, if_pos places, toDigits_mul_pow positive]

/-- A decimal with digits behind its point is written with some of them there. -/
theorem exists_fraction {number : Decimal} (broken : number.exponent < 0) :
    ∃ whole fraction : List Char, number.positional = whole ++ '.' :: fraction ∧
      fraction ≠ [] ∧ (whole ++ fraction).all Char.isDigit = true := by
  have digits := all_isDigit_toDigits number.digits
  rw [positional, if_neg (by omega)]
  split
  · rename_i inside
    refine ⟨_, _, rfl, ?_, by rwa [List.take_append_drop]⟩
    rw [Ne, List.drop_eq_nil_iff]
    omega
  · refine ⟨['0'], List.replicate _ '0' ++ Nat.toDigits 10 number.digits, rfl,
      List.append_ne_nil_of_right_ne_nil _ Nat.toDigits_ne_nil, ?_⟩
    rw [List.all_append, List.all_append, digits, List.all_replicate]
    simp

end Decimal

namespace RoundingInterval

variable {interval : RoundingInterval} {grid : ℤ}

/-- A grid offers the number itself if it has a place there. -/
theorem nearest?_of_exact {point : ℕ} (before : interval.lower < interval.centre)
    (behind : interval.centre < interval.upper)
    (exact : interval.centre * interval.quarter grid = point * interval.step grid) :
    interval.nearest? grid = some point := by
  have sides := centre_bounds grid before behind
  have step := interval.step_pos grid
  have below : interval.pointBelow grid = point := by
    rw [pointBelow, exact, Nat.mul_div_cancel _ step]
  have holds : interval.holds grid point = true := by
    rw [exact] at sides
    simp only [RoundingInterval.holds]
    split <;> simp only [Bool.and_eq_true, decide_eq_true_eq] <;> omega
  have nearer : interval.nearerBelow grid = true := by
    rw [nearerBelow, below, exact, decide_eq_true_eq, Nat.add_mul, Nat.mul_assoc]
    omega
  simp [nearest?, below, holds, nearer]

end RoundingInterval

namespace Dyadic

variable {number : Dyadic}

/-- A magnitude is a natural number if its value is one. -/
theorem isNatural_iff : number.isNatural = true ↔ ∃ natural : ℕ, number.value = natural := by
  constructor
  · intro natural
    exact ⟨number.floor, value_eq_floor natural⟩
  · rintro ⟨natural, value⟩
    have numerator := number.numerator_eq
    rw [value] at numerator
    have product : number.numerator = natural * number.denominator := by exact_mod_cast numerator
    rw [isNatural, product, Nat.mul_mod_left]
    rfl

/-- A magnitude is extreme if its value is. -/
theorem isExtreme_iff : number.isExtreme = true ↔
    10 ^ 16 ≤ number.value ∨ number.value ≠ 0 ∧ number.value < 10 ^ (-4 : ℤ) := by
  have denominator : (0 : ℚ) < number.denominator := by exact_mod_cast number.denominator_pos
  have large : 10 ^ 16 * number.denominator ≤ number.numerator ↔ 10 ^ 16 ≤ number.value := by
    rw [← mul_le_mul_iff_left₀ denominator, ← numerator_eq]
    norm_cast
  have zero : number.numerator ≠ 0 ↔ number.value ≠ 0 := by
    rw [← Nat.cast_ne_zero (R := ℚ), numerator_eq, mul_ne_zero_iff_right denominator.ne']
  have small : 10 ^ 4 * number.numerator < number.denominator ↔
      number.value < 10 ^ (-4 : ℤ) := by
    have power : (10 : ℚ) ^ (-4 : ℤ) = (10 ^ 4)⁻¹ := rfl
    rw [power, ← mul_lt_mul_iff_left₀ denominator, ← numerator_eq,
      lt_inv_mul_iff₀ (by positivity)]
    norm_cast
  simp only [isExtreme, Nat.pow_eq, Bool.or_eq_true, Bool.and_eq_true, decide_eq_true_eq,
    bne_iff_ne, large, zero, small]

/-- What the interval contains is not farther from the magnitude than half of its last place. -/
theorem near_of_contains {value : ℚ}
    (inside : (RoundingInterval.ofMagnitude number).Contains value) :
    2 * number.value ≤ 2 * value + 2 ^ number.exponent ∧
      2 * value ≤ 2 * number.value + 2 ^ number.exponent := by
  have ends : (RoundingInterval.ofMagnitude number).lower *
      2 ^ (RoundingInterval.ofMagnitude number).exponent ≤ value ∧
        value ≤ (RoundingInterval.ofMagnitude number).upper *
          2 ^ (RoundingInterval.ofMagnitude number).exponent := by
    unfold RoundingInterval.Contains at inside
    split at inside
    · exact inside
    · exact ⟨inside.1.le, inside.2.le⟩
  have lower : (4 * number.significand : ℚ) ≤ (RoundingInterval.ofMagnitude number).lower + 2 := by
    have natural : 4 * number.significand ≤ (RoundingInterval.ofMagnitude number).lower + 2 := by
      simp only [RoundingInterval.ofMagnitude]
      split <;> omega
    exact_mod_cast natural
  have upper : (4 * number.significand + 2 : ℚ) = (RoundingInterval.ofMagnitude number).upper := by
    simp [RoundingInterval.ofMagnitude]
  have quarter : (0 : ℚ) < 2 ^ (RoundingInterval.ofMagnitude number).exponent :=
    zpow_pos two_pos _
  have scaled := mul_le_mul_of_nonneg_right lower quarter.le
  rw [Dyadic.value, pow_exponent]
  rw [← upper] at ends
  constructor <;> linarith

/-- If half of the last place is less than one, or one and both numbers are even, then the interval
of a natural number contains no other one. -/
theorem eq_of_contains {natural point : ℕ} (value : number.value = natural)
    (scale : number.exponent ≤ 0 ∨ number.exponent = 1 ∧ point % 2 = 0)
    (inside : (RoundingInterval.ofMagnitude number).Contains point) : point = natural := by
  have near := near_of_contains inside
  rw [value] at near
  cases scale with
  | inl whole =>
    have power : (2 : ℚ) ^ number.exponent ≤ 1 := zpow_le_one_of_nonpos₀ (by norm_num) whole
    have below : 2 * natural ≤ 2 * point + 1 := by
      have cast : (2 * natural : ℚ) ≤ 2 * point + 1 := near.1.trans (by linarith)
      exact_mod_cast cast
    have above : 2 * point ≤ 2 * natural + 1 := by
      have cast : (2 * point : ℚ) ≤ 2 * natural + 1 := near.2.trans (by linarith)
      exact_mod_cast cast
    omega
  | inr double =>
    rw [double.1, zpow_one] at near
    have even : natural = number.significand * 2 := by
      rw [Dyadic.value, double.1, zpow_one] at value
      exact_mod_cast value.symm
    have below : 2 * natural ≤ 2 * point + 2 := by exact_mod_cast near.1
    have above : 2 * point ≤ 2 * natural + 2 := by exact_mod_cast near.2
    omega

/-- A magnitude is positive if its significand is. -/
theorem value_pos (positive : 0 < number.significand) : 0 < number.value := by
  have cast : (0 : ℚ) < number.significand := by exact_mod_cast positive
  exact mul_pos cast (zpow_pos two_pos _)

/-- The grid of the natural numbers offers a natural number itself. -/
theorem nearest?_zero_of_natural {natural : ℕ} (positive : 0 < number.significand)
    (value : number.value = natural) :
    (RoundingInterval.ofMagnitude number).nearest? 0 = some natural := by
  generalize interval : RoundingInterval.ofMagnitude number = range
  have sides := centre_ofMagnitude positive
  have centre := number.centre_eq
  rw [interval] at sides centre
  have exact : ((range.centre * range.quarter 0 : ℕ) : ℚ) = (natural * range.step 0 : ℕ) := by
    rw [Nat.cast_mul, range.quarter_eq, ← mul_assoc, centre, value, Nat.cast_mul, range.step_eq,
      zpow_zero, one_mul]
  exact RoundingInterval.nearest?_of_exact sides.1 sides.2 (by exact_mod_cast exact)

/-- A positive natural number has no digits behind its point. -/
theorem shortest_of_natural {natural : ℕ} (positive : 0 < number.significand)
    (bounded : number.significand < 2 ^ 53) (scale : number.exponent ≤ 1)
    (value : number.value = natural) :
    0 ≤ number.shortest.exponent ∧
      number.shortest.digits * 10 ^ number.shortest.exponent.toNat = natural := by
  have isFirst := shortest_isFirst positive bounded
  have offers := nearest?_zero_of_natural positive value
  have ceiling : 0 ≤ number.decimalCeiling := by
    by_contra negative
    have small := value_lt_pow_decimalCeiling positive
    have one : (10 : ℚ) ^ number.decimalCeiling ≤ 1 :=
      zpow_le_one_of_nonpos₀ (by norm_num) (by omega)
    have zero : natural < 1 := by
      rw [value] at small
      exact_mod_cast small.trans_le one
    have nonzero := value_pos positive
    rw [value] at nonzero
    have cast : 0 < natural := by exact_mod_cast nonzero
    omega
  have exponent : 0 ≤ number.shortest.exponent :=
    isFirst.le_exponent ceiling (by rw [offers]; rfl)
  refine ⟨exponent, ?_⟩
  by_cases unit : number.shortest.exponent = 0
  · have offered := isFirst.offered
    rw [unit, offers] at offered
    rw [unit, Int.toNat_zero, pow_zero, mul_one]
    exact (Option.some.inj offered).symm
  · -- A point of a coarser grid is even.
    obtain ⟨further, power⟩ : ∃ further, number.shortest.exponent.toNat = further + 1 :=
      ⟨number.shortest.exponent.toNat - 1, by omega⟩
    have even : number.shortest.digits * 10 ^ number.shortest.exponent.toNat % 2 = 0 := by
      rw [power, pow_succ, ← mul_assoc]
      omega
    have inside := contains_shortest positive bounded
    rw [Decimal.value, ← Int.toNat_of_nonneg exponent, zpow_natCast] at inside
    exact eq_of_contains value (by omega) (by exact_mod_cast inside)

/-- A natural number below `10 ^ 16` is listed exactly. -/
theorem listed_of_natural {natural : ℕ} (value : number.value = natural)
    (small : natural < 10 ^ 16) : number.listed = Nat.toDigits 10 natural ++ ['.', '0'] := by
  have whole : number.isNatural = true := isNatural_iff.mpr ⟨natural, value⟩
  have ordinary : ¬ number.isExtreme = true := by
    rw [isExtreme_iff, value]
    rintro (large | ⟨nonzero, tiny⟩)
    · have power : 10 ^ 16 ≤ natural := by exact_mod_cast large
      omega
    · have one : (1 : ℚ) ≤ natural := by
        exact_mod_cast Nat.one_le_iff_ne_zero.mpr (by exact_mod_cast nonzero)
      have power : (10 : ℚ) ^ (-4 : ℤ) ≤ 1 := zpow_le_one_of_nonpos₀ (by norm_num) (by decide)
      linarith
  have floor : number.floor = natural := by
    have same := value_eq_floor whole
    rw [value] at same
    exact_mod_cast same.symm
  rw [listed, if_neg ordinary, if_pos whole, floor]

/-- A number with digits behind its point that is not extreme is listed with its shortest decimal,
which has digits behind its point, too. -/
theorem listed_of_broken (bounded : number.significand < 2 ^ 53)
    (broken : ∀ natural : ℕ, number.value ≠ natural) (least : 10 ^ (-4 : ℤ) ≤ number.value)
    (small : number.value < 10 ^ 16) :
    number.listed = number.shortest.positional ∧
      ∃ whole fraction : List Char, number.listed = whole ++ '.' :: fraction ∧
        fraction ≠ [] ∧ (whole ++ fraction).all Char.isDigit = true := by
  have ordinary : ¬ number.isExtreme = true := by
    rw [isExtreme_iff]
    rintro (large | ⟨-, tiny⟩)
    · exact absurd small (not_lt.mpr large)
    · exact absurd least (not_le.mpr tiny)
  have parted : ¬ number.isNatural = true := by
    rw [isNatural_iff]
    rintro ⟨natural, value⟩
    exact broken natural value
  have exponent := exponent_shortest_neg (significand_pos_of_not_isNatural parted) bounded
    (Bool.eq_false_iff.mpr parted)
  have same : number.listed = number.shortest.positional := by
    rw [listed, if_neg ordinary, if_neg parted]
  rw [same]
  exact ⟨rfl, Decimal.exists_fraction exponent⟩

end Dyadic

namespace Binary64

open Text

variable {number : Binary64} {negative : Bool} {magnitude : Dyadic}

/-- Below `10 ^ 16` the last place of a number counts at most two. -/
theorem exponent_le_one (finite : number.kind = .finite negative magnitude)
    (small : magnitude.value < 10 ^ 16) : magnitude.exponent ≤ 1 := by
  obtain ⟨-, significand, exponent⟩ := place_of_kind finite
  by_contra large
  have leading : 2 ^ 52 ≤ magnitude.significand := by
    rw [significand]
    rw [exponent, scaleAt] at large
    rw [significandAt]
    split <;> omega
  have cast : (2 ^ 52 : ℚ) ≤ magnitude.significand := by exact_mod_cast leading
  have power : (2 : ℚ) ^ (2 : ℤ) ≤ 2 ^ magnitude.exponent :=
    zpow_le_zpow_right₀ (by norm_num) (by omega)
  have product : (2 ^ 52 : ℚ) * 2 ^ (2 : ℤ) ≤ magnitude.value :=
    mul_le_mul cast power (by positivity) (by positivity)
  norm_num at product small
  linarith

/-- The shortest decimal of a natural number below `10 ^ 16` is written as this number is. -/
theorem positional_shortest_of_natural (finite : number.kind = .finite negative magnitude)
    {natural : ℕ} (value : magnitude.value = natural) (small : natural < 10 ^ 16) :
    0 ≤ magnitude.shortest.exponent ∧
      magnitude.shortest.positional = Nat.toDigits 10 natural := by
  by_cases zero : magnitude.significand = 0
  · obtain rfl := eq_zero_of_significand finite zero
    have none : natural = 0 := by
      rw [Dyadic.value, Nat.cast_zero, zero_mul] at value
      exact_mod_cast value.symm
    rw [Dyadic.shortest_zero, none]
    decide
  · have positive : 0 < magnitude.significand := Nat.pos_of_ne_zero zero
    have bound : magnitude.value < 10 ^ 16 := by
      rw [value]
      exact_mod_cast small
    obtain ⟨exponent, exact⟩ := Dyadic.shortest_of_natural positive (significand_lt finite)
      (exponent_le_one finite bound) value
    have digits : 0 < magnitude.shortest.digits := by
      have nonzero := Dyadic.value_pos positive
      rw [value, ← exact] at nonzero
      have cast : 0 < magnitude.shortest.digits * 10 ^ magnitude.shortest.exponent.toNat := by
        exact_mod_cast nonzero
      exact Nat.pos_of_mul_pos_right cast
    exact ⟨exponent, by rw [Decimal.positional_of_natural exponent digits, exact]⟩

/-- Both printers write a finite magnitude in the same way. -/
theorem listed_eq_shown_of_finite (finite : number.kind = .finite negative magnitude) :
    magnitude.listed = magnitude.shown := by
  unfold Dyadic.shown
  split
  · rename_i zero
    have value : magnitude.value = (0 : ℕ) := by
      rw [Dyadic.value, zero, Nat.cast_zero, zero_mul]
    exact Dyadic.listed_of_natural value (by decide)
  split
  · rename_i extreme
    rw [Dyadic.listed, if_pos extreme]
  · rename_i nonzero ordinary
    have positive : 0 < magnitude.significand := Nat.pos_of_ne_zero nonzero
    rw [Decimal.pointed]
    by_cases whole : magnitude.isNatural = true
    · obtain ⟨natural, value⟩ := Dyadic.isNatural_iff.mp whole
      have small : natural < 10 ^ 16 := by
        have notLarge : ¬ 10 ^ 16 ≤ magnitude.value := fun large =>
          ordinary (Dyadic.isExtreme_iff.mpr (Or.inl large))
        rw [value, not_le] at notLarge
        exact_mod_cast notLarge
      have shortest := positional_shortest_of_natural finite value small
      rw [Dyadic.listed_of_natural value small, if_pos shortest.1, shortest.2]
    · have exponent := Dyadic.exponent_shortest_neg positive (significand_lt finite)
        (Bool.eq_false_iff.mpr whole)
      rw [Dyadic.listed, if_neg ordinary, if_neg whole, if_neg (by omega)]

/-- Both printers write a number that is not a NaN in the same way. -/
theorem listed_eq_shown (isNumber : number.kind ≠ .notANumber) : number.listed = number.shown := by
  cases kind : number.kind with
  | notANumber => contradiction
  | infinite negative => simp [listed, shown, kind]
  | finite negative magnitude => simp [listed, shown, kind, listed_eq_shown_of_finite kind]

/-- The two printers of numbers agree: they write each number that is not a NaN in the same way, and
differ only in the name of a NaN. The shortest decimal of a finite number is in fact a shortest one
that reads back. For a natural number below `10 ^ 16` the exact value with one digit behind the
point, which the listing writes, is the shortest decimal with `.0` behind it. The shortest decimal
of any other number from `10 ^ -4` up to `10 ^ 16` has digits behind the point. -/
theorem printers_agree :
    (∀ number : Binary64, number.kind ≠ .notANumber → number.listed = number.shown) ∧
    (∀ number : Binary64, number.kind = .notANumber →
      number.listed = "nan" ∧ number.shown = "NaN") ∧
    ∀ (number : Binary64) (negative : Bool) (magnitude : Dyadic),
      number.kind = .finite negative magnitude →
        number.IsShortest negative magnitude.shortest ∧
        (∀ natural : ℕ, magnitude.value = natural → natural < 10 ^ 16 →
          magnitude.listed = Nat.toDigits 10 natural ++ ['.', '0'] ∧
            magnitude.shortest.positional = Nat.toDigits 10 natural) ∧
        ((∀ natural : ℕ, magnitude.value ≠ natural) → 10 ^ (-4 : ℤ) ≤ magnitude.value →
          magnitude.value < 10 ^ 16 →
            magnitude.listed = magnitude.shortest.positional ∧
              ∃ whole fraction : List Char, magnitude.listed = whole ++ '.' :: fraction ∧
                fraction ≠ [] ∧ (whole ++ fraction).all Char.isDigit = true) := by
  refine ⟨fun number => listed_eq_shown, fun number kind => ?_, ?_⟩
  · simp [listed, shown, kind]
  · intro number negative magnitude finite
    refine ⟨isShortest_shortest finite, fun natural value small => ?_,
      Dyadic.listed_of_broken (significand_lt finite)⟩
    exact ⟨Dyadic.listed_of_natural value small,
      (positional_shortest_of_natural finite value small).2⟩

/-- An even natural number above `2 ^ 53`, a half, and a NaN. -/
theorem printers_agree_even :
    ((⟨0x4340000000000001⟩ : Binary64).kind = .finite false ⟨2 ^ 52 + 1, 1⟩ ∧
      (⟨0x4340000000000001⟩ : Binary64).listed = (⟨0x4340000000000001⟩ : Binary64).shown ∧
      (⟨0x4340000000000001⟩ : Binary64).IsShortest false (Dyadic.shortest ⟨2 ^ 52 + 1, 1⟩) ∧
      (Dyadic.shortest ⟨2 ^ 52 + 1, 1⟩).positional = Nat.toDigits 10 9007199254740994) ∧
    ((⟨0x3FE0000000000000⟩ : Binary64).kind = .finite false ⟨2 ^ 52, -53⟩ ∧
      ∃ whole fraction : List Char,
        Dyadic.listed ⟨2 ^ 52, -53⟩ = whole ++ '.' :: fraction ∧ fraction ≠ []) ∧
    (⟨0x7FF8000000000000⟩ : Binary64).listed = "nan" ∧
      (⟨0x7FF8000000000000⟩ : Binary64).shown = "NaN" := by
  have even : (⟨0x4340000000000001⟩ : Binary64).kind = .finite false ⟨2 ^ 52 + 1, 1⟩ := by decide
  have half : (⟨0x3FE0000000000000⟩ : Binary64).kind = .finite false ⟨2 ^ 52, -53⟩ := by decide
  have nan : (⟨0x7FF8000000000000⟩ : Binary64).kind = .notANumber := by decide
  have evenValue : Dyadic.value ⟨2 ^ 52 + 1, 1⟩ = (9007199254740994 : ℕ) := by
    norm_num [Dyadic.value]
  have halfValue : Dyadic.value ⟨2 ^ 52, -53⟩ = 1 / 2 := by norm_num [Dyadic.value]
  have broken : ∀ natural : ℕ, Dyadic.value ⟨2 ^ 52, -53⟩ ≠ natural := by
    intro natural same
    rw [halfValue, div_eq_iff two_ne_zero] at same
    have double : 1 = natural * 2 := by exact_mod_cast same
    omega
  obtain ⟨same, names, finite⟩ := printers_agree
  obtain ⟨shortest, whole, -⟩ := finite _ _ _ even
  obtain ⟨-, -, parted⟩ := finite _ _ _ half
  obtain ⟨-, front, back, text, digits, -⟩ := parted broken (by rw [halfValue]; norm_num)
    (by rw [halfValue]; norm_num)
  exact ⟨⟨even, same _ (by simp [even]), shortest, (whole _ evenValue (by decide)).2⟩,
    ⟨half, front, back, text, digits⟩, names _ nan⟩

end Binary64

end LuaChunk
