import LuaChunk.Proofs.Decimal.Shortest

/-!
# No decimal with fewer digits reads back

A value that is rounded to a number lies in the interval of the number
(`Binary64.contains_of_around`), and with two values the interval contains everything between
them. If a decimal with fewer digits than the shortest one were in the interval, then so would be a
power of ten between the two, and this power has a place on a coarser grid than the one on which the
search ended. So the shortest decimal of a number reads back, and none with fewer digits does
(`Binary64.isShortest_shortest`).
-/
namespace LuaChunk

/-- A decimal is a point of each finer grid. -/
theorem Decimal.value_eq_finer (number : Decimal) {grid : ℤ} (finer : grid ≤ number.exponent) :
    number.value =
      Decimal.value ⟨number.digits * 10 ^ (number.exponent - grid).toNat, grid⟩ := by
  have split : number.exponent = (number.exponent - grid).toNat + grid := by omega
  rw [Decimal.value, Decimal.value, split, zpow_add₀ (by norm_num), zpow_natCast, ← split]
  push_cast
  ring

/-- Between a decimal and one with more digits on a grid that is not finer lies a power of ten, and
it is a point of a coarser grid. -/
theorem Decimal.exists_power_between {short long : Decimal}
    (fewer : decimalLength short.digits < decimalLength long.digits)
    (grids : short.exponent ≤ long.exponent) :
    ∃ power : Decimal, long.exponent < power.exponent ∧ short.value ≤ power.value ∧
      power.value ≤ long.value := by
  have some : 0 < decimalLength short.digits := Nat.length_toDigits_pos
  obtain ⟨further, length⟩ : ∃ further, decimalLength long.digits = further + 1 :=
    ⟨decimalLength long.digits - 1, by omega⟩
  have power : Decimal.value ⟨1, long.exponent + further⟩ = 10 ^ further * 10 ^ long.exponent := by
    rw [Decimal.value, zpow_add₀ (by norm_num), zpow_natCast, Nat.cast_one]
    ring
  refine ⟨⟨1, long.exponent + further⟩, by show _ < _ + _; omega, ?_, ?_⟩
  · have digits : short.digits ≤ 10 ^ further :=
      calc
        short.digits ≤ 10 ^ decimalLength short.digits := (lt_pow_decimalLength _).le
        _ ≤ 10 ^ further := Nat.pow_le_pow_right (by decide) (by omega)
    have cast : (short.digits : ℚ) ≤ 10 ^ further := by exact_mod_cast digits
    have steps : (10 : ℚ) ^ short.exponent ≤ 10 ^ long.exponent :=
      zpow_le_zpow_right₀ (by norm_num) grids
    rw [power, Decimal.value]
    exact mul_le_mul cast steps (by positivity) (by positivity)
  · have nonzero : 0 < long.digits := by
      by_contra zero
      have single : decimalLength long.digits = 1 := by
        rw [Nat.eq_zero_of_not_pos zero]
        rfl
      omega
    have digits : 10 ^ further ≤ long.digits := by
      have least := pow_decimalLength_le nonzero
      rwa [length, Nat.add_sub_cancel] at least
    have cast : (10 ^ further : ℚ) ≤ long.digits := by exact_mod_cast digits
    rw [power, Decimal.value]
    exact mul_le_mul_of_nonneg_right cast (by positivity)

namespace RoundingInterval

variable {interval : RoundingInterval} {grid : ℤ}

/-- The interval contains what lies between two of its values. -/
theorem Contains.between {low high value : ℚ} (first : interval.Contains low)
    (last : interval.Contains high) (above : low ≤ value) (below : value ≤ high) :
    interval.Contains value := by
  unfold Contains at *
  cases closed : interval.closed with
  | true =>
    simp only [closed, if_true] at *
    exact ⟨first.1.trans above, below.trans last.2⟩
  | false =>
    simp only [closed, Bool.false_eq_true, if_false] at *
    exact ⟨first.1.trans_le above, below.trans_lt last.2⟩

/-- A grid offers one of the two points next to the number. -/
theorem eq_of_nearest? {point : ℕ} (offered : interval.nearest? grid = some point) :
    point = interval.pointBelow grid ∨ point = interval.pointBelow grid + 1 := by
  simp only [nearest?] at offered
  split at offered
  · exact Or.inl (Option.some.inj offered).symm
  split at offered
  · exact Or.inr (Option.some.inj offered).symm
  · contradiction

/-- A grid with a point in the interval offers one. -/
theorem isSome_nearest?_of_holds_point {point : ℕ} (before : interval.lower < interval.centre)
    (behind : interval.centre < interval.upper) (inside : interval.holds grid point = true) :
    (interval.nearest? grid).isSome = true := by
  have sides := centre_bounds grid before behind
  have bounds := interval.pointBelow_bounds grid
  -- The point next to the number on the side of the given one is not farther than this one.
  have nearer : point * interval.step grid ≤ interval.pointBelow grid * interval.step grid ∨
      interval.pointBelow grid * interval.step grid + interval.step grid ≤
        point * interval.step grid := by
    rw [← Nat.succ_mul]
    cases Nat.lt_or_ge (interval.pointBelow grid) point with
    | inl above => exact Or.inr (Nat.mul_le_mul_right _ above)
    | inr below => exact Or.inl (Nat.mul_le_mul_right _ below)
  apply isSome_nearest?_of_holds
  simp only [holds, Nat.succ_mul] at *
  generalize interval.pointBelow grid * interval.step grid = next at *
  generalize point * interval.step grid = position at *
  generalize interval.lower * interval.quarter grid = lower at *
  generalize interval.upper * interval.quarter grid = upper at *
  cases closed : interval.closed with
  | true =>
    simp only [closed, if_true, Bool.and_eq_true, decide_eq_true_eq] at *
    omega
  | false =>
    simp only [closed, Bool.false_eq_true, if_false, Bool.and_eq_true, decide_eq_true_eq] at *
    omega

end RoundingInterval

namespace Dyadic

variable {number : Dyadic}

/-- A positive magnitude is below its decimal ceiling. -/
theorem value_lt_pow_decimalCeiling (positive : 0 < number.significand) :
    number.value < 10 ^ number.decimalCeiling := by
  have denominator := number.denominator_pos
  have numerator := numerator_pos positive
  have cast : (0 : ℚ) < number.denominator := by exact_mod_cast denominator
  rw [← mul_lt_mul_iff_left₀ cast, ← numerator_eq]
  unfold decimalCeiling
  split
  · have power : number.numerator < 10 ^ decimalLength number.floor * number.denominator :=
      (Nat.div_lt_iff_lt_mul denominator).mp (lt_pow_decimalLength number.floor)
    rw [zpow_natCast]
    exact_mod_cast power
  · rename_i small
    generalize quotient : (number.denominator - 1) / number.numerator = ratio
    have ratioPositive : 0 < ratio := by
      rw [← quotient]
      exact Nat.div_pos (by omega) numerator
    have digits : 0 < decimalLength ratio := Nat.length_toDigits_pos
    have power : number.numerator * 10 ^ (decimalLength ratio - 1) < number.denominator :=
      calc
        number.numerator * 10 ^ (decimalLength ratio - 1) ≤ number.numerator * ratio :=
          Nat.mul_le_mul_left _ (pow_decimalLength_le ratioPositive)
        _ ≤ number.denominator - 1 := by
          rw [← quotient]
          exact Nat.mul_div_le _ _
        _ < number.denominator := by omega
    have exponent : (1 - decimalLength ratio : ℤ) = -(decimalLength ratio - 1 : ℕ) := by omega
    rw [exponent, zpow_neg, zpow_natCast, lt_inv_mul_iff₀ (by positivity), mul_comm]
    exact_mod_cast power

/-- The interval of a magnitude reaches to both of its sides. -/
theorem centre_ofMagnitude (positive : 0 < number.significand) :
    (RoundingInterval.ofMagnitude number).lower < (RoundingInterval.ofMagnitude number).centre ∧
      (RoundingInterval.ofMagnitude number).centre <
        (RoundingInterval.ofMagnitude number).upper := by
  simp only [RoundingInterval.ofMagnitude]
  constructor
  · split <;> omega
  · omega

/-- The centre of the interval of a magnitude is the magnitude. -/
theorem centre_eq (number : Dyadic) :
    (RoundingInterval.ofMagnitude number).centre *
      2 ^ (RoundingInterval.ofMagnitude number).exponent = number.value := by
  rw [value, pow_exponent]
  simp only [RoundingInterval.ofMagnitude]
  push_cast
  ring

/-- On the grid of the decimal ceiling only zero and one are next to the magnitude. -/
theorem le_one_of_nearest? (positive : 0 < number.significand) {point : ℕ}
    (offered : (RoundingInterval.ofMagnitude number).nearest? number.decimalCeiling = some point) :
    point ≤ 1 := by
  generalize interval : RoundingInterval.ofMagnitude number = range at offered
  have centre : ((range.centre * range.quarter number.decimalCeiling : ℕ) : ℚ) =
      number.value * range.measure number.decimalCeiling := by
    rw [Nat.cast_mul, range.quarter_eq, ← mul_assoc, ← interval, centre_eq]
  have short := range.le_iff_of_measure number.decimalCeiling (range.step_eq _) centre
  have small : range.centre * range.quarter number.decimalCeiling <
      range.step number.decimalCeiling := by
    rw [← not_le, short, not_le]
    exact value_lt_pow_decimalCeiling positive
  have below : range.pointBelow number.decimalCeiling = 0 := Nat.div_eq_of_lt small
  cases RoundingInterval.eq_of_nearest? offered with
  | inl first => omega
  | inr second => omega

/-- A coarser grid than the one of the shortest decimal has no point in the interval, if the search
began on a coarser one. -/
theorem not_contains_of_coarser (positive : 0 < number.significand)
    (bounded : number.significand < 2 ^ 53)
    (later : number.shortest.exponent < number.decimalCeiling)
    {other : Decimal} (coarser : number.shortest.exponent < other.exponent) :
    ¬ (RoundingInterval.ofMagnitude number).Contains other.value := by
  intro inside
  have nothing := (shortest_isFirst positive bounded).coarser (number.shortest.exponent + 1)
    (by omega) (by omega)
  -- The point is also one of the grid before the last one.
  rw [other.value_eq_finer (by omega : number.shortest.exponent + 1 ≤ other.exponent),
    ← RoundingInterval.holds_iff] at inside
  have sides := centre_ofMagnitude positive
  have offers := RoundingInterval.isSome_nearest?_of_holds_point sides.1 sides.2 inside
  rw [nothing] at offers
  contradiction

/-- No decimal in the interval of a number has fewer digits than the shortest one. -/
theorem decimalLength_shortest_le (positive : 0 < number.significand)
    (bounded : number.significand < 2 ^ 53) {other : Decimal}
    (inside : (RoundingInterval.ofMagnitude number).Contains other.value) :
    decimalLength number.shortest.digits ≤ decimalLength other.digits := by
  have isFirst := shortest_isFirst positive bounded
  by_cases start : number.shortest.exponent = number.decimalCeiling
  · have offered := isFirst.offered
    rw [start] at offered
    have small : number.shortest.digits < 10 := by
      have one := le_one_of_nearest? positive offered
      omega
    have single : decimalLength number.shortest.digits = 1 :=
      congrArg List.length (Nat.toDigits_of_lt_base small)
    rw [single]
    exact Nat.length_toDigits_pos
  · have within := isFirst.within
    have later : number.shortest.exponent < number.decimalCeiling := by omega
    by_contra fewer
    have grid : other.exponent ≤ number.shortest.exponent := by
      by_contra coarser
      exact not_contains_of_coarser positive bounded later (by omega) inside
    obtain ⟨power, coarser, above, below⟩ :=
      Decimal.exists_power_between (Nat.lt_of_not_le fewer) grid
    have between := inside.between (contains_shortest positive bounded) above below
    exact not_contains_of_coarser positive bounded later coarser between

/-- The shortest decimal of zero is zero. -/
theorem shortest_zero : (⟨0, -1074⟩ : Dyadic).shortest = ⟨0, 0⟩ := by decide +kernel

end Dyadic

namespace Binary64

variable {number : Binary64} {negative : Bool} {magnitude : Dyadic}

/-- Zero has only one magnitude. -/
theorem eq_zero_of_significand (finite : number.kind = .finite negative magnitude)
    (zero : magnitude.significand = 0) : magnitude = ⟨0, -1074⟩ := by
  obtain ⟨-, significand, exponent⟩ := place_of_kind finite
  have first : number.place = 0 := by
    rw [zero, significandAt] at significand
    split at significand <;> omega
  rw [first] at exponent
  obtain ⟨_, _⟩ := magnitude
  exact congrArg₂ Dyadic.mk zero exponent

/-- A value around the place of a number lies in its interval. -/
theorem contains_of_around {value : ℚ} (finite : number.kind = .finite negative magnitude)
    (positive : 0 < magnitude.significand) (around : Around row number.place value) :
    (RoundingInterval.ofMagnitude magnitude).Contains value := by
  have upper := upper_ofMagnitude finite
  obtain ⟨before, next⟩ : ∃ before, before + 1 = number.place := by
    obtain ⟨-, significand, -⟩ := place_of_kind finite
    have nonzero : number.place ≠ 0 := by
      intro zero
      rw [significand, zero] at positive
      contradiction
    exact ⟨number.place - 1, by omega⟩
  have lower := lower_ofMagnitude finite positive next
  have fromLower := around.lower before next
  have fromUpper := around.upper
  rw [RoundingInterval.Contains, closed_ofMagnitude finite]
  by_cases even : number.place % 2 = 0
  · rw [if_pos (decide_eq_true even)]
    exact ⟨by linarith, by linarith⟩
  · rw [if_neg (by simpa using even)]
    -- The number is odd, so a value halfway to a neighbour is not rounded to it.
    constructor
    · exact lt_of_le_of_ne (by linarith) fun same =>
        even (around.lowerEven before next (by linarith))
    · exact lt_of_le_of_ne (by linarith) fun same => even (around.upperEven (by linarith))

/-- A decimal is a shortest one that reads back: the number is the only one that it is rounded to,
and each other decimal that is rounded to this number has at least as many digits. -/
structure IsShortest (number : Binary64) (negative : Bool) (shortest : Decimal) : Prop where
  /-- The decimal reads back. -/
  readsBack : ∀ other : Binary64, other.RoundedFrom negative shortest.value ↔ other = number
  /-- None with fewer digits does. -/
  fewest : ∀ other : Decimal, number.RoundedFrom negative other.value →
    decimalLength shortest.digits ≤ decimalLength other.digits

/-- The shortest decimal of a finite number is a shortest one that reads back. -/
theorem isShortest_shortest (finite : number.kind = .finite negative magnitude) :
    number.IsShortest negative magnitude.shortest := by
  by_cases zero : magnitude.significand = 0
  · obtain rfl := eq_zero_of_significand finite zero
    have same : Decimal.value ⟨0, 0⟩ = Dyadic.value ⟨0, -1074⟩ := by
      rw [Decimal.value, Dyadic.value, Nat.cast_zero, zero_mul, zero_mul]
    rw [Dyadic.shortest_zero]
    refine ⟨fun other => ?_, fun other _ => Nat.length_toDigits_pos⟩
    rw [same]
    exact roundedFrom_value_iff finite other
  · have positive : 0 < magnitude.significand := Nat.pos_of_ne_zero zero
    refine ⟨roundedFrom_shortest_iff finite positive, fun other rounded => ?_⟩
    exact Dyadic.decimalLength_shortest_le positive (significand_lt finite)
      (contains_of_around finite positive (around_of_roundedFrom finite rounded))

end Binary64

end LuaChunk
