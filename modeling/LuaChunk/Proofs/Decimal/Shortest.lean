import LuaChunk.Decimal.Shortest
import LuaChunk.Proofs.Decimal.Rounding

/-!
# The shortest decimal lies in the rounding interval

The common measure of the search turns comparisons of natural numbers into comparisons of values
(`RoundingInterval.holds_iff`). A grid that is finer than the interval is wide has a point in it
(`RoundingInterval.isSome_nearest?`), and the seventeenth grid of the search is as fine as that,
because sixteen digits are more than 53 binary digits. So the search ends with a point of the
interval (`Dyadic.contains_shortest`). The ends of the interval are halfway to the neighbours of the
number, so this point is rounded to the number (`Binary64.roundedFrom_shortest_iff`).
-/
namespace LuaChunk

/-- The value of a decimal. -/
def Decimal.value (number : Decimal) : ℚ := number.digits * 10 ^ number.exponent

/-- A power is a natural power over another one, and one of the two is one. -/
theorem pow_toNat {base : ℚ} (nonzero : base ≠ 0) (exponent : ℤ) :
    base ^ exponent.toNat = base ^ exponent * base ^ (-exponent).toNat := by
  have split : (exponent.toNat : ℤ) = exponent + (-exponent).toNat := by omega
  rw [← zpow_natCast, ← zpow_natCast, ← zpow_add₀ nonzero, split]

namespace RoundingInterval

/-- The interval contains a value. -/
def Contains (interval : RoundingInterval) (value : ℚ) : Prop :=
  if interval.closed then
    interval.lower * 2 ^ interval.exponent ≤ value ∧ value ≤ interval.upper * 2 ^ interval.exponent
  else
    interval.lower * 2 ^ interval.exponent < value ∧ value < interval.upper * 2 ^ interval.exponent

section Measure

variable (interval : RoundingInterval) (grid : ℤ)

/-- How often the common measure is contained in one. -/
def measure : ℕ := 10 ^ (-grid).toNat * 2 ^ (-interval.exponent).toNat

/-- The common measure can be divided by. -/
theorem measure_pos : (0 : ℚ) < interval.measure grid := by
  have positive : 0 < interval.measure grid := by
    unfold measure
    positivity
  exact_mod_cast positive

/-- A quarter of the last place in the common measure. -/
theorem quarter_eq :
    (interval.quarter grid : ℚ) = 2 ^ interval.exponent * interval.measure grid := by
  have power := pow_toNat two_ne_zero interval.exponent
  simp only [quarter, measure, Nat.pow_eq]
  push_cast
  rw [power]
  ring

/-- The step of a grid in the common measure. -/
theorem step_eq : (interval.step grid : ℚ) = 10 ^ grid * interval.measure grid := by
  have power := pow_toNat (by norm_num : (10 : ℚ) ≠ 0) grid
  simp only [step, measure, Nat.pow_eq]
  push_cast
  rw [power]
  ring

/-- A step of a grid is not empty. -/
theorem step_pos : 0 < interval.step grid := by
  simp only [step, Nat.pow_eq]
  positivity

/-- What is counted in the common measure is compared as the values are. -/
theorem le_iff_of_measure {left right : ℕ} {value other : ℚ}
    (first : (left : ℚ) = value * interval.measure grid)
    (second : (right : ℚ) = other * interval.measure grid) : left ≤ right ↔ value ≤ other := by
  have cast : left ≤ right ↔ (left : ℚ) ≤ right := Nat.cast_le.symm
  rw [cast, first, second]
  exact mul_le_mul_iff_left₀ (interval.measure_pos grid)

/-- A grid holds exactly the points whose values the interval contains. -/
theorem holds_iff (point : ℕ) :
    interval.holds grid point = true ↔ interval.Contains (Decimal.value ⟨point, grid⟩) := by
  have quarters : ∀ count : ℕ, ((count * interval.quarter grid : ℕ) : ℚ) =
      count * 2 ^ interval.exponent * interval.measure grid := by
    intro count
    rw [Nat.cast_mul, quarter_eq, mul_assoc]
  have position : ((point * interval.step grid : ℕ) : ℚ) =
      point * 10 ^ grid * interval.measure grid := by
    rw [Nat.cast_mul, step_eq, mul_assoc]
  unfold holds Contains Decimal.value
  cases interval.closed with
  | true =>
    have lower := interval.le_iff_of_measure grid (quarters interval.lower) position
    have upper := interval.le_iff_of_measure grid position (quarters interval.upper)
    simp [lower, upper]
  | false =>
    have lower := interval.le_iff_of_measure grid position (quarters interval.lower)
    have upper := interval.le_iff_of_measure grid (quarters interval.upper) position
    simp only [Bool.false_eq_true, if_false, Bool.and_eq_true, decide_eq_true_eq]
    rw [← not_le, lower, ← not_le, upper, not_le, not_le]

end Measure

variable {interval : RoundingInterval} {grid : ℤ}

/-- The point that a grid offers lies in the interval. -/
theorem holds_of_nearest? {point : ℕ} (found : interval.nearest? grid = some point) :
    interval.holds grid point = true := by
  simp only [nearest?] at found
  split at found
  · rename_i below
    obtain rfl := Option.some.inj found
    exact (Bool.and_eq_true_iff.mp below).1
  split at found
  · rename_i above
    obtain rfl := Option.some.inj found
    exact above
  · contradiction

/-- A grid offers no point only if neither of the points next to the number lies in the interval. -/
theorem isSome_nearest?_of_holds
    (inside : interval.holds grid (interval.pointBelow grid) = true ∨
      interval.holds grid (interval.pointBelow grid + 1) = true) :
    (interval.nearest? grid).isSome = true := by
  simp only [nearest?]
  split
  · rfl
  split
  · rfl
  · rename_i _ above
    simp_all

/-- The number lies between two points of every grid. -/
theorem pointBelow_bounds (interval : RoundingInterval) (grid : ℤ) :
    interval.pointBelow grid * interval.step grid ≤ interval.centre * interval.quarter grid ∧
      interval.centre * interval.quarter grid <
        interval.pointBelow grid * interval.step grid + interval.step grid := by
  exact ⟨Nat.div_mul_le_self _ _, Nat.lt_div_mul_add (interval.step_pos grid)⟩

/-- The number lies between the ends of the interval in the common measure, too. -/
theorem centre_bounds (grid : ℤ) (before : interval.lower < interval.centre)
    (behind : interval.centre < interval.upper) :
    interval.lower * interval.quarter grid < interval.centre * interval.quarter grid ∧
      interval.centre * interval.quarter grid < interval.upper * interval.quarter grid := by
  have positive : 0 < interval.quarter grid := by
    simp only [quarter, Nat.pow_eq]
    positivity
  exact ⟨Nat.mul_lt_mul_of_pos_right before positive, Nat.mul_lt_mul_of_pos_right behind positive⟩

/-- A step that is shorter than the interval is so in the common measure. -/
theorem add_step_lt
    (narrow : 10 ^ grid < (interval.upper - interval.lower : ℚ) * 2 ^ interval.exponent) :
    interval.lower * interval.quarter grid + interval.step grid <
      interval.upper * interval.quarter grid := by
  have scaled := mul_lt_mul_of_pos_right narrow (interval.measure_pos grid)
  rw [← step_eq, mul_assoc, ← quarter_eq] at scaled
  have cast : ((interval.lower * interval.quarter grid + interval.step grid : ℕ) : ℚ) <
      (interval.upper * interval.quarter grid : ℕ) := by
    push_cast
    linarith
  exact_mod_cast cast

/-- A grid whose step is shorter than the interval has a point in it. -/
theorem isSome_nearest? (before : interval.lower < interval.centre)
    (behind : interval.centre < interval.upper)
    (narrow : 10 ^ grid < (interval.upper - interval.lower : ℚ) * 2 ^ interval.exponent) :
    (interval.nearest? grid).isSome = true := by
  have sides := centre_bounds grid before behind
  have short := add_step_lt narrow
  have bounds := interval.pointBelow_bounds grid
  apply isSome_nearest?_of_holds
  simp only [holds, Nat.succ_mul]
  generalize interval.pointBelow grid * interval.step grid = point at *
  generalize interval.lower * interval.quarter grid = lower at *
  generalize interval.upper * interval.quarter grid = upper at *
  -- If neither point lay in the interval, both ends would be between them.
  cases interval.closed with
  | true =>
    simp only [if_true, Bool.and_eq_true, decide_eq_true_eq]
    omega
  | false =>
    simp only [Bool.false_eq_true, if_false, Bool.and_eq_true, decide_eq_true_eq]
    omega

/-- A decimal is the point that the coarsest grid with a point in the interval offers, among the
grids up to a given one. -/
structure IsFirst (interval : RoundingInterval) (grid : ℤ) (found : Decimal) : Prop where
  /-- Its grid offers it. -/
  offered : interval.nearest? found.exponent = some found.digits
  /-- Its grid is not coarser than the given one. -/
  within : found.exponent ≤ grid
  /-- The grids from the given one down to its own offer nothing. -/
  coarser : ∀ other, found.exponent < other → other ≤ grid → interval.nearest? other = none

/-- If one of the grids of a search offers a point, the search ends with what the first such grid
offers. -/
theorem search_isFirst {finer later : ℕ} (within : later < finer)
    (found : (interval.nearest? (grid - later)).isSome = true) :
    interval.IsFirst grid (interval.search finer grid) := by
  -- The search may end on an earlier grid, but then it has found a point there.
  induction finer generalizing grid later with
  | zero => contradiction
  | succ finer ih =>
    rw [search]
    cases first : interval.nearest? grid with
    | some point =>
      show interval.IsFirst grid ⟨point, grid⟩
      exact ⟨first, le_refl _, fun _ above below => absurd above (Int.not_lt.mpr below)⟩
    | none =>
      show interval.IsFirst grid (interval.search finer (grid - 1))
      cases later with
      | zero => simp [first] at found
      | succ later =>
        have next : grid - (later + 1 : ℕ) = grid - 1 - later := by omega
        rw [next] at found
        obtain ⟨offered, below, nothing⟩ := ih (by omega) found
        refine ⟨offered, by omega, fun other above below => ?_⟩
        by_cases last : other = grid
        · rw [last, first]
        · exact nothing other above (by omega)

/-- A grid that offers a point is not coarser than the first one that does. -/
theorem IsFirst.le_exponent {first : Decimal} {other : ℤ} (isFirst : interval.IsFirst grid first)
    (within : other ≤ grid) (offers : (interval.nearest? other).isSome = true) :
    other ≤ first.exponent := by
  by_contra above
  rw [isFirst.coarser other (by omega) within] at offers
  contradiction

end RoundingInterval

/-- The greatest power of ten with as many digits does not pass a natural number. -/
theorem pow_decimalLength_le {value : ℕ} (positive : 0 < value) :
    10 ^ (decimalLength value - 1) ≤ value := by
  have digits : 0 < decimalLength value := Nat.length_toDigits_pos
  by_cases single : decimalLength value = 1
  · rw [single]
    exact positive
  · have longer : ¬ decimalLength value ≤ decimalLength value - 1 := by omega
    have large := mt (Nat.length_toDigits_le_iff (by decide) (by omega)).mpr longer
    exact Nat.le_of_not_lt large

/-- A natural number is below the power of ten with one digit more. -/
theorem lt_pow_decimalLength (value : ℕ) : value < 10 ^ decimalLength value :=
  (Nat.length_toDigits_le_iff (by decide) Nat.length_toDigits_pos).mp (le_refl _)

namespace Dyadic

variable {number : Dyadic}

/-- A magnitude is its numerator over its denominator. -/
theorem numerator_eq (number : Dyadic) :
    (number.numerator : ℚ) = number.value * number.denominator := by
  have power := pow_toNat two_ne_zero number.exponent
  simp only [numerator, denominator, value, Nat.pow_eq]
  push_cast
  rw [power]
  ring

/-- The denominator of a magnitude is positive. -/
theorem denominator_pos (number : Dyadic) : 0 < number.denominator := by
  simp only [denominator, Nat.pow_eq]
  positivity

/-- The numerator is positive if the magnitude is. -/
theorem numerator_pos (positive : 0 < number.significand) : 0 < number.numerator := by
  simp only [numerator, Nat.pow_eq]
  positivity

/-- The power of ten below the decimal ceiling does not pass the magnitude. -/
theorem pow_decimalCeiling_le (positive : 0 < number.significand) :
    (10 : ℚ) ^ (number.decimalCeiling - 1) ≤ number.value := by
  have denominator := number.denominator_pos
  have numerator := numerator_pos positive
  have cast : (0 : ℚ) < number.denominator := by exact_mod_cast denominator
  rw [← mul_le_mul_iff_left₀ cast, ← numerator_eq]
  unfold decimalCeiling
  split
  · rename_i large
    have floor : 0 < number.floor := Nat.div_pos large denominator
    have digits : 0 < decimalLength number.floor := Nat.length_toDigits_pos
    have exponent : (decimalLength number.floor : ℤ) - 1 =
        (decimalLength number.floor - 1 : ℕ) := by omega
    have power : 10 ^ (decimalLength number.floor - 1) * number.denominator ≤
        number.numerator :=
      calc
        10 ^ (decimalLength number.floor - 1) * number.denominator
            ≤ number.floor * number.denominator :=
          Nat.mul_le_mul_right _ (pow_decimalLength_le floor)
        _ ≤ number.numerator := Nat.div_mul_le_self _ _
    rw [exponent, zpow_natCast]
    exact_mod_cast power
  · generalize quotient : (number.denominator - 1) / number.numerator = ratio
    have below : number.denominator - 1 < number.numerator * (ratio + 1) := by
      rw [← quotient]
      exact Nat.lt_mul_div_succ _ numerator
    have power : number.denominator ≤ number.numerator * 10 ^ decimalLength ratio :=
      calc
        number.denominator ≤ number.numerator * (ratio + 1) := by omega
        _ ≤ number.numerator * 10 ^ decimalLength ratio :=
          Nat.mul_le_mul_left _ (lt_pow_decimalLength ratio)
    have exponent : 1 - (decimalLength ratio : ℤ) - 1 = -(decimalLength ratio : ℕ) := by omega
    rw [exponent, zpow_neg, zpow_natCast, inv_mul_le_iff₀ (by positivity), mul_comm]
    exact_mod_cast power

/-- A quarter of the last place is a quarter of what the last place counts. -/
theorem pow_exponent (number : Dyadic) :
    (2 : ℚ) ^ number.exponent = 4 * 2 ^ (RoundingInterval.ofMagnitude number).exponent := by
  have split : number.exponent = (number.exponent - 2) + 2 := by omega
  show (2 : ℚ) ^ number.exponent = 4 * 2 ^ (number.exponent - 2)
  rw [split, zpow_add₀ two_ne_zero, add_sub_cancel_right]
  norm_num
  ring

/-- The interval is wider than the magnitude in units of sixteen decimal digits. -/
theorem width_ofMagnitude (bounded : number.significand < 2 ^ 53) :
    4 * number.significand + (RoundingInterval.ofMagnitude number).lower * 10 ^ 16 <
      (RoundingInterval.ofMagnitude number).upper * 10 ^ 16 := by
  simp only [RoundingInterval.ofMagnitude, Nat.pow_eq]
  split <;> omega

/-- The grid seventeen places below the decimal ceiling has a point in the interval. -/
theorem isSome_nearest?_seventeen (positive : 0 < number.significand)
    (bounded : number.significand < 2 ^ 53) :
    ((RoundingInterval.ofMagnitude number).nearest? (number.decimalCeiling - (17 : ℕ))).isSome =
      true := by
  have width : (4 * number.significand : ℚ) <
      ((RoundingInterval.ofMagnitude number).upper -
        (RoundingInterval.ofMagnitude number).lower) * 10 ^ 16 := by
    have cast : ((4 * number.significand +
        (RoundingInterval.ofMagnitude number).lower * 10 ^ 16 : ℕ) : ℚ) <
          ((RoundingInterval.ofMagnitude number).upper * 10 ^ 16 : ℕ) := by
      exact_mod_cast width_ofMagnitude bounded
    push_cast at cast
    linarith
  have digits : (10 : ℚ) ^ (number.decimalCeiling - 1) =
      10 ^ (number.decimalCeiling - (17 : ℕ)) * 10 ^ 16 := by
    have split : number.decimalCeiling - 1 = (number.decimalCeiling - (17 : ℕ)) + (16 : ℕ) := by
      omega
    rw [split, zpow_add₀ (by norm_num), zpow_natCast]
  have ceiling := pow_decimalCeiling_le positive
  have quarter : (0 : ℚ) < 2 ^ (RoundingInterval.ofMagnitude number).exponent :=
    zpow_pos two_pos _
  have scaled := mul_lt_mul_of_pos_right width quarter
  rw [digits, value, pow_exponent] at ceiling
  apply RoundingInterval.isSome_nearest?
  · simp only [RoundingInterval.ofMagnitude]
    split <;> omega
  · simp only [RoundingInterval.ofMagnitude]
    omega
  · linarith

/-- The shortest decimal of a number is what the coarsest grid with a point in its interval
offers. -/
theorem shortest_isFirst (positive : 0 < number.significand)
    (bounded : number.significand < 2 ^ 53) :
    (RoundingInterval.ofMagnitude number).IsFirst number.decimalCeiling number.shortest :=
  RoundingInterval.search_isFirst (by decide) (isSome_nearest?_seventeen positive bounded)

/-- The shortest decimal of a number lies in its interval. -/
theorem holds_shortest (positive : 0 < number.significand)
    (bounded : number.significand < 2 ^ 53) :
    (RoundingInterval.ofMagnitude number).holds number.shortest.exponent number.shortest.digits =
      true :=
  RoundingInterval.holds_of_nearest? (shortest_isFirst positive bounded).offered

/-- The interval of a number contains its shortest decimal. -/
theorem contains_shortest (positive : 0 < number.significand)
    (bounded : number.significand < 2 ^ 53) :
    (RoundingInterval.ofMagnitude number).Contains number.shortest.value :=
  ((RoundingInterval.ofMagnitude number).holds_iff _ _).mp (holds_shortest positive bounded)

/-- A natural number in the interval of a number with digits behind the binary point is the number
itself. -/
theorem significand_eq_of_holds {grid : ℤ} {point : ℕ} (fractional : number.exponent < 0)
    (natural : 0 ≤ grid)
    (inside : (RoundingInterval.ofMagnitude number).holds grid point = true) :
    number.significand = point * 10 ^ grid.toNat * number.denominator := by
  have quarter : (RoundingInterval.ofMagnitude number).quarter grid = 1 := by
    have powers : (number.exponent - 2).toNat = 0 ∧ (-grid).toNat = 0 := by omega
    simp [RoundingInterval.quarter, RoundingInterval.ofMagnitude, powers]
  have step : (RoundingInterval.ofMagnitude number).step grid =
      4 * (10 ^ grid.toNat * number.denominator) := by
    have power : (-(number.exponent - 2)).toNat = (-number.exponent).toNat + 2 := by omega
    simp only [RoundingInterval.step, RoundingInterval.ofMagnitude, denominator, Nat.pow_eq, power,
      pow_add]
    ring
  have position : point * (4 * (10 ^ grid.toNat * number.denominator)) =
      4 * (point * 10 ^ grid.toNat * number.denominator) := by ring
  simp only [RoundingInterval.holds, quarter, step, position, mul_one] at inside
  generalize point * 10 ^ grid.toNat * number.denominator = whole at *
  have ends : 4 * number.significand - 2 ≤ 4 * whole ∧ 4 * whole ≤ 4 * number.significand + 2 := by
    have lower : 4 * number.significand - 2 ≤ (RoundingInterval.ofMagnitude number).lower := by
      simp only [RoundingInterval.ofMagnitude]
      split <;> omega
    have upper : (RoundingInterval.ofMagnitude number).upper = 4 * number.significand + 2 := rfl
    split at inside
    · simp only [Bool.and_eq_true, decide_eq_true_eq] at inside
      omega
    · simp only [Bool.and_eq_true, decide_eq_true_eq] at inside
      omega
  omega

/-- A number that is not natural has no natural number in its interval, so its shortest decimal
has digits behind the point. -/
theorem exponent_shortest_neg (positive : 0 < number.significand)
    (bounded : number.significand < 2 ^ 53) (broken : number.isNatural = false) :
    number.shortest.exponent < 0 := by
  by_contra natural
  have fractional : number.exponent < 0 := by
    by_contra whole
    have one : (-number.exponent).toNat = 0 := by omega
    simp [isNatural, denominator, one, Nat.mod_one] at broken
  have significand := significand_eq_of_holds fractional (by omega)
    (holds_shortest positive bounded)
  have power : number.exponent.toNat = 0 := by omega
  have divides : number.numerator % number.denominator = 0 := by
    rw [numerator, power, significand, Nat.pow_eq, pow_zero, mul_one, Nat.mul_mod_left]
  rw [isNatural, divides] at broken
  contradiction

end Dyadic

namespace Binary64

variable {number : Binary64} {negative : Bool} {magnitude : Dyadic}

/-- The significand of a finite number has at most 53 binary digits. -/
theorem significand_lt (finite : number.kind = .finite negative magnitude) :
    magnitude.significand < 2 ^ 53 := by
  obtain ⟨-, significand, -⟩ := place_of_kind finite
  rw [significand, significandAt]
  split <;> omega

/-- The step from the place before, which is half as long in front of a power of two. -/
theorem scaleAt_before {before : ℕ} (finite : number.kind = .finite negative magnitude)
    (next : before + 1 = number.place) :
    (scaleAt before - 1074 : ℤ) =
      if magnitude.significand = 2 ^ 52 ∧ -1074 < magnitude.exponent then magnitude.exponent - 1
      else magnitude.exponent := by
  obtain ⟨-, significand, exponent⟩ := place_of_kind finite
  rw [← next] at significand exponent
  simp only [significandAt, scaleAt] at *
  split at significand <;> split <;> omega

/-- The end of the interval behind a number is halfway to the next number. -/
theorem upper_ofMagnitude (finite : number.kind = .finite negative magnitude) :
    row number.place + row (number.place + 1) =
      2 * ((RoundingInterval.ofMagnitude magnitude).upper *
        2 ^ (RoundingInterval.ofMagnitude magnitude).exponent) := by
  obtain ⟨-, significand, exponent⟩ := place_of_kind finite
  rw [row_succ, row, ← significand, ← exponent, magnitude.pow_exponent]
  simp only [RoundingInterval.ofMagnitude]
  push_cast
  ring

/-- The end of the interval before a number is halfway to the number before. -/
theorem lower_ofMagnitude {before : ℕ} (finite : number.kind = .finite negative magnitude)
    (positive : 0 < magnitude.significand) (next : before + 1 = number.place) :
    row before + row number.place =
      2 * ((RoundingInterval.ofMagnitude magnitude).lower *
        2 ^ (RoundingInterval.ofMagnitude magnitude).exponent) := by
  obtain ⟨-, significand, exponent⟩ := place_of_kind finite
  have step := row_succ before
  have scale := scaleAt_before finite next
  have quarter := magnitude.pow_exponent
  have half : (2 : ℚ) ^ (magnitude.exponent - 1) =
      2 * 2 ^ (RoundingInterval.ofMagnitude magnitude).exponent := by
    rw [zpow_sub_one₀ two_ne_zero, quarter]
    ring
  have own : row number.place = magnitude.significand * 2 ^ magnitude.exponent := by
    rw [row, significand, exponent]
  rw [next, scale] at step
  by_cases irregular : magnitude.significand = 2 ^ 52 ∧ -1074 < magnitude.exponent
  · have lower : (RoundingInterval.ofMagnitude magnitude).lower =
        (4 * magnitude.significand - 1 : ℚ) := by
      rw [RoundingInterval.ofMagnitude, Nat.pow_eq, if_pos irregular, Nat.cast_sub (by omega)]
      push_cast
      rfl
    rw [if_pos irregular, half] at step
    rw [quarter] at own
    rw [lower]
    linarith
  · have lower : (RoundingInterval.ofMagnitude magnitude).lower =
        (4 * magnitude.significand - 2 : ℚ) := by
      rw [RoundingInterval.ofMagnitude, Nat.pow_eq, if_neg irregular, Nat.cast_sub (by omega)]
      push_cast
      rfl
    rw [if_neg irregular, quarter] at step
    rw [quarter] at own
    rw [lower]
    linarith

/-- The ends belong to the interval if the place is even. -/
theorem closed_ofMagnitude (finite : number.kind = .finite negative magnitude) :
    (RoundingInterval.ofMagnitude magnitude).closed = decide (number.place % 2 = 0) := by
  obtain ⟨-, significand, -⟩ := place_of_kind finite
  simp only [RoundingInterval.ofMagnitude, decide_eq_decide, significand, significandAt]
  split <;> omega

/-- A value in the interval of a number is around its place. -/
theorem around_of_contains {value : ℚ} (finite : number.kind = .finite negative magnitude)
    (positive : 0 < magnitude.significand)
    (inside : (RoundingInterval.ofMagnitude magnitude).Contains value) :
    Around row number.place value := by
  have upper := upper_ofMagnitude finite
  have lower := fun (before : ℕ) (next : before + 1 = number.place) =>
    lower_ofMagnitude finite positive next
  rw [RoundingInterval.Contains, closed_ofMagnitude finite] at inside
  by_cases even : number.place % 2 = 0
  · rw [if_pos (decide_eq_true even)] at inside
    refine ⟨fun before next => ?_, ?_, fun _ _ _ => even, fun _ => even⟩
    · linarith [lower before next]
    · linarith
  · rw [if_neg (by simpa using even)] at inside
    refine ⟨fun before next => ?_, ?_, fun before next middle => ?_, fun middle => ?_⟩
    · linarith [lower before next]
    · linarith
    · linarith [lower before next]
    · linarith

/-- The shortest decimal of a number is rounded to this number and to no other one. -/
theorem roundedFrom_shortest_iff (finite : number.kind = .finite negative magnitude)
    (positive : 0 < magnitude.significand) (other : Binary64) :
    other.RoundedFrom negative magnitude.shortest.value ↔ other = number := by
  have inside := Dyadic.contains_shortest positive (significand_lt finite)
  have isNumber : number.kind ≠ .notANumber := by simp [finite]
  rw [← (place_of_kind finite).1]
  exact roundedFrom_iff_of_around isNumber (around_of_contains finite positive inside) other

/-- The value of a number is rounded to this number and to no other one. -/
theorem roundedFrom_value_iff (finite : number.kind = .finite negative magnitude)
    (other : Binary64) : other.RoundedFrom negative magnitude.value ↔ other = number := by
  have isNumber : number.kind ≠ .notANumber := by simp [finite]
  rw [← (place_of_kind finite).1, ← nominal_of_finite finite]
  exact roundedFrom_iff_of_around isNumber (around_self strictMono_row _) other

end Binary64

end LuaChunk
