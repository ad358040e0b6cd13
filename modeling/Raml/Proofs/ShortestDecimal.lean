import Raml.Proofs.RoundingInterval

/-!
# The shortest decimal

The digits that are written for a positive number round to it. The position of the point is found by
an estimate of the decimal logarithm that is off by two at most. On a grid that starts at that
position the neighbours of the number are naturals of the expected length, and from the seventeenth
digit on one of them lies in the rounding interval, so that the search for the shortest decimal
always ends. Since rounding intervals are apart, the decimal of a number determines its units.
-/
namespace Raml

/-! ## Powers of ten and of two -/

namespace Decimal

/-- An estimate of one power by another holds for their multiples. -/
theorem pow_le_pow_of_estimate {low high less more first second : Nat} (base : 0 < high)
    (some : less ≠ 0) (estimate : low ^ less ≤ high ^ more) (fewer : more * first ≤ less * second) :
    low ^ first ≤ high ^ second := by
  rw [← Nat.pow_le_pow_iff_left some]
  calc (low ^ first) ^ less = (low ^ less) ^ first := Nat.pow_right_comm ..
    _ ≤ (high ^ more) ^ first := Nat.pow_le_pow_left estimate first
    _ = high ^ (more * first) := (Nat.pow_mul ..).symm
    _ ≤ high ^ (less * second) := Nat.pow_le_pow_right base fewer
    _ = (high ^ second) ^ less := by rw [Nat.mul_comm, Nat.pow_mul]

/-- Thirty-one powers of ten are below a hundred and three powers of two. -/
theorem ten_pow_le_two_pow {tens twos : Nat} (fewer : 103 * tens ≤ 31 * twos) :
    10 ^ tens ≤ 2 ^ twos :=
  pow_le_pow_of_estimate (by decide) (by decide) (by decide) fewer

/-- Ninety-three powers of two are below twenty-eight powers of ten. -/
theorem two_pow_le_ten_pow {twos tens : Nat} (fewer : 28 * twos ≤ 93 * tens) :
    2 ^ twos ≤ 10 ^ tens :=
  pow_le_pow_of_estimate (by decide) (by decide) (by decide) fewer

/-- A power of ten is at most a power of two, when the exponents are so by both estimates. -/
theorem ten_zpow_le {tens twos : Int} (up : 103 * tens ≤ 31 * twos) (down : 93 * tens ≤ 28 * twos) :
    (10 : ℚ) ^ tens ≤ 2 ^ twos := by
  rcases le_or_gt 0 twos with large | small
  · lift twos to ℕ using large
    rcases le_or_gt 0 tens with positive | negative
    · lift tens to ℕ using positive
      have naturals : 10 ^ tens ≤ 2 ^ twos := ten_pow_le_two_pow (by omega)
      exact_mod_cast naturals
    · calc (10 : ℚ) ^ tens ≤ 1 := zpow_le_one_of_nonpos₀ (by norm_num) negative.le
        _ ≤ 2 ^ (twos : ℤ) := by
          rw [zpow_natCast]
          exact one_le_pow₀ (by norm_num)
  · obtain ⟨below, rfl⟩ : ∃ below : ℕ, twos = -below := ⟨twos.natAbs, by omega⟩
    obtain ⟨under, rfl⟩ : ∃ under : ℕ, tens = -under := ⟨tens.natAbs, by omega⟩
    have naturals : 2 ^ below ≤ 10 ^ under := two_pow_le_ten_pow (by omega)
    have inverted : (2 : ℚ) ^ below ≤ 10 ^ under := by exact_mod_cast naturals
    rw [zpow_neg, zpow_neg, zpow_natCast, zpow_natCast]
    exact inv_anti₀ (by positivity) inverted

/-- A power of two is at most a power of ten, when the exponents are so by both estimates. -/
theorem two_zpow_le {twos tens : Int} (up : 28 * twos ≤ 93 * tens) (down : 31 * twos ≤ 103 * tens) :
    (2 : ℚ) ^ twos ≤ 10 ^ tens := by
  have inverted : (10 : ℚ) ^ (-tens) ≤ 2 ^ (-twos) := ten_zpow_le (by omega) (by omega)
  rw [zpow_neg, zpow_neg] at inverted
  exact (inv_le_inv₀ (by positivity) (by positivity)).mp inverted

end Decimal

/-! ## The position of the point -/

namespace Binary64

/-- The magnitude of a finite number. -/
def magnitude (number : Binary64) : ℚ := number.units / one

/-- There are units. -/
theorem one_pos : 0 < one := by decide +kernel

/-- The magnitude in quarters of a unit. -/
theorem magnitude_mul_quarters (number : Binary64) :
    number.magnitude * Decimal.quarters = (4 * number.units : Nat) := by
  have nonzero : (one : ℚ) ≠ 0 := Nat.cast_ne_zero.mpr one_pos.ne'
  rw [magnitude, Decimal.quarters, Nat.cast_mul, Nat.cast_mul, mul_left_comm,
    div_mul_cancel₀ _ nonzero]

/-- There are quarters of units. -/
theorem quarters_pos : 0 < Decimal.quarters := Nat.mul_pos four_pos one_pos

/-- A quarter of a unit is a power of two. -/
theorem quarters_eq : Decimal.quarters = 2 ^ 1076 := by decide +kernel

/-- A quarter of a unit as a power of two with an integer for exponent. -/
theorem cast_quarters : (Decimal.quarters : ℚ) = 2 ^ ((1076 : Nat) : Int) := by
  rw [quarters_eq, zpow_natCast, Nat.cast_pow, Nat.cast_ofNat]

/-- The magnitude lies between two powers of two. -/
theorem magnitude_bounds {number : Binary64} (positive : 0 < number.units) :
    let binary : Int := (4 * number.units).log2 - (1076 : Nat)
    (2 : ℚ) ^ binary ≤ number.magnitude ∧ number.magnitude < 2 ^ (binary + 1) := by
  intro binary
  have nonzero : 4 * number.units ≠ 0 := by omega
  have scaled : number.magnitude * 2 ^ ((1076 : Nat) : Int) = (4 * number.units : Nat) := by
    rw [← cast_quarters, magnitude_mul_quarters]
  have shifted : binary + (1076 : Nat) = (4 * number.units).log2 := Int.sub_add_cancel ..
  clear_value binary
  -- The shift stays a variable from here on, so that its power is never evaluated.
  generalize (1076 : Nat) = shift at *
  have unit : (0 : ℚ) < 2 ^ (shift : Int) := by positivity
  constructor
  · have lower : 2 ^ (4 * number.units).log2 ≤ 4 * number.units := Nat.log2_self_le nonzero
    rw [← mul_le_mul_iff_left₀ unit, scaled, ← zpow_add₀ (by norm_num), shifted, zpow_natCast]
    exact_mod_cast lower
  · have upper : 4 * number.units < 2 ^ ((4 * number.units).log2 + 1) := Nat.lt_log2_self
    have next : binary + 1 + shift = ((4 * number.units).log2 + 1 : Nat) := by omega
    rw [← mul_lt_mul_iff_left₀ unit, scaled, ← zpow_add₀ (by norm_num), next, zpow_natCast]
    exact_mod_cast upper

end Binary64

namespace Decimal

variable {number : Binary64} {tie : Tie}

/-- Of four neighbours the first one that passes is found, when the test passes from some point on
that lies among them. -/
theorem find_neighbour {above : Int → Bool} {guess : Int} (low : above (guess - 2) = false)
    (high : above (guess + 2) = true) :
    let found := ([guess - 1, guess, guess + 1, guess + 2].find? above).getD (guess + 3)
    above (found - 1) = false ∧ above found = true := by
  have before : guess - 1 - 1 = guess - 2 := by omega
  have after : guess + 2 - 1 = guess + 1 := by omega
  cases first : above (guess - 1)
  · cases second : above guess
    · cases third : above (guess + 1) <;> simp [first, second, third, high, after]
    · simp [first, second]
  · simp [first, before, low]

/-- Units are bounded by the greatest scale. -/
theorem log2_units_lt (positive : 0 < number.units) : (4 * number.units).log2 < 2101 := by
  have scale : number.scale ≤ 2046 := by
    have bound := number.exponent.isLt
    unfold Binary64.scale
    omega
  have hidden : 4 * number.significand < 2 ^ 55 := by
    have bound := number.significand_lt
    unfold Binary64.fractions at bound
    omega
  rw [Nat.log2_lt (by omega)]
  calc 4 * number.units = 4 * number.significand * 2 ^ number.scale := (Nat.mul_assoc ..).symm
    _ < 2 ^ 55 * 2 ^ number.scale := Nat.mul_lt_mul_of_pos_right hidden (Nat.two_pow_pos _)
    _ = 2 ^ (55 + number.scale) := (Nat.pow_add ..).symm
    _ ≤ 2 ^ 2101 := Nat.pow_le_pow_right (by decide) (by omega)

/-- A multiple of a power of ten is compared with a number as with its magnitude. -/
theorem mul_ratio_le_iff {candidate : Nat} {exponent : Int} :
    candidate * (quarters * (ratio 1 exponent).1) ≤ 4 * number.units * (ratio 1 exponent).2 ↔
      (candidate : ℚ) * 10 ^ exponent ≤ number.magnitude := by
  obtain ⟨positive, quotient⟩ := ratio_value 1 exponent
  generalize ratio 1 exponent = terms at *
  have factor : (0 : ℚ) < quarters * terms.2 :=
    mul_pos (Nat.cast_pos.mpr Binary64.quarters_pos) (Nat.cast_pos.mpr positive)
  have left : ((candidate * (quarters * terms.1) : Nat) : ℚ) =
      candidate * 10 ^ exponent * (quarters * terms.2) := by
    rw [Nat.cast_mul, Nat.cast_mul, quotient]
    push_cast
    ring
  have right : ((4 * number.units * terms.2 : Nat) : ℚ) =
      number.magnitude * (quarters * terms.2) := by
    rw [Nat.cast_mul, ← Binary64.magnitude_mul_quarters]
    ring
  rw [← Nat.cast_le (α := ℚ), left, right, mul_le_mul_iff_left₀ factor]

/-- A power of ten is above a number exactly when it is above its magnitude. -/
theorem above_iff {power : Int} :
    4 * number.units * (ratio 1 power).2 < (ratio 1 power).1 * quarters ↔
      number.magnitude < 10 ^ power := by
  have single : 1 * (quarters * (ratio 1 power).1) ≤ 4 * number.units * (ratio 1 power).2 ↔
      ((1 : Nat) : ℚ) * 10 ^ power ≤ number.magnitude := mul_ratio_le_iff
  rw [Nat.cast_one, one_mul, one_mul] at single
  rw [← not_le, mul_comm (ratio 1 power).1, single, not_le]

/-- The position of the point: the power of ten at it exceeds the number, and the one before it does
not. -/
theorem position_spec (positive : 0 < number.units) :
    (10 : ℚ) ^ (position number - 1) ≤ number.magnitude ∧
      number.magnitude < 10 ^ position number := by
  obtain ⟨lower, upper⟩ := Binary64.magnitude_bounds positive
  have bound := log2_units_lt positive
  set binary : Int := (4 * number.units).log2 - (1076 : Nat) with defined
  have range : -1076 ≤ binary ∧ binary ≤ 1025 := by omega
  let above (power : Int) : Bool :=
    4 * number.units * (ratio 1 power).2 < (ratio 1 power).1 * quarters
  have above_iff (power : Int) : above power = true ↔ number.magnitude < 10 ^ power :=
    decide_eq_true_iff.trans Decimal.above_iff
  have low : above (binary * 30103 / 100000 - 2) = false := by
    rw [← Bool.not_eq_true, above_iff, not_lt]
    exact (ten_zpow_le (by omega) (by omega)).trans lower
  have high : above (binary * 30103 / 100000 + 2) = true := by
    rw [above_iff]
    exact upper.trans_le (two_zpow_le (by omega) (by omega))
  obtain ⟨before, here⟩ := find_neighbour low high
  rw [← Bool.not_eq_true, above_iff, not_lt] at before
  rw [above_iff] at here
  exact ⟨before, here⟩

/-! ## Grids -/

/-- The value of a decimal. -/
def value (decimal : Decimal) : ℚ :=
  decimal.digits * 10 ^ (decimal.point - (Nat.toDigits 10 decimal.digits).length)

/-- The last natural on a grid that is not above a number. -/
theorem le_low_iff {candidate : Nat} {exponent : Int} :
    candidate ≤ 4 * number.units * (ratio 1 exponent).2 / (quarters * (ratio 1 exponent).1) ↔
      (candidate : ℚ) * 10 ^ exponent ≤ number.magnitude := by
  have counted : 0 < (ratio 1 exponent).1 := by
    obtain ⟨positive, quotient⟩ := ratio_value 1 exponent
    rw [← Nat.cast_pos (α := ℚ), quotient]
    exact mul_pos (by positivity) (Nat.cast_pos.mpr positive)
  rw [Nat.le_div_iff_mul_le (Nat.mul_pos Binary64.quarters_pos counted), mul_ratio_le_iff]

/-- A decimal with its digits filled up to a given number has the value that is read off the
grid. -/
theorem value_of_digits {digits count : Nat} {point : Int} (least : 10 ^ count ≤ digits)
    (most : digits < 10 ^ (count + 1)) :
    value ⟨digits, point⟩ = digits * 10 ^ (point - (count + 1 : Nat)) := by
  have enough : (Nat.toDigits 10 digits).length ≤ count + 1 :=
    (Nat.length_toDigits_le_iff (by decide) (by omega)).mpr most
  have all : ¬(Nat.toDigits 10 digits).length ≤ count := by
    cases count with
    | zero => exact not_le.mpr Nat.length_toDigits_pos
    | succ before =>
      rw [Nat.length_toDigits_le_iff (by decide) (by omega)]
      exact not_lt.mpr least
  rw [value, show (Nat.toDigits 10 digits).length = count + 1 by omega]

/-- The decimal of a place on the grid has its value. -/
theorem value_fit {candidate count : Nat} {point : Int} (least : 10 ^ count ≤ candidate)
    (most : candidate ≤ 10 ^ (count + 1)) :
    value (if candidate = Nat.pow 10 (count + 1) then ⟨1, point + 1⟩ else ⟨candidate, point⟩) =
      candidate * 10 ^ (point - (count + 1 : Nat)) := by
  split
  · rename_i full
    have single : value ⟨1, point + 1⟩ =
        (1 : Nat) * 10 ^ (point + 1 - ((0 + 1 : Nat) : Int)) :=
      value_of_digits (by decide) (by decide)
    have first : value ⟨1, point + 1⟩ = 10 ^ point := by
      rw [single]
      simp
    rw [first, full, Nat.pow_eq, Nat.cast_pow, ← zpow_natCast, Nat.cast_ofNat,
      ← zpow_add₀ (by norm_num)]
    congr 1
    omega
  · rename_i partly
    exact value_of_digits least (lt_of_le_of_ne most partly)

/-- A decimal on a grid is one of the two neighbours there, and it lies in the rounding interval. -/
theorem onGrid?_eq_some {point : Int} {count : Nat} {decimal : Decimal}
    (found : onGrid? tie number point count = some decimal) :
    let unit := ratio 1 (point - count)
    let low := 4 * number.units * unit.2 / (quarters * unit.1)
    ∃ candidate, low ≤ candidate ∧ candidate ≤ low + 1 ∧
      (interval number).Has (candidate * 10 ^ (point - count)) ∧
      decimal = if candidate = Nat.pow 10 count then ⟨1, point + 1⟩ else ⟨candidate, point⟩ := by
  intro unit low
  simp only [onGrid?] at found
  split at found
  · rename_i first second
    split at found
    · exact ⟨low + 1, by omega, le_rfl, Interval.contains_iff.mp second,
        (Option.some.inj found).symm⟩
    · exact ⟨low, le_rfl, by omega, Interval.contains_iff.mp first, (Option.some.inj found).symm⟩
  · rename_i first _
    exact ⟨low, le_rfl, by omega, Interval.contains_iff.mp first, (Option.some.inj found).symm⟩
  · rename_i _ second
    exact ⟨low + 1, by omega, le_rfl, Interval.contains_iff.mp second,
      (Option.some.inj found).symm⟩
  · cases found

/-- A decimal on a grid that starts at the first digit rounds to the number. -/
theorem onGrid?_rounds (positive : 0 < number.units) {count : Nat} {decimal : Decimal}
    (found : onGrid? tie number (position number) (count + 1) = some decimal) :
    (interval number).Has decimal.value ∧ 0 < decimal.digits := by
  obtain ⟨candidate, above, below, has, rfl⟩ := onGrid?_eq_some found
  obtain ⟨atLeast, less⟩ := position_spec positive
  generalize position number = point at *
  have ten : (10 : ℚ) ≠ 0 := by norm_num
  have grid (power : Nat) : ((10 ^ power : Nat) : ℚ) * 10 ^ (point - (count + 1 : Nat)) =
      10 ^ (point - (count + 1 : Nat) + power) := by
    rw [Nat.cast_pow, Nat.cast_ofNat, ← zpow_natCast, ← zpow_add₀ ten, add_comm]
  have least : 10 ^ count ≤ candidate := by
    refine le_trans (le_low_iff.mpr ?_) above
    rw [grid, show point - ((count + 1 : Nat) : Int) + (count : Nat) = point - 1 by omega]
    exact atLeast
  have most : candidate ≤ 10 ^ (count + 1) := by
    refine below.trans (Nat.lt_of_not_le fun reached => not_le.mpr less ?_)
    have value := le_low_iff.mp reached
    rw [grid, show point - ((count + 1 : Nat) : Int) + (count + 1 : Nat) = point by omega] at value
    exact value
  rw [value_fit least most]
  refine ⟨has, ?_⟩
  split
  · exact Nat.one_pos
  · exact (Nat.pow_pos (by decide)).trans_le least

/-- The lower half of a rounding interval, in quarters: no more than the upper one, no more than the
number, and more than half of the number's seventeenth digit. -/
theorem interval_shape (positive : 0 < number.units) : ∃ half step : Nat,
    interval number = ⟨4 * number.units - half, 4 * number.units + 2 * step,
      number.significand % 2 = 0⟩ ∧
      half ≤ 2 * step ∧ half ≤ 4 * number.units ∧ 2 * number.units < 10 ^ 16 * half := by
  have hidden : number.significand < 2 * 4503599627370496 := number.significand_lt
  have unit : 0 < 2 ^ number.scale := Nat.two_pow_pos _
  have product : number.units = number.significand * 2 ^ number.scale := rfl
  have some : 1 ≤ number.significand := Nat.pos_of_mul_pos_right (product ▸ positive)
  have least : 2 ^ number.scale ≤ number.units := by
    rw [product]
    exact Nat.le_mul_of_pos_left _ some
  refine ⟨_, 2 ^ number.scale, rfl, ?_⟩
  rw [Nat.pow_eq]
  split
  · rename_i coarse
    have exact : number.units = 4503599627370496 * 2 ^ number.scale := by
      rw [product, coarse.1]
      rfl
    omega
  · have less : number.units < 2 * 4503599627370496 * 2 ^ number.scale := by
      rw [product]
      exact Nat.mul_lt_mul_of_pos_right hidden unit
    omega

/-- The rounding interval of a number reaches further than the sixteenth digit on both sides. -/
theorem has_of_near (positive : 0 < number.units) {value grid : ℚ}
    (fine : 10 ^ 16 * grid ≤ number.magnitude) (below : 2 * (number.magnitude - value) ≤ grid)
    (above : 2 * (value - number.magnitude) ≤ grid) : (interval number).Has value := by
  have quarter : (0 : ℚ) < quarters := Nat.cast_pos.mpr Binary64.quarters_pos
  have scaled : number.magnitude * quarters = 4 * number.units := by
    rw [Binary64.magnitude_mul_quarters]
    push_cast
    rfl
  have digits : 10 ^ 16 * (grid * quarters) ≤ 4 * (number.units : ℚ) := by
    rw [← scaled, ← mul_assoc]
    exact mul_le_mul_of_nonneg_right fine quarter.le
  have under : 2 * (4 * number.units - value * quarters) ≤ grid * quarters := by
    rw [← scaled, ← sub_mul, ← mul_assoc]
    exact mul_le_mul_of_nonneg_right below quarter.le
  have beyond : 2 * (value * quarters - 4 * number.units) ≤ grid * quarters := by
    rw [← scaled, ← sub_mul, ← mul_assoc]
    exact mul_le_mul_of_nonneg_right above quarter.le
  obtain ⟨half, step, shape, narrow, inside, wide⟩ := interval_shape positive
  have lower : ((4 * number.units - half : Nat) : ℚ) < value * quarters := by
    rw [Nat.cast_sub inside]
    have strict : 2 * (number.units : ℚ) < 10 ^ 16 * half := by exact_mod_cast wide
    push_cast
    linarith
  have upper : value * quarters < ((4 * number.units + 2 * step : Nat) : ℚ) := by
    have strict : 2 * (number.units : ℚ) < 10 ^ 16 * half := by exact_mod_cast wide
    have bound : (half : ℚ) ≤ 2 * step := by exact_mod_cast narrow
    push_cast
    linarith
  rw [shape, Interval.Has]
  split
  · exact ⟨lower.le, upper.le⟩
  · exact ⟨lower, upper⟩

/-- On a grid beyond the sixteenth digit one of the neighbours lies in the rounding interval. -/
theorem exists_onGrid? (positive : 0 < number.units) {point : Int} {count : Nat}
    (fine : (10 : ℚ) ^ 16 * 10 ^ (point - count) ≤ number.magnitude) :
    ∃ decimal, onGrid? tie number point count = some decimal := by
  let unit := ratio 1 (point - count)
  let low := 4 * number.units * unit.2 / (quarters * unit.1)
  have below : (low : ℚ) * 10 ^ (point - count) ≤ number.magnitude := le_low_iff.mp le_rfl
  have above : number.magnitude < (low + 1 : ℚ) * 10 ^ (point - count) := by
    rw [← not_le]
    intro reached
    exact Nat.not_succ_le_self low (le_low_iff.mpr (by exact_mod_cast reached))
  have nearest : (interval number).contains (ratio low (point - count)) = true ∨
      (interval number).contains (ratio (low + 1) (point - count)) = true := by
    rw [Interval.contains_iff, Interval.contains_iff, Nat.cast_add, Nat.cast_one]
    generalize (10 : ℚ) ^ (point - count) = grid at *
    rcases le_total (2 * (number.magnitude - low * grid)) grid with near | far
    · exact .inl (has_of_near positive fine near (by linarith))
    · exact .inr (has_of_near positive fine (by linarith) (by linarith))
  simp only [onGrid?]
  split
  · exact ⟨_, rfl⟩
  · exact ⟨_, rfl⟩
  · exact ⟨_, rfl⟩
  · rename_i first second
    rcases nearest with accepted | accepted
    · exact absurd accepted (Bool.eq_false_iff.mp first)
    · exact absurd accepted (Bool.eq_false_iff.mp second)

/-! ## The search -/

/-- The shortest decimal of a positive number rounds to it. -/
theorem shortest_rounds (positive : 0 < number.units) :
    (interval number).Has (shortest tie number).value ∧ 0 < (shortest tie number).digits := by
  have some : ((List.range 17).findSome? fun count =>
      onGrid? tie number (position number) (count + 1)).isSome := by
    -- The last grid that is tried is fine enough for every number.
    obtain ⟨decimal, found⟩ : ∃ decimal,
        onGrid? tie number (position number) (16 + 1) = some decimal := by
      refine exists_onGrid? positive (le_trans (le_of_eq ?_) (position_spec positive).1)
      generalize position number = point
      rw [← zpow_natCast, ← zpow_add₀ (by norm_num)]
      congr 1
      push_cast
      ring
    rw [List.findSome?_isSome_iff]
    exact ⟨16, by decide, by rw [found]; rfl⟩
  obtain ⟨decimal, first⟩ := Option.isSome_iff_exists.mp some
  obtain ⟨count, -, found⟩ := List.exists_of_findSome?_eq_some first
  rw [shortest, first]
  exact onGrid?_rounds positive found

/-- Numbers with shortest decimals of one value have the same units. -/
theorem units_eq_of_shortest {left right : Binary64} (leftPositive : 0 < left.units)
    (rightPositive : 0 < right.units)
    (same : (shortest tie left).value = (shortest tie right).value) : left.units = right.units := by
  have first : (interval left).Has (shortest tie left).value := (shortest_rounds leftPositive).1
  rw [same] at first
  exact units_eq_of_has first (shortest_rounds rightPositive).1

end Decimal

end Raml
