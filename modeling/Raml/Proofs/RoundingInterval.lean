import Mathlib.Algebra.Order.Field.Power
import Mathlib.Algebra.Order.Field.Rat
import Mathlib.Tactic.Linarith
import Mathlib.Tactic.Ring
import Raml.Number.Decimal

/-!
# Rounding intervals

A value rounds to a number when it lies in the number's rounding interval. The units of numbers grow
with the scale and with the significand, so the intervals of two numbers with different units are
apart: the upper end of the one is not above the lower end of the other, and where the ends meet one
of the two significands is odd, whose interval is open there. So a value in the intervals of two
numbers shows that they have the same units, and with them the same exponent and fraction.
-/
namespace Raml

open Decimal

namespace Binary64

variable {left right : Binary64}

/-- A significand has one bit more than a fraction. -/
theorem significand_lt (number : Binary64) : number.significand < 2 * fractions := by
  have bound : number.fraction.val < fractions := number.fraction.isLt
  unfold significand
  split <;> omega

/-- The significand of a number whose steps are greater than one unit has its hidden bit. -/
theorem fractions_le_significand {number : Binary64} (large : 0 < number.scale) :
    fractions ≤ number.significand := by
  have normal : number.exponent ≠ 0 := by
    intro zero
    simp [scale, zero] at large
  rw [significand, if_neg normal]
  exact Nat.le_add_left _ _

/-- A greater scale gives greater units. -/
theorem units_lt_of_scale_lt (less : left.scale < right.scale) : left.units < right.units := by
  have high : fractions ≤ right.significand := fractions_le_significand (Nat.zero_lt_of_lt less)
  calc left.units = left.significand * 2 ^ left.scale := rfl
    _ < 2 * fractions * 2 ^ left.scale :=
      Nat.mul_lt_mul_of_pos_right left.significand_lt (Nat.two_pow_pos _)
    _ = fractions * 2 ^ (left.scale + 1) := by rw [Nat.pow_succ]; ring
    _ ≤ right.significand * 2 ^ right.scale :=
      Nat.mul_le_mul high (Nat.pow_le_pow_right (by decide) less)

/-- Numbers with the same units have the same exponent and the same fraction. -/
theorem fields_of_units (same : left.units = right.units) :
    left.exponent = right.exponent ∧ left.fraction = right.fraction := by
  have scales : left.scale = right.scale := by
    rcases Nat.lt_trichotomy left.scale right.scale with less | equal | greater
    · exact absurd same (units_lt_of_scale_lt less).ne
    · exact equal
    · exact absurd same.symm (units_lt_of_scale_lt greater).ne
  have significands : left.significand = right.significand := by
    have product : left.significand * 2 ^ left.scale = right.significand * 2 ^ left.scale := by
      rw [show left.significand * 2 ^ left.scale = right.significand * 2 ^ right.scale from same,
        scales]
    exact Nat.eq_of_mul_eq_mul_right (Nat.two_pow_pos _) product
  have leftBound : left.fraction.val < fractions := left.fraction.isLt
  have rightBound : right.fraction.val < fractions := right.fraction.isLt
  have leftZero : left.exponent = 0 ↔ left.exponent.val = 0 := Fin.ext_iff
  have rightZero : right.exponent = 0 ↔ right.exponent.val = 0 := Fin.ext_iff
  unfold scale at scales
  unfold significand at significands
  rw [Fin.ext_iff, Fin.ext_iff]
  split at significands <;> split at significands <;> omega

/-- Half a step above a significand ends before half a step below a greater one begins, and where
the two meet one of the significands is odd. -/
theorem meet_of_lt {low high unit below : Nat} (less : low < high) (half : below ≤ 2 * unit)
    (positive : 0 < unit) :
    4 * (low * unit) + 2 * unit ≤ 4 * (high * unit) - below ∧
      (4 * (low * unit) + 2 * unit = 4 * (high * unit) - below →
        ¬(low % 2 = 0 ∧ high % 2 = 0)) := by
  obtain ⟨gap, rfl⟩ : ∃ gap, high = low + 1 + gap := Nat.exists_eq_add_of_le less
  have parts : (low + 1 + gap) * unit = low * unit + unit + gap * unit := by ring
  rw [parts]
  refine ⟨by omega, fun meeting => ?_⟩
  have none : gap * unit = 0 := by omega
  have zero : gap = 0 := (Nat.mul_eq_zero.mp none).resolve_right positive.ne'
  omega

/-- The same across a change of the step, where the lower half of the least significand is a quarter
of a step. -/
theorem meet_of_coarser {low high unit factor hidden : Nat} (below : low < 2 * hidden)
    (above : hidden ≤ high) (positive : 0 < unit) (coarser : 0 < factor) (some : 0 < hidden) :
    let step := 2 * factor * unit
    let half := if high = hidden then step else 2 * step
    4 * (low * unit) + 2 * unit ≤ 4 * (high * step) - half ∧
      (4 * (low * unit) + 2 * unit = 4 * (high * step) - half →
        ¬(low % 2 = 0 ∧ high % 2 = 0)) := by
  obtain ⟨excess, grown⟩ : ∃ excess, factor * unit = unit + excess :=
    Nat.exists_eq_add_of_le (Nat.le_mul_of_pos_left unit coarser)
  obtain ⟨room, roomy⟩ : ∃ room, 2 * hidden = low + 1 + room := Nat.exists_eq_add_of_le below
  obtain ⟨more, rfl⟩ : ∃ more, high = hidden + more := Nat.exists_eq_add_of_le above
  have sum : 2 * (hidden * unit) = low * unit + unit + room * unit := by
    calc 2 * (hidden * unit) = 2 * hidden * unit := by ring
      _ = low * unit + unit + room * unit := by rw [roomy]; ring
  have doubled : 2 * factor * unit = 2 * (unit + excess) := by rw [Nat.mul_assoc, grown]
  have product : (hidden + more) * (2 * (unit + excess)) =
      2 * (hidden * unit) + 2 * (hidden * excess) + 2 * (more * (unit + excess)) := by ring
  have least : excess ≤ hidden * excess := Nat.le_mul_of_pos_left excess some
  simp only [doubled, product]
  split
  · rename_i same
    obtain rfl : more = 0 := Nat.add_eq_left.mp same
    refine ⟨by omega, fun meeting => ?_⟩
    have none : room * unit = 0 := by omega
    have zero : room = 0 := (Nat.mul_eq_zero.mp none).resolve_right positive.ne'
    omega
  · rename_i apart
    have strict : unit + excess ≤ more * (unit + excess) :=
      Nat.le_mul_of_pos_left _ (Nat.pos_of_ne_zero fun zero => apart (by rw [zero, Nat.add_zero]))
    exact ⟨by omega, fun meeting => by omega⟩

/-- The rounding interval of a number ends before that of a greater one begins. Where the two meet
in one point, one of them is open there. -/
theorem upper_le_lower (less : left.units < right.units) :
    (interval left).upper ≤ (interval right).lower ∧
      ((interval left).upper = (interval right).lower →
        ¬((interval left).closed = true ∧ (interval right).closed = true)) := by
  have step : 0 < 2 ^ left.scale := Nat.two_pow_pos _
  simp only [interval, units, Nat.pow_eq, decide_eq_true_eq]
  rcases Nat.lt_trichotomy left.scale right.scale with coarser | same | finer
  · obtain ⟨gap, gapped⟩ := Nat.exists_eq_add_of_lt coarser
    have large : 0 < right.scale := Nat.zero_lt_of_lt coarser
    have wide : 2 ^ right.scale = 2 * 2 ^ gap * 2 ^ left.scale := by rw [gapped]; ring
    simp only [large, and_true, wide]
    exact meet_of_coarser left.significand_lt (fractions_le_significand large) step
      (Nat.two_pow_pos gap) (by decide)
  · have next : left.significand < right.significand := by
      have ordered : left.significand * 2 ^ left.scale < right.significand * 2 ^ right.scale := less
      rw [← same] at ordered
      exact Nat.lt_of_mul_lt_mul_right ordered
    rw [← same]
    refine meet_of_lt next ?_ step
    split <;> omega
  · exact absurd less (units_lt_of_scale_lt finer).asymm

end Binary64

namespace Decimal

/-- Whether a value lies in an interval of quarters. -/
def Interval.Has (interval : Interval) (value : ℚ) : Prop :=
  if interval.closed then interval.lower ≤ value * quarters ∧ value * quarters ≤ interval.upper
  else interval.lower < value * quarters ∧ value * quarters < interval.upper

/-- A ratio of naturals stands for its quotient. -/
theorem ratio_value (significand : Nat) (exponent : Int) :
    0 < (ratio significand exponent).2 ∧
      ((ratio significand exponent).1 : ℚ) =
        significand * 10 ^ exponent * (ratio significand exponent).2 := by
  cases exponent with
  | ofNat power => simp [ratio]
  | negSucc power => simp [ratio, zpow_negSucc]

/-- The test of a ratio tells whether its quotient lies in the interval. -/
theorem Interval.contains_iff {interval : Interval} {significand : Nat} {exponent : Int} :
    interval.contains (ratio significand exponent) = true ↔
      interval.Has (significand * 10 ^ exponent) := by
  obtain ⟨positive, quotient⟩ := ratio_value significand exponent
  generalize ratio significand exponent = terms at *
  generalize (significand : ℚ) * 10 ^ exponent = value at *
  have divisor : (0 : ℚ) < terms.2 := by exact_mod_cast positive
  have scaled (bound : Nat) : ((bound * terms.2 : Nat) : ℚ) = bound * terms.2 := by push_cast; rfl
  have number : ((terms.1 * quarters : Nat) : ℚ) = value * quarters * terms.2 := by
    push_cast
    rw [quotient]
    ring
  have le_iff (bound : Nat) : bound * terms.2 ≤ terms.1 * quarters ↔
      (bound : ℚ) ≤ value * quarters := by
    rw [← Nat.cast_le (α := ℚ), number, scaled, mul_le_mul_iff_left₀ divisor]
  have ge_iff (bound : Nat) : terms.1 * quarters ≤ bound * terms.2 ↔
      value * quarters ≤ (bound : ℚ) := by
    rw [← Nat.cast_le (α := ℚ), number, scaled, mul_le_mul_iff_left₀ divisor]
  have below : interval.lower * terms.2 < terms.1 * quarters ↔
      (interval.lower : ℚ) < value * quarters := by
    rw [← not_le, ge_iff, not_le]
  have above : terms.1 * quarters < interval.upper * terms.2 ↔
      value * quarters < (interval.upper : ℚ) := by
    rw [← not_le, le_iff, not_le]
  unfold Interval.contains Interval.Has
  split <;> simp only [Bool.and_eq_true, decide_eq_true_eq, le_iff, ge_iff, below, above]

/-- No value lies in the rounding intervals of two numbers with different units. -/
theorem units_eq_of_has {left right : Binary64} {value : ℚ} (first : (interval left).Has value)
    (second : (interval right).Has value) : left.units = right.units := by
  have apart {left right : Binary64} (first : (interval left).Has value)
      (second : (interval right).Has value) : ¬left.units < right.units := by
    intro less
    obtain ⟨ordered, meeting⟩ := Binary64.upper_le_lower less
    have bounds : ((interval left).upper : ℚ) ≤ (interval right).lower := by
      exact_mod_cast ordered
    unfold Interval.Has at first second
    -- Only two closed intervals can share a value, the end at which they meet.
    split at first <;> split at second <;> try linarith [first.1, first.2, second.1, second.2]
    rename_i leftClosed rightClosed
    have touching : ((interval left).upper : ℚ) = (interval right).lower :=
      le_antisymm bounds (second.1.trans first.2)
    exact meeting (by exact_mod_cast touching) ⟨leftClosed, rightClosed⟩
  exact le_antisymm (not_lt.mp (apart second first)) (not_lt.mp (apart first second))

end Decimal

end Raml
