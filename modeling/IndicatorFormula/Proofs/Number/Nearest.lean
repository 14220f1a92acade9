import IndicatorFormula.Number.Decimal
import Mathlib.Algebra.Order.Group.Nat
import Mathlib.Tactic.Positivity
import Mathlib.Tactic.Ring

/-! Rounding to the nearest magnitude.

The magnitude nearest to a quotient depends on the quotient alone, and a quotient that is the size
of a magnitude is rounded to that magnitude. -/

set_option autoImplicit false
namespace IndicatorFormula.Double

theorem one_eq : one = 2 ^ 1074 := by
  delta one
  exact rfl

theorem one_pos : 0 < one := by
  rw [one_eq]
  exact pow_pos two_pos 1074

theorem nearest_mul_mul (numerator denominator factor : Nat) (positive : 0 < factor) :
    nearest (numerator * factor) (denominator * factor) = nearest numerator denominator := by
  have step : ∀ shift, denominator * factor * 2 ^ shift = denominator * 2 ^ shift * factor :=
    fun shift => by ring
  have twice : ∀ rest, 2 * (rest * factor) = 2 * rest * factor := fun rest => by ring
  have equal : ∀ x y, (x * factor == y * factor) = (x == y) := fun x y => by
    rw [Bool.eq_iff_iff, beq_iff_eq, beq_iff_eq, Nat.mul_left_inj positive.ne']
  simp only [nearest, Nat.mul_div_mul_right _ _ positive, step, Nat.mul_mod_mul_right, twice,
    Nat.mul_lt_mul_right positive, equal]

theorem nearest_zero (denominator : Nat) : nearest 0 denominator = 0 := by
  simp [nearest]

theorem nearest_of_eq_mul {numerator denominator shift : Nat} (whole : Nat)
    (positive : 0 < denominator) (bits : (numerator / denominator).log2 - 52 = shift)
    (exact : numerator = whole * (denominator * 2 ^ shift)) :
    nearest numerator denominator = 2 ^ 52 * shift + whole := by
  have stepPositive : 0 < denominator * 2 ^ shift := Nat.mul_pos positive (Nat.two_pow_pos shift)
  have rest : numerator % (denominator * 2 ^ shift) = 0 := by rw [exact, Nat.mul_mod_left]
  have quotient : numerator / (denominator * 2 ^ shift) = whole := by
    rw [exact, Nat.mul_div_cancel _ stepPositive]
  simp only [nearest, bits, rest, quotient]
  simp [positive.ne']

theorem units_of_lt {magnitude : Nat} (small : magnitude < 2 ^ 52) : units magnitude = magnitude :=
  if_pos small

theorem units_of_le {magnitude : Nat} (large : 2 ^ 52 ≤ magnitude) :
    units magnitude = (2 ^ 52 + magnitude % 2 ^ 52) * 2 ^ (magnitude / 2 ^ 52 - 1) :=
  if_neg (Nat.not_lt.mpr large)

/-- The exponent of a magnitude is the number of bits that its size has behind the first 53. -/
theorem log2_units_of_le {magnitude : Nat} (large : 2 ^ 52 ≤ magnitude) :
    (units magnitude).log2 = 52 + (magnitude / 2 ^ 52 - 1) := by
  have fraction : magnitude % 2 ^ 52 < 2 ^ 52 := Nat.mod_lt _ (by decide)
  rw [units_of_le large]
  generalize magnitude / 2 ^ 52 - 1 = shift
  rw [Nat.log2_eq_iff (by positivity), Nat.pow_add, Nat.add_right_comm, Nat.pow_add]
  constructor
  · exact Nat.mul_le_mul_right _ (Nat.le_add_right _ _)
  · exact Nat.mul_lt_mul_of_pos_right (by omega) (Nat.two_pow_pos _)

theorem nearest_units (magnitude denominator : Nat) (positive : 0 < denominator) :
    nearest (units magnitude * denominator) denominator = magnitude := by
  have quotient : units magnitude * denominator / denominator = units magnitude :=
    Nat.mul_div_cancel _ positive
  by_cases small : magnitude < 2 ^ 52
  · have bits : (units magnitude * denominator / denominator).log2 - 52 = 0 := by
      rw [quotient, units_of_lt small]
      rcases Nat.eq_zero_or_pos magnitude with rfl | nonzero
      · rfl
      · have := (Nat.log2_lt nonzero.ne').mpr small
        omega
    rw [nearest_of_eq_mul magnitude positive bits
      (by rw [units_of_lt small, Nat.pow_zero, Nat.mul_one])]
    omega
  · have large : 2 ^ 52 ≤ magnitude := Nat.not_lt.mp small
    have exponent : 0 < magnitude / 2 ^ 52 := Nat.div_pos large (by decide)
    have bits : (units magnitude * denominator / denominator).log2 - 52 =
        magnitude / 2 ^ 52 - 1 := by
      rw [quotient, log2_units_of_le large]
      omega
    rw [nearest_of_eq_mul (2 ^ 52 + magnitude % 2 ^ 52) positive bits
      (by rw [units_of_le large, Nat.mul_assoc, Nat.mul_comm denominator])]
    omega

theorem units_pos {magnitude : Nat} (positive : 0 < magnitude) : 0 < units magnitude := by
  unfold units
  split
  · exact positive
  · positivity

theorem mul_two_pow_le (shift limit size : Nat) (less : shift ≤ limit) :
    size * 2 ^ shift ≤ size * 2 ^ limit :=
  Nat.mul_le_mul_left _ (Nat.pow_le_pow_right (by decide) less)

theorem units_lt {magnitude : Nat} (finite : magnitude < finiteMagnitudes) :
    units magnitude < 2 ^ 1024 * one := by
  have greatest : 2 ^ 53 * 2 ^ 2045 ≤ 2 ^ 1024 * one := by
    rw [one_eq, ← pow_add, ← pow_add]
  by_cases small : magnitude < 2 ^ 52
  · rw [units_of_lt small]
    calc magnitude < 2 ^ 52 := small
      _ ≤ 2 ^ 53 * 2 ^ 2045 := by
        rw [← pow_add]
        exact pow_le_pow_right₀ one_le_two (by decide)
      _ ≤ 2 ^ 1024 * one := greatest
  · rw [units_of_le (Nat.not_lt.mp small)]
    have fraction : magnitude % 2 ^ 52 < 2 ^ 52 := Nat.mod_lt _ (by decide)
    have exponent : magnitude / 2 ^ 52 < 2047 := (Nat.div_lt_iff_lt_mul (by decide)).mpr finite
    have below : (2 ^ 52 + magnitude % 2 ^ 52) * 2 ^ (magnitude / 2 ^ 52 - 1) <
        2 ^ 53 * 2 ^ (magnitude / 2 ^ 52 - 1) :=
      Nat.mul_lt_mul_of_pos_right (by omega) (Nat.two_pow_pos _)
    have last := mul_two_pow_le (magnitude / 2 ^ 52 - 1) 2045 (2 ^ 53) (by omega)
    exact (below.trans_le last).trans_le greatest

end IndicatorFormula.Double
