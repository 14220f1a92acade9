import IndicatorFormula.Proofs.Number.Rounding

/-! How much is lost by rounding.

Each operation loses a small part of its result, as long as the result is neither so small that bits
are missing nor out of range. Operations one after the other lose the sum of what they lose,
nearly. -/

set_option autoImplicit false
namespace IndicatorFormula.Double

def Near (error x y : ℚ) : Prop :=
  |x - y| ≤ error * |y|

namespace Near

variable {error error' x x' y y' z : ℚ}

theorem mono (near : Near error x y) (less : error ≤ error') : Near error' x y :=
  near.trans (mul_le_mul_of_nonneg_right less (abs_nonneg y))

theorem abs_le (near : Near error x y) : |x| ≤ (1 + error) * |y| := by
  have split := abs_add_le (x - y) y
  rw [sub_add_cancel] at split
  unfold Near at near
  linarith

theorem le_abs (near : Near error x y) : (1 - error) * |y| ≤ |x| := by
  have split := abs_sub_abs_le_abs_sub y x
  rw [abs_sub_comm] at split
  unfold Near at near
  linarith

theorem trans (near : Near error x y) (near' : Near error' y z) (least : 0 ≤ error) :
    Near (error + error' + error * error') x z := by
  have split := abs_sub_le x y z
  have size := mul_le_mul_of_nonneg_left near'.abs_le least
  unfold Near at near near' ⊢
  linarith

theorem mul_left (near : Near error x y) (factor : ℚ) : Near error (factor * x) (factor * y) := by
  unfold Near at near ⊢
  rw [← mul_sub, abs_mul, abs_mul, mul_left_comm]
  exact mul_le_mul_of_nonneg_left near (abs_nonneg factor)

theorem div (near : Near error x y) (near' : Near error' x' y') (least : 0 ≤ error)
    (least' : 0 ≤ error') (small : error' < 1) (nonzero : y' ≠ 0) :
    Near ((error + error') / (1 - error')) (x / x') (y / y') := by
  have size' : 0 < |y'| := abs_pos.mpr nonzero
  have kept : 0 < (1 - error') * |y'| := mul_pos (sub_pos.mpr small) size'
  have nonzero' : x' ≠ 0 := abs_pos.mp (kept.trans_le near'.le_abs)
  have cross : |x * y' - x' * y| ≤ (error + error') * |y| * |y'| := by
    have split := abs_sub ((x - y) * y') ((x' - y') * y)
    rw [abs_mul, abs_mul, show (x - y) * y' - (x' - y') * y = x * y' - x' * y by ring] at split
    have first := mul_le_mul_of_nonneg_right near (abs_nonneg y')
    have second := mul_le_mul_of_nonneg_right near' (abs_nonneg y)
    linarith
  unfold Near
  rw [div_sub_div _ _ nonzero' nonzero, abs_div, abs_mul, abs_div]
  calc |x * y' - x' * y| / (|x'| * |y'|)
    _ ≤ (error + error') * |y| * |y'| / (|x'| * |y'|) := by gcongr
    _ = (error + error') * |y| / |x'| := mul_div_mul_right _ _ size'.ne'
    _ ≤ (error + error') * |y| / ((1 - error') * |y'|) := by
      have numerator : 0 ≤ (error + error') * |y| := by positivity
      exact div_le_div_of_nonneg_left numerator kept near'.le_abs
    _ = (error + error') / (1 - error') * (|y| / |y'|) := mul_div_mul_comm ..

end Near

def IsExact (result : ℚ) : Prop :=
  ∃ x : Double, x.isFinite = true ∧ x.toRat = result

def moderateEnd : Nat := 2 ^ 1000

/-- Holds of rational numbers well within the range in which floating-point numbers have all their
bits. -/
def IsModerate (result : ℚ) : Prop :=
  1 / moderateEnd ≤ |result| ∧ |result| ≤ moderateEnd

theorem IsModerate.ne_zero {result : ℚ} (moderate : IsModerate result) : result ≠ 0 := by
  have least : (0 : ℚ) < 1 / moderateEnd :=
    one_div_pos.mpr (Nat.cast_pos.mpr (pow_pos two_pos 1000))
  exact abs_pos.mp (least.trans_le moderate.1)

theorem Rounds.of_isExact {result : ℚ} {x : Double} (rounds : Rounds result x)
    (exact : IsExact result) : x.isFinite = true ∧ x.toRat = result := by
  obtain ⟨y, finite, same⟩ := exact
  exact rounds.of_toRat finite same

/-- What is near a moderate number is rounded by one part in 2^53 at most. -/
theorem Rounds.near_of_isModerate {result exact : ℚ} {x : Double} (rounds : Rounds result x)
    (moderate : IsModerate exact) (near : Near (1 / 2) result exact) :
    x.isFinite = true ∧ Near (1 / 2 ^ 53) x.toRat result := by
  have reach : (2 * moderateEnd : ℚ) < rangeEnd := by
    exact_mod_cast (by decide +kernel : 2 * moderateEnd < rangeEnd)
  have depth : (1 / 2 ^ 1022 : ℚ) ≤ 1 / (2 * moderateEnd) := by
    have bits : (2 * moderateEnd : ℚ) ≤ 2 ^ 1022 := by
      exact_mod_cast (by decide +kernel : 2 * moderateEnd ≤ 2 ^ 1022)
    refine one_div_le_one_div_of_le (mul_pos two_pos ?_) bits
    exact Nat.cast_pos.mpr (pow_pos two_pos 1000)
  rw [← one_div_mul_one_div] at depth
  obtain ⟨least, most⟩ := moderate
  have normal : 1 / 2 ^ 1022 ≤ |result| :=
    (depth.trans (by linarith only [least])).trans near.le_abs
  have finite : x.isFinite = true :=
    rounds.isFinite_iff.mpr ((near.abs_le.trans (by linarith only [most])).trans_lt reach)
  exact ⟨finite, (rounds.error_le finite normal).trans_eq (by ring)⟩

theorem Rounds.near_of_int {n : Int} {x : Double} (rounds : Rounds n x)
    (finite : x.isFinite = true) : Near (1 / 2 ^ 53) x.toRat n := by
  rcases eq_or_ne n 0 with rfl | nonzero
  · have zero := rounds.of_toRat (y := .zero false) rfl (by simp [zero, toRat, signedUnits, units])
    simp [Near, zero.2]
  · have size : (1 : ℚ) ≤ |(n : ℚ)| := by
      exact_mod_cast Int.one_le_abs nonzero
    have depth : (1 / 2 ^ 1022 : ℚ) ≤ 1 := div_le_self zero_le_one (one_le_pow₀ one_le_two)
    exact (rounds.error_le finite (depth.trans size)).trans_eq (by ring)

end IndicatorFormula.Double
