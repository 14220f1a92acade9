import IndicatorFormula.Number.Basic
import IndicatorFormula.Proofs.Number.Nearest

/-! The range of floating-point numbers.

A quotient is rounded to an infinity from one size on, which lies halfway between the greatest
number and the next power of two. Integers of that size cannot take part in floating-point
arithmetic. -/

set_option autoImplicit false
namespace IndicatorFormula

def Double.rangeEnd : Nat := (2 ^ 54 - 1) * 2 ^ 970

namespace Double

theorem rangeEnd_pos : 0 < rangeEnd :=
  Nat.mul_pos (by decide) (pow_pos two_pos 970)

theorem lt_two_pow_of_log2_lt {n bits : Nat} (short : n.log2 < bits) : n < 2 ^ bits := by
  rcases Nat.eq_zero_or_pos n with rfl | positive
  · exact Nat.two_pow_pos bits
  · exact (Nat.log2_lt positive.ne').mp short

theorem two_pow_le_of_lt_log2 {n bits : Nat} (long : bits < n.log2) : 2 ^ (bits + 1) ≤ n := by
  refine (Nat.le_log2 ?_).mp long
  rintro rfl
  exact absurd long (Nat.not_lt_zero _)

theorem mul_two_pow_succ (n bits : Nat) : n * 2 ^ (bits + 1) = 2 * (n * 2 ^ bits) := by
  rw [Nat.pow_succ, ← Nat.mul_assoc, Nat.mul_comm]

theorem mul_two_pow_pos {n : Nat} (positive : 0 < n) (bits : Nat) : 0 < n * 2 ^ bits :=
  Nat.mul_pos positive (Nat.two_pow_pos bits)

theorem kept_bounds (quotient : Nat) :
    quotient / 2 ^ (quotient.log2 - 52) < 2 ^ 53 ∧
      (2 ^ 52 ≤ quotient → 2 ^ 52 ≤ quotient / 2 ^ (quotient.log2 - 52)) := by
  constructor
  · rw [Nat.div_lt_iff_lt_mul (Nat.two_pow_pos _), ← Nat.pow_add]
    exact Nat.lt_log2_self.trans_le (Nat.pow_le_pow_right (by decide) (by omega))
  · intro long
    have nonzero : quotient ≠ 0 := by
      have := Nat.two_pow_pos 52
      omega
    have bits : 52 ≤ quotient.log2 := (Nat.le_log2 nonzero).mpr long
    rw [Nat.le_div_iff_mul_le (Nat.two_pow_pos _), ← Nat.pow_add]
    exact (Nat.le_log2 nonzero).mp (by omega)

theorem nearest_bounds (numerator denominator : Nat) :
    2 ^ 52 * ((numerator / denominator).log2 - 52) +
          numerator / denominator / 2 ^ ((numerator / denominator).log2 - 52) ≤
        nearest numerator denominator ∧
      nearest numerator denominator ≤
        2 ^ 52 * ((numerator / denominator).log2 - 52) +
          numerator / denominator / 2 ^ ((numerator / denominator).log2 - 52) + 1 := by
  unfold nearest
  extract_lets shift step whole rest roundsUp
  have same : whole = numerator / denominator / 2 ^ shift := (Nat.div_div_eq_div_mul _ _ _).symm
  rw [← same]
  split <;> omega

/-- A quotient of at most 2097 bits is rounded to a finite magnitude. -/
theorem nearest_lt_of_log2 {numerator denominator : Nat}
    (bits : (numerator / denominator).log2 < 2097) :
    nearest numerator denominator < finiteMagnitudes := by
  have kept := (kept_bounds (numerator / denominator)).1
  have bound := (nearest_bounds numerator denominator).2
  unfold finiteMagnitudes
  omega

theorem le_nearest_of_log2 {numerator denominator : Nat}
    (bits : 2097 < (numerator / denominator).log2) :
    finiteMagnitudes ≤ nearest numerator denominator := by
  have long : 2 ^ 52 ≤ numerator / denominator := two_pow_le_of_lt_log2 (by omega)
  have kept := (kept_bounds (numerator / denominator)).2 long
  have bound := (nearest_bounds numerator denominator).1
  unfold finiteMagnitudes
  omega

theorem le_nearest_iff_of_log2 {numerator denominator half : Nat} (positive : 0 < half)
    (bits : (numerator / denominator).log2 = 2097) (step : denominator * 2 ^ 2045 = 2 * half) :
    finiteMagnitudes ≤ nearest numerator denominator ↔ (2 ^ 54 - 1) * half ≤ numerator := by
  have kept := (kept_bounds (numerator / denominator)).1
  rw [bits, Nat.div_div_eq_div_mul, show 2097 - 52 = 2045 from rfl, step] at kept
  have division := Nat.div_add_mod numerator (2 * half)
  have rest : numerator % (2 * half) < 2 * half := Nat.mod_lt _ (by omega)
  simp only [nearest, bits, show 2097 - 52 = 2045 from rfl, step]
  generalize numerator / (2 * half) = whole at kept division
  generalize numerator % (2 * half) = remainder at division rest
  unfold finiteMagnitudes
  rcases Nat.lt_or_ge whole (2 ^ 53 - 1) with less | greatest
  · have below : 2 * half * (whole + 1) ≤ 2 * half * (2 ^ 53 - 1) :=
      Nat.mul_le_mul_left _ (by omega)
    have limited : numerator < (2 ^ 54 - 1) * half := by
      rw [Nat.mul_add] at below
      omega
    split <;> omega
  · obtain rfl : whole = 2 ^ 53 - 1 := by omega
    have odd : (2 ^ 53 - 1) % 2 = 1 := by decide
    simp only [odd, Bool.or_eq_true, decide_eq_true_eq, Bool.and_eq_true, beq_iff_eq, and_true,
      beq_self_eq_true]
    split <;> omega

/-- A quotient is rounded to an infinity from the end of the range on. -/
theorem le_nearest_iff (numerator denominator : Nat) (positive : 0 < denominator) :
    finiteMagnitudes ≤ nearest numerator denominator ↔
      rangeEnd * one * denominator ≤ numerator := by
  have scale : rangeEnd * one = (2 ^ 54 - 1) * 2 ^ 2044 := by
    rw [rangeEnd, one_eq, Nat.mul_assoc, ← pow_add]
  have low : 2 ^ 2097 ≤ (2 ^ 54 - 1) * 2 ^ 2044 :=
    calc 2 ^ 2097 = 2 ^ 53 * 2 ^ 2044 := pow_add 2 53 2044
      _ ≤ (2 ^ 54 - 1) * 2 ^ 2044 := Nat.mul_le_mul_right _ (by decide)
  have high : (2 ^ 54 - 1) * 2 ^ 2044 < 2 ^ 2098 := by
    rw [show 2 ^ 2098 = 2 ^ 54 * 2 ^ 2044 from pow_add 2 54 2044]
    exact mul_lt_mul_of_pos_right (by decide) (pow_pos two_pos 2044)
  rw [scale, ← Nat.le_div_iff_mul_le positive]
  rcases lt_trichotomy (numerator / denominator).log2 2097 with short | exact | long
  · have finite := nearest_lt_of_log2 short
    have small := lt_two_pow_of_log2_lt short
    exact iff_of_false (Nat.not_le.mpr finite) (Nat.not_le.mpr (small.trans_le low))
  · have step := mul_two_pow_succ denominator 2044
    have halfPositive : 0 < denominator * 2 ^ 2044 := mul_two_pow_pos positive 2044
    rw [le_nearest_iff_of_log2 halfPositive exact step, Nat.le_div_iff_mul_le positive,
      Nat.mul_comm denominator, Nat.mul_assoc]
  · have large := two_pow_le_of_lt_log2 long
    exact iff_of_true (le_nearest_of_log2 long) (high.le.trans large)

theorem ofMagnitude_eq_infinite_iff {negative sign : Bool} {magnitude : Nat} :
    ofMagnitude negative magnitude = .infinite sign ↔
      finiteMagnitudes ≤ magnitude ∧ negative = sign := by
  unfold ofMagnitude
  split
  · rename_i finite
    simp [Nat.not_le.mpr finite]
  · rename_i large
    simp [Nat.not_lt.mp large]

theorem ofMagnitude_isNaN (negative : Bool) (magnitude : Nat) :
    (ofMagnitude negative magnitude).isNaN = false := by
  unfold ofMagnitude
  split <;> rfl

theorem ofRatio_eq_infinite_iff {negative sign : Bool} {numerator denominator : Nat}
    (positive : 0 < denominator) :
    ofRatio negative numerator denominator = .infinite sign ↔
      rangeEnd * denominator ≤ numerator ∧ negative = sign := by
  rw [ofRatio, ofUnits, ofMagnitude_eq_infinite_iff, le_nearest_iff _ _ positive,
    Nat.mul_comm rangeEnd, Nat.mul_assoc, Nat.mul_le_mul_left_iff one_pos]

theorem le_mul_of_le {least size factor : Nat} (large : least ≤ size) (positive : 0 < factor) :
    least ≤ size * factor :=
  large.trans (Nat.le_mul_of_pos_right size positive)

theorem nearest_pos {numerator denominator : Nat} (long : 2 ^ 52 ≤ numerator / denominator) :
    0 < nearest numerator denominator := by
  have bound := (nearest_bounds numerator denominator).1
  have kept := (kept_bounds (numerator / denominator)).2 long
  omega

theorem ofMagnitude_isZero (negative : Bool) {magnitude : Nat} (positive : 0 < magnitude) :
    (ofMagnitude negative magnitude).isZero = false := by
  unfold ofMagnitude
  split
  · simp [isZero, positive.ne']
  · rfl

theorem ofInt_isZero {n : Int} (nonzero : n ≠ 0) : (ofInt n).isZero = false := by
  have large : 2 ^ 52 ≤ one := by
    rw [one_eq]
    exact pow_le_pow_right₀ one_le_two (by decide)
  have long := le_mul_of_le large (Int.natAbs_pos.mpr nonzero)
  have positive : 0 < nearest (one * n.natAbs) 1 := nearest_pos (by rwa [Nat.div_one])
  rw [ofInt, ofRatio, ofUnits]
  exact ofMagnitude_isZero _ positive

end Double

namespace Number

/-- Holds of integers that no finite floating-point number is nearest to. -/
def IsHuge (x : Number) : Prop :=
  ∃ n, x = .int n ∧ Double.rangeEnd ≤ n.natAbs

theorem toDouble_int (n : Int) :
    toDouble (.int n) = match Double.ofInt n with
      | .infinite _ => .error .overflow
      | x => .ok x :=
  rfl

theorem ofInt_eq_infinite_iff {n : Int} {sign : Bool} :
    Double.ofInt n = .infinite sign ↔ Double.rangeEnd ≤ n.natAbs ∧ decide (n < 0) = sign := by
  rw [Double.ofInt, Double.ofRatio_eq_infinite_iff Nat.one_pos, Nat.mul_one]

theorem toDouble_eq_error_iff {x : Number} {fault : Fault} :
    x.toDouble = .error fault ↔ fault = .overflow ∧ x.IsHuge := by
  cases x with
  | double value => simp [toDouble, IsHuge]
  | bool value => simp [toDouble, IsHuge]
  | int n =>
    rw [toDouble_int]
    constructor
    · intro failed
      split at failed
      · rename_i sign infinite
        cases failed
        exact ⟨rfl, n, rfl, (ofInt_eq_infinite_iff.mp infinite).1⟩
      · cases failed
    · rintro ⟨rfl, m, same, large⟩
      cases same
      rw [ofInt_eq_infinite_iff.mpr ⟨large, rfl⟩]

theorem IsHuge.isZero {x : Number} (huge : x.IsHuge) : x.isZero = false := by
  obtain ⟨n, rfl, large⟩ := huge
  have positive := Double.rangeEnd_pos
  have nonzero : n ≠ 0 := by omega
  simp [Number.isZero, nonzero]

theorem IsHuge.whole? {x : Number} (huge : x.IsHuge) : x.whole? ≠ none := by
  obtain ⟨n, rfl, _⟩ := huge
  simp [Number.whole?]

def Unconvertible (x y : Number) : Prop :=
  (x.IsHuge ∧ y.whole? = none) ∨ (x.whole? = none ∧ y.IsHuge)

end Number
end IndicatorFormula
