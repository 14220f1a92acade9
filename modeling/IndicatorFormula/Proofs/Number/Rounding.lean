import IndicatorFormula.Proofs.Number.Range
import Mathlib.Algebra.Order.Field.Rat
import Mathlib.Algebra.Order.Field.Basic
import Mathlib.Order.Monotone.Basic
import Mathlib.Tactic.FieldSimp
import Mathlib.Tactic.Linarith

/-! Rounding as the nearest number.

Results are computed exactly and rounded once. No finite number is closer to the exact result than
the one it is rounded to, and of two that are equally close it is the even one. A result that is a
finite number stays as it is. -/

set_option autoImplicit false
namespace IndicatorFormula.Double

section Magnitudes

/-- The kept bits and the exponent of a magnitude give its size, also where rounding up has
carried. -/
theorem units_of_kept {shift whole : Nat} (fits : whole ≤ 2 ^ 53)
    (normal : shift = 0 ∨ 2 ^ 52 ≤ whole) : units (2 ^ 52 * shift + whole) = whole * 2 ^ shift := by
  rcases Nat.lt_or_ge whole (2 ^ 52) with small | large
  · obtain rfl : shift = 0 := normal.resolve_right (Nat.not_le.mpr small)
    rw [units_of_lt (by omega)]
    omega
  · rw [units_of_le (by omega)]
    rcases Nat.lt_or_eq_of_le fits with less | rfl
    · rw [show (2 ^ 52 * shift + whole) % 2 ^ 52 = whole - 2 ^ 52 by omega,
        show (2 ^ 52 * shift + whole) / 2 ^ 52 - 1 = shift by omega, Nat.add_sub_cancel' large]
    · rw [show (2 ^ 52 * shift + 2 ^ 53) % 2 ^ 52 = 0 by omega,
        show (2 ^ 52 * shift + 2 ^ 53) / 2 ^ 52 - 1 = shift + 1 by omega, Nat.add_zero,
        ← Nat.pow_add, ← Nat.pow_add]
      congr 1
      omega

theorem exists_kept (magnitude : Nat) :
    ∃ shift whole, magnitude = 2 ^ 52 * shift + whole ∧ whole < 2 ^ 53 ∧
      (shift = 0 ∨ 2 ^ 52 ≤ whole) := by
  refine ⟨magnitude / 2 ^ 52 - 1, magnitude - 2 ^ 52 * (magnitude / 2 ^ 52 - 1), ?_, ?_, ?_⟩ <;>
    omega

theorem units_strictMono : StrictMono units := by
  refine strictMono_nat_of_lt_succ fun magnitude => ?_
  obtain ⟨shift, whole, rfl, fits, normal⟩ := exists_kept magnitude
  rw [Nat.add_assoc, units_of_kept fits.le normal,
    units_of_kept fits (normal.imp_right (Nat.le_succ_of_le))]
  exact Nat.mul_lt_mul_of_pos_right (Nat.lt_succ_self whole) (Nat.two_pow_pos shift)

/-- A quotient lies between a magnitude and the next. It is rounded to the one that is closer, and
halfway to the even one. Where it has all its bits, the two are close together. -/
theorem exists_neighbours (numerator : Nat) {denominator : Nat} (positive : 0 < denominator) :
    ∃ lower step rest, numerator = units lower * denominator + rest ∧ rest < step ∧
      units (lower + 1) * denominator = units lower * denominator + step ∧
      (2 ^ 52 * denominator ≤ numerator → 2 ^ 52 * step ≤ numerator) ∧
      (nearest numerator denominator = lower ∧ 2 * rest ≤ step ∧ (2 * rest = step → lower % 2 = 0) ∨
        nearest numerator denominator = lower + 1 ∧ step ≤ 2 * rest ∧
          (2 * rest = step → lower % 2 = 1)) := by
  obtain ⟨fits, long⟩ := kept_bounds (numerator / denominator)
  have normal : (numerator / denominator).log2 - 52 = 0 ∨ 2 ^ 52 ≤ numerator / denominator := by
    rcases Nat.lt_or_ge 52 (numerator / denominator).log2 with more | short
    · exact .inr (Nat.le_trans (by decide) (two_pow_le_of_lt_log2 more))
    · exact .inl (Nat.sub_eq_zero_of_le short)
  have normal := normal.imp_right long
  rw [Nat.div_div_eq_div_mul] at fits long normal
  simp only [nearest]
  generalize (numerator / denominator).log2 - 52 = shift at fits long normal ⊢
  have split := Nat.div_add_mod' numerator (denominator * 2 ^ shift)
  have less := Nat.mod_lt numerator (mul_two_pow_pos positive shift)
  generalize numerator % (denominator * 2 ^ shift) = rest at split less ⊢
  generalize numerator / (denominator * 2 ^ shift) = whole at fits long normal split ⊢
  have size {bits : Nat} (fits : bits ≤ 2 ^ 53) (normal : shift = 0 ∨ 2 ^ 52 ≤ bits) :
      units (2 ^ 52 * shift + bits) * denominator = bits * (denominator * 2 ^ shift) := by
    rw [units_of_kept fits normal, Nat.mul_assoc, Nat.mul_comm denominator]
  refine ⟨2 ^ 52 * shift + whole, denominator * 2 ^ shift, rest, ?_, less, ?_, fun reaches => ?_,
    ?_⟩
  · rw [size fits.le normal, split]
  · rw [Nat.add_assoc, size fits (normal.imp_right fun long => Nat.le_succ_of_le long),
      size fits.le normal, Nat.succ_mul]
  · have bits :=
      Nat.mul_le_mul_right (denominator * 2 ^ shift)
        (long ((Nat.le_div_iff_mul_le positive).mpr reaches))
    omega
  · split <;> rename_i up <;>
      simp only [Bool.or_eq_true, decide_eq_true_eq, Bool.and_eq_true, beq_iff_eq] at up
    · exact .inr ⟨rfl, by omega, by omega⟩
    · exact .inl ⟨rfl, by omega, by omega⟩

/-- No magnitude is closer to a quotient than the one it is rounded to, and of two that are equally
close it is even. -/
theorem nearest_closest (numerator : Nat) {denominator : Nat} (positive : 0 < denominator)
    (magnitude : Nat) :
    let distance (magnitude : Nat) : Nat :=
      ((units magnitude * denominator : Nat) - numerator : Int).natAbs
    distance (nearest numerator denominator) ≤ distance magnitude ∧
      (distance (nearest numerator denominator) = distance magnitude →
        nearest numerator denominator = magnitude ∨ nearest numerator denominator % 2 = 0) := by
  intro distance
  by_cases same : nearest numerator denominator = magnitude
  · exact ⟨same ▸ Nat.le_refl _, fun _ => .inl same⟩
  rw [or_iff_right same]
  obtain ⟨lower, step, rest, between, less, next, -, rounded⟩ :=
    exists_neighbours numerator positive
  have order {first second : Nat} (less : first < second) :
      units first * denominator < units second * denominator :=
    Nat.mul_lt_mul_of_pos_right (units_strictMono less) positive
  have place : magnitude = lower ∨ magnitude = lower + 1 ∨
      units magnitude * denominator < units lower * denominator ∨
      units (lower + 1) * denominator < units magnitude * denominator := by
    rcases Nat.lt_trichotomy magnitude lower with below | here | above
    · exact .inr (.inr (.inl (order below)))
    · exact .inl here
    · rcases Nat.lt_or_eq_of_le (Nat.succ_le_of_lt above) with further | here
      · exact .inr (.inr (.inr (order further)))
      · exact .inr (.inl here.symm)
  rcases rounded with ⟨rounds, closer, even⟩ | ⟨rounds, closer, even⟩ <;> rw [rounds] at same ⊢ <;>
    rcases place with rfl | rfl | far | far <;> simp only [distance] <;> omega

theorem nearest_error {numerator denominator : Nat} (positive : 0 < denominator)
    (long : 2 ^ 52 * denominator ≤ numerator) :
    2 ^ 53 *
        ((units (nearest numerator denominator) * denominator : Nat) - numerator : Int).natAbs ≤
      numerator := by
  obtain ⟨lower, step, rest, between, less, next, close, rounded⟩ :=
    exists_neighbours numerator positive
  have close := close long
  rcases rounded with ⟨rounds, closer, -⟩ | ⟨rounds, closer, -⟩ <;> rw [rounds] <;> omega

end Magnitudes

/-- The rational number that a finite number is. Others are none and count as zero. -/
def toRat : Double → ℚ
  | .finite negative magnitude => signedUnits negative magnitude / one
  | _ => 0

/-- A number is what an exact result is rounded to. No finite number is closer, and of two that are
equally close it is the even one. A result beyond the range of finite numbers is rounded to an
infinity of its sign. -/
inductive Rounds (result : ℚ) : Double → Prop where
  | finite {negative : Bool} {magnitude : Fin finiteMagnitudes} (small : |result| < rangeEnd)
      (closest : ∀ other : Double, other.isFinite = true →
        |toRat (.finite negative magnitude) - result| ≤ |other.toRat - result| ∧
          (|toRat (.finite negative magnitude) - result| = |other.toRat - result| →
            toRat (.finite negative magnitude) = other.toRat ∨ magnitude.val % 2 = 0)) :
      Rounds result (.finite negative magnitude)
  | infinite {negative : Bool} (large : rangeEnd ≤ |result|) (sign : negative = true ↔ result < 0) :
      Rounds result (.infinite negative)

theorem one_rat_pos : (0 : ℚ) < one :=
  Nat.cast_pos.mpr one_pos

@[simp] theorem toRat_positive (magnitude : Fin finiteMagnitudes) :
    toRat (.finite false magnitude) = units magnitude / one := by
  simp [toRat, signedUnits]

@[simp] theorem toRat_neg (x : Double) : x.neg.toRat = -x.toRat := by
  cases x with
  | finite negative magnitude => cases negative <;> simp [neg, toRat, signedUnits, neg_div]
  | _ => simp [neg, toRat]

@[simp] theorem isFinite_neg (x : Double) : x.neg.isFinite = x.isFinite := by
  cases x <;> rfl

namespace Rounds

theorem neg {result : ℚ} {x : Double} (rounds : Rounds result x) : Rounds (-result) x.neg := by
  cases rounds with
  | @finite negative magnitude small closest =>
    refine .finite (by rwa [abs_neg]) fun other isFinite => ?_
    obtain ⟨closer, even⟩ := closest other.neg (by rwa [isFinite_neg])
    have mirrored (x y : ℚ) : |-x - -y| = |x - y| := by rw [← neg_sub', abs_neg]
    have own : toRat (.finite (!negative) magnitude) = -toRat (.finite negative magnitude) :=
      toRat_neg (.finite negative magnitude)
    have opposite : other.toRat = -other.neg.toRat := by rw [toRat_neg, neg_neg]
    rw [own, opposite, mirrored, mirrored, neg_inj]
    exact ⟨closer, even⟩
  | infinite large sign =>
    have nonzero : result ≠ 0 := by
      rintro rfl
      rw [abs_zero, Nat.cast_nonpos] at large
      exact absurd large rangeEnd_pos.ne'
    refine .infinite (by rwa [abs_neg]) ?_
    rw [Bool.not_eq_true', ← Bool.not_eq_true, sign, not_lt, neg_lt_zero]
    exact ⟨fun least => lt_of_le_of_ne least nonzero.symm, le_of_lt⟩

end Rounds

def distance (result : ℚ) (magnitude : Nat) : ℚ :=
  |units magnitude / one - result|

theorem distance_eq (numerator : Nat) {denominator : Nat} (positive : 0 < denominator)
    (magnitude : Nat) :
    distance (numerator / (denominator * one)) magnitude =
      (((units magnitude * denominator : Nat) - numerator : Int).natAbs : ℚ) /
        (denominator * one) := by
  have scale : (0 : ℚ) < denominator * one := mul_pos (Nat.cast_pos.mpr positive) one_rat_pos
  rw [distance, Nat.cast_natAbs, Int.cast_abs, ← abs_of_pos scale, ← abs_div, abs_of_pos scale]
  congr 1
  have unit := one_rat_pos
  push_cast
  field_simp

/-- Of all magnitudes a quotient of units is rounded to the closest. -/
theorem distance_nearest (numerator : Nat) {denominator : Nat} (positive : 0 < denominator)
    (magnitude : Nat) :
    let result : ℚ := numerator / (denominator * one)
    distance result (nearest numerator denominator) ≤ distance result magnitude ∧
      (distance result (nearest numerator denominator) = distance result magnitude →
        nearest numerator denominator = magnitude ∨ nearest numerator denominator % 2 = 0) := by
  have scale : (0 : ℚ) < denominator * one := mul_pos (Nat.cast_pos.mpr positive) one_rat_pos
  simp only [distance_eq numerator positive, div_le_div_iff_of_pos_right scale,
    div_left_inj' scale.ne', Nat.cast_le, Nat.cast_inj]
  exact nearest_closest numerator positive magnitude

theorem rangeEnd_le_iff (numerator : Nat) {denominator : Nat} (positive : 0 < denominator) :
    (rangeEnd : ℚ) ≤ numerator / (denominator * one) ↔
      finiteMagnitudes ≤ nearest numerator denominator := by
  rw [le_nearest_iff _ _ positive, le_div_iff₀ (mul_pos (Nat.cast_pos.mpr positive) one_rat_pos),
    mul_left_comm, mul_comm]
  exact_mod_cast Iff.rfl

theorem closest_of_distance {result : ℚ} (least : 0 ≤ result) {rounded : Fin finiteMagnitudes}
    (closest : ∀ magnitude, distance result rounded ≤ distance result magnitude ∧
      (distance result rounded = distance result magnitude →
        rounded.val = magnitude ∨ rounded.val % 2 = 0)) (other : Double)
    (finite : other.isFinite = true) :
    |toRat (.finite false rounded) - result| ≤ |other.toRat - result| ∧
      (|toRat (.finite false rounded) - result| = |other.toRat - result| →
        toRat (.finite false rounded) = other.toRat ∨ rounded.val % 2 = 0) := by
  cases other <;> cases finite
  rename_i negative magnitude
  have size (magnitude : Nat) : (0 : ℚ) ≤ units magnitude / one := by positivity
  cases negative with
  | false =>
    obtain ⟨closer, even⟩ := closest magnitude
    rw [toRat_positive, toRat_positive]
    exact ⟨closer,
      fun equal =>
        (even equal).imp_left (congrArg fun magnitude : Nat => (units magnitude / one : ℚ))⟩
  | true =>
    -- Numbers below zero are farther than zero is.
    obtain ⟨closer, even⟩ := closest 0
    have fromZero : distance result 0 = result := by
      rw [distance, units_of_lt (by decide), Nat.cast_zero, zero_div, zero_sub, abs_neg,
        abs_of_nonneg least]
    have opposite : toRat (.finite true magnitude) = -(units magnitude / one) := by
      rw [← toRat_positive, ← toRat_neg]
      rfl
    have farther : |(-(units magnitude / one) - result : ℚ)| = units magnitude / one + result := by
      rw [← neg_add', abs_neg, abs_of_nonneg (add_nonneg (size magnitude) least)]
    rw [opposite, farther, toRat_positive, ← distance]
    have positive := size magnitude
    refine ⟨by linarith, fun equal => ?_⟩
    have none : (units magnitude / one : ℚ) = 0 := by linarith
    refine (even (by linarith)).imp_left fun zero => ?_
    rw [zero, none, units_of_lt (by decide), Nat.cast_zero, zero_div, neg_zero]

theorem rounds_ofUnits_positive (numerator : Nat) {denominator : Nat} (positive : 0 < denominator) :
    Rounds (numerator / (denominator * one)) (ofUnits false numerator denominator) := by
  have least : (0 : ℚ) ≤ numerator / (denominator * one) := by positivity
  have large := rangeEnd_le_iff numerator positive
  unfold ofUnits ofMagnitude
  split
  · rename_i small
    refine .finite ?_ (closest_of_distance least (distance_nearest numerator positive))
    rw [abs_of_nonneg least]
    exact lt_of_not_ge fun reached => absurd (large.mp reached) (Nat.not_le.mpr small)
  · rename_i beyond
    refine .infinite ?_ (iff_of_false nofun (not_lt.mpr least))
    rw [abs_of_nonneg least]
    exact large.mpr (Nat.le_of_not_lt beyond)

def signed (negative : Bool) (size : ℚ) : ℚ :=
  if negative then -size else size

theorem toRat_finite (negative : Bool) (magnitude : Fin finiteMagnitudes) :
    toRat (.finite negative magnitude) = signed negative (units magnitude / one) := by
  cases negative <;> simp [toRat, signed, signedUnits, neg_div]

theorem signed_mul (negative negative' : Bool) (size size' : ℚ) :
    signed negative size * signed negative' size' =
      signed (negative != negative') (size * size') := by
  cases negative <;> cases negative' <;> simp [signed]

theorem signed_div (negative negative' : Bool) (size size' : ℚ) :
    signed negative size / signed negative' size' =
      signed (negative != negative') (size / size') := by
  cases negative <;> cases negative' <;> simp [signed, neg_div, div_neg]

theorem abs_signed_sub (negative : Bool) (size size' : ℚ) :
    |signed negative size - signed negative size'| = |size - size'| := by
  cases negative
  · rfl
  · rw [signed, signed, if_pos rfl, if_pos rfl, ← neg_sub', abs_neg]

theorem signed_abs (result : ℚ) : signed (result < 0) |result| = result := by
  rcases lt_or_ge result 0 with below | least
  · rw [signed, if_pos (decide_eq_true below), abs_of_neg below, neg_neg]
  · rw [signed, if_neg (by simpa using least), abs_of_nonneg least]

theorem rounds_ofUnits (negative : Bool) (numerator : Nat) {denominator : Nat}
    (positive : 0 < denominator) :
    Rounds (signed negative (numerator / (denominator * one)))
      (ofUnits negative numerator denominator) := by
  have rounds := rounds_ofUnits_positive numerator positive
  cases negative with
  | false => exact rounds
  | true =>
    have opposite : ofUnits true numerator denominator =
        (ofUnits false numerator denominator).neg := by
      unfold ofUnits ofMagnitude
      split <;> rfl
    rw [opposite]
    exact rounds.neg

theorem rounds_mul {x y : Double} (finite : x.isFinite = true) (finite' : y.isFinite = true) :
    Rounds (x.toRat * y.toRat) (x.mul y) := by
  cases x <;> cases finite
  cases y <;> cases finite'
  rename_i negative magnitude negative' magnitude'
  have rounds := rounds_ofUnits (negative != negative') (units magnitude * units magnitude') one_pos
  rw [toRat_finite, toRat_finite, signed_mul, div_mul_div_comm]
  exact_mod_cast rounds

theorem isZero_iff {x : Double} (finite : x.isFinite = true) : x.isZero = true ↔ x.toRat = 0 := by
  cases x <;> cases finite
  rename_i negative magnitude
  have zero : toRat (.finite negative magnitude) = 0 ↔ units magnitude = 0 := by
    rw [toRat_finite]
    cases negative <;> simp [signed, one_rat_pos.ne']
  rw [zero, isZero, beq_iff_eq]
  constructor
  · intro none
    rw [none]
    rfl
  · intro none
    by_contra some
    exact absurd none (units_pos (Nat.pos_of_ne_zero some)).ne'

theorem rounds_div {x y : Double} (finite : x.isFinite = true) (finite' : y.isFinite = true)
    (nonzero : y.isZero = false) : Rounds (x.toRat / y.toRat) (x.div y) := by
  cases x <;> cases finite
  cases y <;> cases finite'
  rename_i negative magnitude negative' magnitude'
  have some : magnitude'.val ≠ 0 := by simpa [isZero] using nonzero
  have rounds :=
    rounds_ofUnits (negative != negative') (one * units magnitude)
      (units_pos (Nat.pos_of_ne_zero some))
  rw [toRat_finite, toRat_finite, signed_div, div_div_div_eq, mul_comm (units magnitude : ℚ),
    mul_comm (one : ℚ) (units magnitude')]
  rw [div, if_neg some]
  exact_mod_cast rounds

theorem rounds_ofRatio (negative : Bool) (numerator : Nat) {denominator : Nat}
    (positive : 0 < denominator) :
    Rounds (signed negative (numerator / denominator))
      (ofRatio negative numerator denominator) := by
  have rounds := rounds_ofUnits negative (one * numerator) positive
  rwa [Nat.cast_mul, mul_comm (one : ℚ), mul_div_mul_right _ _ one_rat_pos.ne'] at rounds

theorem signed_natAbs (n : Int) : signed (n < 0) n.natAbs = n := by
  have sign : decide (n < 0) = decide ((n : ℚ) < 0) := by simp
  rw [Nat.cast_natAbs, Int.cast_abs, sign, signed_abs]

theorem rounds_ofInt (n : Int) : Rounds n (ofInt n) := by
  have rounds := rounds_ofRatio (n < 0) n.natAbs Nat.one_pos
  rwa [Nat.cast_one, div_one, signed_natAbs] at rounds

theorem abs_toRat_lt {x : Double} (finite : x.isFinite = true) : |x.toRat| < rangeEnd := by
  cases x <;> cases finite
  rename_i negative magnitude
  have size : |toRat (.finite negative magnitude)| = units magnitude / one := by
    have least : (0 : ℚ) ≤ units magnitude / one := by positivity
    rw [toRat_finite]
    cases negative <;> simp [signed, abs_of_nonneg least]
  have small : ¬ rangeEnd * one * 1 ≤ units magnitude := by
    rw [← le_nearest_iff _ _ Nat.one_pos, ← Nat.mul_one (units magnitude),
      nearest_units _ _ Nat.one_pos, Nat.not_le]
    exact magnitude.isLt
  rw [size, div_lt_iff₀ one_rat_pos]
  exact_mod_cast Nat.not_le.mp (by simpa using small)

namespace Rounds

variable {result : ℚ} {x y : Double}

theorem of_toRat (rounds : Rounds result x) (finite : y.isFinite = true) (same : y.toRat = result) :
    x.isFinite = true ∧ x.toRat = result := by
  cases rounds with
  | finite small closest =>
    refine ⟨rfl, ?_⟩
    obtain ⟨closer, -⟩ := closest y finite
    rw [same, sub_self, abs_zero] at closer
    exact sub_eq_zero.mp (abs_nonpos_iff.mp closer)
  | infinite large _ =>
    rw [← same] at large
    exact absurd (abs_toRat_lt finite) (not_lt.mpr large)

theorem isFinite_iff (rounds : Rounds result x) : x.isFinite = true ↔ |result| < rangeEnd := by
  cases rounds with
  | finite small => exact iff_of_true rfl small
  | infinite large => exact iff_of_false nofun (not_lt.mpr large)

theorem error_le (rounds : Rounds result x) (finite : x.isFinite = true)
    (normal : 1 / 2 ^ 1022 ≤ |result|) :
    |x.toRat - result| ≤ |result| / 2 ^ 53 := by
  have scale : (0 : ℚ) < result.den * one := mul_pos (Nat.cast_pos.mpr result.den_pos) one_rat_pos
  have parts : (0 : ℚ) < 2 ^ 53 := by norm_num
  obtain ⟨numerator, size⟩ : ∃ numerator : Nat, |result| = numerator / (result.den * one) := by
    refine ⟨result.num.natAbs * one, ?_⟩
    rw [Nat.cast_mul, mul_div_mul_right _ _ one_rat_pos.ne', Nat.cast_natAbs, Int.cast_abs]
    nth_rewrite 1 [← Rat.num_div_den result]
    rw [abs_div, Nat.abs_cast]
  have long : 2 ^ 52 * result.den ≤ numerator := by
    rw [size, div_le_div_iff₀ (pow_pos two_pos _) scale, one_mul] at normal
    have long : result.den * one ≤ numerator * 2 ^ 1022 := by exact_mod_cast normal
    have bits : one = 2 ^ 52 * 2 ^ 1022 := by rw [one_eq, ← Nat.pow_add]
    rw [bits, ← Nat.mul_assoc, Nat.mul_comm result.den] at long
    exact Nat.le_of_mul_le_mul_right long (by positivity)
  have small : nearest numerator result.den < finiteMagnitudes := by
    rw [← Nat.not_le, ← rangeEnd_le_iff numerator result.den_pos, ← size]
    exact not_le.mpr (rounds.isFinite_iff.mp finite)
  have other := toRat_finite (result < 0) ⟨_, small⟩
  calc |x.toRat - result|
    _ ≤ |toRat (.finite (result < 0) ⟨_, small⟩) - result| := by
      cases rounds with
      | finite _ closest => exact (closest _ rfl).1
      | infinite => cases finite
    _ =
      |signed (result < 0) (units (nearest numerator result.den) / one) -
        signed (result < 0) (|result|)| := by
      rw [other, signed_abs]
    _ = distance |result| (nearest numerator result.den) := abs_signed_sub ..
    _ ≤ |result| / 2 ^ 53 := by
      have error := nearest_error result.den_pos long
      rw [size, distance_eq numerator result.den_pos, div_right_comm,
        div_le_div_iff_of_pos_right scale, le_div_iff₀ parts, mul_comm]
      exact_mod_cast error

theorem isZero_eq_false (rounds : Rounds result x) (finite : y.isFinite = true)
    (nonzero : y.toRat ≠ 0) (least : |y.toRat| ≤ |result|) : x.isZero = false := by
  cases rounds with
  | infinite => rfl
  | finite small closest =>
    refine Bool.eq_false_iff.mpr fun zero => nonzero ?_
    obtain ⟨closer, -⟩ := closest y finite
    obtain ⟨closer', -⟩ := closest y.neg (by rwa [isFinite_neg])
    -- The number or its negative lies between zero and the result.
    rw [(isZero_iff rfl).mp zero, zero_sub, abs_neg, le_abs] at closer closer'
    rw [toRat_neg] at closer'
    rcases abs_cases result with ⟨size, _⟩ | ⟨size, _⟩ <;>
      rcases abs_cases y.toRat with ⟨size', _⟩ | ⟨size', _⟩ <;>
        rcases closer with closer | closer <;> rcases closer' with closer' | closer' <;> linarith

end Rounds

theorem Rounds.one_le {n : Int} {x : Double} (rounds : Rounds n x) (finite : x.isFinite = true)
    (positive : 0 < n) : 1 ≤ x.toRat := by
  have unit : toRat (.finite false ⟨1023 * 2 ^ 52, by decide⟩) = 1 := by
    have size : units (1023 * 2 ^ 52) = one := by decide +kernel
    rw [toRat_positive, size, div_self one_rat_pos.ne']
  have least : (1 : ℚ) ≤ n := by exact_mod_cast positive
  cases rounds with
  | infinite => cases finite
  | finite small closest =>
    obtain ⟨closer, -⟩ := closest (.finite false ⟨1023 * 2 ^ 52, by decide⟩) rfl
    rw [unit, abs_of_nonpos (sub_nonpos.mpr least), abs_le] at closer
    linarith

end IndicatorFormula.Double
