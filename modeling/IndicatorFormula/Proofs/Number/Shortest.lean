import IndicatorFormula.Proofs.Number.Digits
import IndicatorFormula.Proofs.Number.Nearest
import Mathlib.Tactic.Linarith

/-! The shortest decimal of a magnitude.

It reads back as the magnitude, and its first digit stands at a place between 10^-400 and 10^400. -/

set_option autoImplicit false
namespace IndicatorFormula.Decimal

def firstPlace (d : Decimal) : Int :=
  d.exponent + (Text.ofNat d.digits).length - 1

theorem magnitude_mul_ten (digits : Nat) (exponent : Int) :
    magnitude ⟨digits * 10, exponent - 1⟩ = magnitude ⟨digits, exponent⟩ := by
  simp only [magnitude]
  rcases lt_trichotomy exponent 0 with negative | rfl | positive
  · rw [if_neg (by omega), if_neg (by omega)]
    have places : (-(exponent - 1)).toNat = (-exponent).toNat + 1 := by omega
    rw [places, Nat.pow_succ, ← Nat.mul_assoc, Double.nearest_mul_mul _ _ _ (by decide)]
  · rw [if_neg (by decide), if_pos (by decide), ← Nat.mul_assoc]
    simpa using Double.nearest_mul_mul (Double.one * digits) 1 10 (by decide)
  · rw [if_pos (by omega), if_pos (by omega)]
    have places : exponent.toNat = (exponent - 1).toNat + 1 := by omega
    rw [places, Nat.pow_succ, Nat.mul_assoc digits, Nat.mul_comm 10]

theorem magnitude_mul_pow (digits count : Nat) (exponent : Int) :
    magnitude ⟨digits * 10 ^ count, exponent - count⟩ = magnitude ⟨digits, exponent⟩ := by
  induction count with
  | zero => simp
  | succ count ih =>
    have last : exponent - (count + 1 : Nat) = exponent - count - 1 := by omega
    rw [Nat.pow_succ, ← Nat.mul_assoc, last, magnitude_mul_ten, ih]

theorem magnitude_of_digits_eq_zero {d : Decimal} (zero : d.digits = 0) : d.magnitude = 0 := by
  simp [magnitude, zero, Double.nearest_zero]

theorem length_ofNat_pos (n : Nat) : 0 < (Text.ofNat n).length :=
  Nat.length_toDigits_pos

theorem lt_length_ofNat {n places : Nat} (reaches : 10 ^ places ≤ n) :
    places < (Text.ofNat n).length := by
  by_contra short
  rcases Nat.eq_zero_or_pos places with rfl | positive
  · exact short (length_ofNat_pos n)
  · have := (Nat.length_toDigits_le_iff (by decide) positive).mp (Nat.not_lt.mp short)
    omega

theorem length_ofNat_le {n places : Nat} (positive : 0 < places) (below : n < 10 ^ places) :
    (Text.ofNat n).length ≤ places :=
  (Nat.length_toDigits_le_iff (by decide) positive).mpr below

theorem length_ofNat_mul_pow {n : Nat} (positive : 0 < n) (count : Nat) :
    (Text.ofNat (n * 10 ^ count)).length = (Text.ofNat n).length + count := by
  induction count with
  | zero => simp
  | succ count ih =>
    have split :=
      Nat.toDigits_append_toDigits (b := 10) (by decide)
        (Nat.mul_pos positive (Nat.pow_pos (n := count) (by decide : 0 < 10))) (by decide : 0 < 10)
    have more : n * 10 ^ (count + 1) = 10 * (n * 10 ^ count) + 0 := by ring
    rw [more, Text.ofNat, ← split, List.length_append, ← Nat.add_assoc, ← ih]
    rfl

theorem div_mul_le_of_lt {size limit unit : Nat} (scale step : Nat) (below : size < limit * unit) :
    size * scale / (unit * step) * step ≤ limit * scale := by
  have positive : 0 < unit := Nat.pos_of_mul_pos_left (Nat.zero_lt_of_lt below)
  refine Nat.le_of_mul_le_mul_right ?_ positive
  calc size * scale / (unit * step) * step * unit
    _ = size * scale / (unit * step) * (unit * step) := by ring
    _ ≤ size * scale := Nat.div_mul_le_self _ _
    _ ≤ limit * unit * scale := Nat.mul_le_mul_right _ below.le
    _ = limit * scale * unit := Nat.mul_right_comm _ _ _

theorem two_pow_lt : 2 ^ 1024 < 10 ^ 342 :=
  calc 2 ^ 1024 ≤ 2 ^ (3 * 342) := pow_le_pow_right₀ one_le_two (by decide)
    _ = (2 ^ 3) ^ 342 := pow_mul ..
    _ < 10 ^ 342 := pow_lt_pow_left₀ (by decide) (by decide) (by decide)

theorem leadingExponent_bounds {m : Nat} (finite : m < finiteMagnitudes) :
    -324 ≤ leadingExponent m ∧ leadingExponent m ≤ 341 := by
  have below : 10 ^ 324 * Double.units m / Double.one < 10 ^ 666 := by
    have large : 2 ^ 1024 * 10 ^ 324 < 10 ^ 666 := by
      rw [show 666 = 342 + 324 from rfl, pow_add 10]
      exact mul_lt_mul_of_pos_right two_pow_lt (pow_pos (by decide) 324)
    have quotient := div_mul_le_of_lt (10 ^ 324) 1 (Double.units_lt finite)
    rw [Nat.mul_one, Nat.mul_one, Nat.mul_comm (Double.units m)] at quotient
    exact quotient.trans_lt large
  unfold leadingExponent
  generalize 10 ^ 324 * Double.units m / Double.one = size at below
  have positive := length_ofNat_pos size
  have short := length_ofNat_le (by decide) below
  unfold Text.ofNat at positive short
  omega

theorem onGrid?_eq_some {m : Nat} {exponent : Int} {d : Decimal}
    (found : onGrid? m exponent = some d) :
    d.magnitude = m ∧ d.exponent = exponent ∧
      d.digits ≤
        Double.units m * (if exponent < 0 then 10 ^ (-exponent).toNat else 1) /
            (Double.one * if 0 ≤ exponent then 10 ^ exponent.toNat else 1) + 1 := by
  unfold onGrid? at found
  extract_lets numerator denominator lower upper closer at found
  have reads : d.magnitude = m := by simpa using List.find?_some found
  have neighbour : d = lower ∨ d = upper := by
    have member := List.mem_of_find?_eq_some found
    have either : closer = [lower, upper] ∨ closer = [upper, lower] := ite_eq_or_eq _ _ _
    rcases either with order | order <;> rw [order] at member
    · exact List.mem_pair.mp member
    · exact (List.mem_pair.mp member).symm
  rcases neighbour with rfl | rfl
  · exact ⟨reads, rfl, Nat.le_succ _⟩
  · exact ⟨reads, rfl, Nat.le_refl _⟩

theorem digits_mul_pow_le {m : Nat} {exponent : Int} {d : Decimal} (finite : m < finiteMagnitudes)
    (found : onGrid? m exponent = some d) :
    d.digits * 10 ^ exponent.toNat ≤ 2 ^ 1024 * 10 ^ (-exponent).toNat + 10 ^ exponent.toNat := by
  have neighbour := (onGrid?_eq_some found).2.2
  have scale : (if exponent < 0 then 10 ^ (-exponent).toNat else 1) = 10 ^ (-exponent).toNat := by
    split
    · rfl
    · rw [show (-exponent).toNat = 0 by omega, Nat.pow_zero]
  have step : (if 0 ≤ exponent then 10 ^ exponent.toNat else 1) = 10 ^ exponent.toNat := by
    split
    · rfl
    · rw [show exponent.toNat = 0 by omega, Nat.pow_zero]
  rw [scale, step] at neighbour
  have quotient :=
    div_mul_le_of_lt (10 ^ (-exponent).toNat) (10 ^ exponent.toNat) (Double.units_lt finite)
  calc d.digits * 10 ^ exponent.toNat ≤
    (Double.units m * 10 ^ (-exponent).toNat / (Double.one * 10 ^ exponent.toNat) + 1) * 10 ^
      exponent.toNat :=
        Nat.mul_le_mul_right _ neighbour
    _ ≤ 2 ^ 1024 * 10 ^ (-exponent).toNat + 10 ^ exponent.toNat := by
        rw [Nat.add_mul, Nat.one_mul]
        exact Nat.add_le_add_right quotient _

theorem firstPlace_lt {d : Decimal} {places : Nat} (positive : 0 < d.digits)
    (below : d.digits * 10 ^ d.exponent.toNat < 10 ^ places * 10 ^ (-d.exponent).toNat) :
    d.firstPlace < places := by
  have leads : 10 ^ ((Text.ofNat d.digits).length - 1) ≤ d.digits := by
    by_contra short
    rcases Nat.eq_zero_or_pos ((Text.ofNat d.digits).length - 1) with zero | more
    · rw [zero] at short
      omega
    · have := length_ofNat_le more (Nat.not_le.mp short)
      omega
  have powers : 10 ^ ((Text.ofNat d.digits).length - 1 + d.exponent.toNat) <
      10 ^ (places + (-d.exponent).toNat) := by
    rw [Nat.pow_add, Nat.pow_add]
    exact (Nat.mul_le_mul_right _ leads).trans_lt below
  have exponents := (Nat.pow_lt_pow_iff_right (by decide)).mp powers
  have := length_ofNat_pos d.digits
  unfold firstPlace
  omega

theorem add_lt_mul_of_le {size limit step greatest scale : Nat} (small : step ≤ greatest)
    (positive : 0 < scale) (room : size + greatest < limit) :
    size * scale + step < limit * scale := by
  calc size * scale + step ≤ size * scale + greatest * scale :=
        Nat.add_le_add_left (small.trans (Nat.le_mul_of_pos_right _ positive)) _
    _ = (size + greatest) * scale := (Nat.add_mul _ _ _).symm
    _ < limit * scale := Nat.mul_lt_mul_of_pos_right room positive

/-- A decimal found on a grid is below 10^400. -/
theorem firstPlace_lt_of_onGrid {m : Nat} {exponent : Int} {d : Decimal}
    (finite : m < finiteMagnitudes) (found : onGrid? m exponent = some d) (positive : 0 < d.digits)
    (coarse : exponent ≤ 341) : d.firstPlace < 400 := by
  have bound := digits_mul_pow_le finite found
  obtain ⟨-, rfl, -⟩ := onGrid?_eq_some found
  refine firstPlace_lt positive (bound.trans_lt ?_)
  have step : 10 ^ d.exponent.toNat ≤ 10 ^ 341 := Nat.pow_le_pow_right (by decide) (by omega)
  have scale : 0 < 10 ^ (-d.exponent).toNat := Nat.pow_pos (by decide)
  have room : 2 ^ 1024 + 10 ^ 341 < 10 ^ 400 := by decide +kernel
  exact add_lt_mul_of_le step scale room

def exact (m : Nat) : Decimal :=
  ⟨Double.units m * 5 ^ 1074, -(1074 : Nat)⟩

theorem magnitude_of_scaled {digits places m : Nat}
    (scaled : Double.one * digits = Double.units m * 10 ^ places) (some : 0 < places) :
    magnitude ⟨digits, -places⟩ = m := by
  have negative : ¬0 ≤ (-places : Int) := by omega
  rw [magnitude, if_neg negative, scaled, show (-(-places : Int)).toNat = places by omega]
  exact Double.nearest_units m (10 ^ places) (Nat.pow_pos (by decide))

theorem exact_scaled (m : Nat) :
    Double.one * (Double.units m * 5 ^ 1074) = Double.units m * 10 ^ 1074 := by
  have scale : Double.one * 5 ^ 1074 = 10 ^ 1074 := by
    rw [Double.one_eq, ← mul_pow, show 2 * 5 = 10 from rfl]
  rw [Nat.mul_left_comm, scale]

theorem magnitude_exact (m : Nat) : (exact m).magnitude = m :=
  magnitude_of_scaled (exact_scaled m) (by decide)

theorem exact_digits_pos {m : Nat} (positive : 0 < m) : 0 < (exact m).digits :=
  Nat.mul_pos (Double.units_pos positive) (Nat.pow_pos (by decide))

theorem mul_lt_of_scaled {unit digits size least limit scale : Nat}
    (scaled : unit * digits = size * scale) (below : size < least * unit) (positive : 0 < scale)
    (room : least ≤ limit) : digits < limit * scale := by
  refine Nat.lt_of_mul_lt_mul_left (a := unit) ?_
  calc unit * digits = size * scale := scaled
    _ < least * unit * scale := Nat.mul_lt_mul_of_pos_right below positive
    _ ≤ limit * unit * scale := Nat.mul_le_mul_right _ (Nat.mul_le_mul_right _ room)
    _ = unit * (limit * scale) := by rw [Nat.mul_comm limit, Nat.mul_assoc]

theorem firstPlace_lt_of_scaled (digits places limit : Nat) (positive : 0 < digits)
    (below : digits < 10 ^ limit * 10 ^ places) : firstPlace ⟨digits, -places⟩ < limit := by
  refine firstPlace_lt positive ?_
  rwa [show (-(places : Int)).toNat = 0 by omega, show (-(-places : Int)).toNat = places by omega,
    Nat.pow_zero, Nat.mul_one]

theorem firstPlace_exact {m : Nat} (positive : 0 < m) (finite : m < finiteMagnitudes) :
    -400 ≤ (exact m).firstPlace ∧ (exact m).firstPlace < 400 := by
  constructor
  · have many : 10 ^ 700 ≤ (exact m).digits := by
      have large : 10 ^ 700 ≤ 5 ^ 1074 :=
        calc 10 ^ 700 ≤ (5 ^ 3) ^ 350 := by
              rw [show 700 = 2 * 350 from rfl, pow_mul]
              exact pow_le_pow_left₀ (by decide) (by decide) 350
          _ = 5 ^ (3 * 350) := (pow_mul ..).symm
          _ ≤ 5 ^ 1074 := pow_le_pow_right₀ (by decide) (by decide)
      exact large.trans (Nat.le_mul_of_pos_left _ (Double.units_pos positive))
    have length := lt_length_ofNat many
    have place : (exact m).exponent = -1074 := rfl
    unfold firstPlace
    omega
  · have room : 2 ^ 1024 ≤ 10 ^ 400 :=
      two_pow_lt.le.trans (pow_le_pow_right₀ (by decide) (by decide))
    have below :=
      mul_lt_of_scaled (exact_scaled m) (Double.units_lt finite) (Nat.pow_pos (by decide)) room
    exact firstPlace_lt_of_scaled _ 1074 400 (exact_digits_pos positive) below

theorem shortest_eq (m : Nat) :
    (∃ n : Nat, n < 17 ∧ onGrid? m (leadingExponent m - n) = some (shortest m)) ∨
      shortest m = exact m := by
  unfold shortest
  cases found : (List.range 17).findSome? fun n : Nat => onGrid? m (leadingExponent m - n) with
  | none => exact .inr (by simp [found, exact])
  | some d =>
    obtain ⟨n, member, onGrid⟩ := List.exists_of_findSome?_eq_some found
    exact .inl ⟨n, List.mem_range.mp member, by simp [found, onGrid]⟩

/-- What is written for a positive finite magnitude reads back as it and is within bounds. -/
theorem shortest_spec {m : Nat} (positive : 0 < m) (finite : m < finiteMagnitudes) :
    (shortest m).magnitude = m ∧ 0 < (shortest m).digits ∧
      -400 ≤ (shortest m).firstPlace ∧ (shortest m).firstPlace < 400 := by
  rcases shortest_eq m with ⟨n, few, found⟩ | same
  · obtain ⟨reads, place, -⟩ := onGrid?_eq_some found
    have bounds := leadingExponent_bounds finite
    have digits : 0 < (shortest m).digits := by
      by_contra none
      have zero : (shortest m).magnitude = 0 := by
        rw [magnitude_of_digits_eq_zero (Nat.eq_zero_of_not_pos none)]
      omega
    refine ⟨reads, digits, ?_, firstPlace_lt_of_onGrid finite found digits (by omega)⟩
    have length := length_ofNat_pos (shortest m).digits
    unfold firstPlace
    omega
  · rw [same]
    exact ⟨magnitude_exact m, exact_digits_pos positive, firstPlace_exact positive finite⟩

end IndicatorFormula.Decimal
