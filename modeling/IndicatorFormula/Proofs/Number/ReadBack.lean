import IndicatorFormula.Expression.Lexer
import IndicatorFormula.Proofs.Number.Shortest

/-! Written numbers read back.

The text of a magnitude has the digits of its shortest decimal in one of two layouts. Reading either
of them gives a decimal of the same value, so the nearest magnitude is the one that was written. -/

set_option autoImplicit false
namespace IndicatorFormula

namespace Decimal

theorem decimalValue?_point : Text.decimalValue? '.' = none := by
  decide

theorem read?_point {whole fraction : Text} (tail : Text) (wholeDigits : whole.IsDecimal)
    (fractionDigits : fraction.IsDecimal) (leads : whole ≠ [])
    (ends : ∀ c ∈ tail.head?, Text.decimalValue? c = none) :
    read? (whole ++ '.' :: (fraction ++ tail)) =
      (readExponent? tail).map fun exponent =>
        ⟨Nat.ofDigitChars 10 (whole ++ fraction) 0, exponent - fraction.length⟩ := by
  have before : readDigits 0 (whole ++ '.' :: (fraction ++ tail)) =
      (Nat.ofDigitChars 10 whole 0, '.' :: (fraction ++ tail)) :=
    readDigits_append 0 _ wholeDigits fun c found => by
      cases found
      exact decimalValue?_point
  have behind := readDigits_append (Nat.ofDigitChars 10 whole 0) tail fractionDigits ends
  have places : 0 < whole.length := List.length_pos_iff.mpr leads
  simp only [read?, before, behind]
  rw [if_neg (by simp only [List.length_append, List.length_cons]; omega), Nat.ofDigitChars_append]
  simp

theorem read?_whole {whole : Text} (tail : Text) (wholeDigits : whole.IsDecimal)
    (leads : whole ≠ []) (ends : ∀ c ∈ tail.head?, Text.decimalValue? c = none ∧ c ≠ '.') :
    read? (whole ++ tail) =
      (readExponent? tail).map fun exponent => ⟨Nat.ofDigitChars 10 whole 0, exponent⟩ := by
  have before := readDigits_append 0 _ wholeDigits fun c found => (ends c found).1
  have places : 0 < whole.length := List.length_pos_iff.mpr leads
  simp only [read?, before]
  split
  · rename_i fraction
    exact absurd rfl (ends '.' rfl).2
  · rw [if_neg (by simp only [List.length_append]; omega)]

theorem readExponent?_signed (negative : Bool) {digits : Text} (decimal : digits.IsDecimal)
    (leads : digits ≠ []) :
    readExponent? ('e' :: (if negative then '-' else '+') :: digits) =
      some (if negative then -(Nat.ofDigitChars 10 digits 0 : Int)
        else Nat.ofDigitChars 10 digits 0) := by
  have value := readDigits_append 0 [] decimal fun c found => nomatch found
  rw [List.append_nil] at value
  cases negative <;> simp [readExponent?, value, leads]

theorem ofDigitChars_ofNat (n : Nat) : Nat.ofDigitChars 10 (Text.ofNat n) 0 = n :=
  Nat.ofDigitChars_ten_toDigits

end Decimal

namespace NumberLayout

def significant (d : Decimal) : Text :=
  ((Text.ofNat d.digits).reverse.dropWhile (· == '0')).reverse

theorem magnitude_eq (layout : NumberLayout) {m : Nat} (nonzero : m ≠ 0) :
    layout.magnitude m =
      if layout.leastPositional ≤ (Decimal.shortest m).firstPlace &&
          (Decimal.shortest m).firstPlace ≤ layout.greatestPositional then
        positional (significant (Decimal.shortest m)) (Decimal.shortest m).firstPlace
      else layout.scientific (significant (Decimal.shortest m))
        (Decimal.shortest m).firstPlace := by
  have length := Decimal.length_ofNat_pos (Decimal.shortest m).digits
  have place : (Decimal.shortest m).exponent +
        ((Text.ofNat (Decimal.shortest m).digits).length - 1 : Nat) =
      (Decimal.shortest m).firstPlace := by
    unfold Decimal.firstPlace
    omega
  simp only [magnitude, if_neg nonzero, place, significant]

/-- What is read back for the digits of a decimal, whose last place may be any that all digits fit
in. -/
def Rereads (d : Decimal) (text : Text) : Prop :=
  ∃ places : Nat, Decimal.read? text =
    some ⟨Nat.ofDigitChars 10 (significant d) 0 * 10 ^ places,
      d.firstPlace + 1 - (significant d).length - places⟩

theorem isDecimal_significant (d : Decimal) : (significant d).IsDecimal := by
  intro c member
  have inside := (List.dropWhile_sublist _).subset (List.mem_reverse.mp member)
  exact Text.isDecimal_ofNat d.digits c (List.mem_reverse.mp inside)

theorem digits_eq_mul_pow {d : Decimal} (positive : 0 < d.digits) :
    ∃ zeros : Nat, d.digits = Nat.ofDigitChars 10 (significant d) 0 * 10 ^ zeros ∧
      0 < Nat.ofDigitChars 10 (significant d) 0 ∧
      (Text.ofNat (Nat.ofDigitChars 10 (significant d) 0)).length = (significant d).length ∧
      d.firstPlace + 1 - (significant d).length = d.exponent + zeros := by
  obtain ⟨zeros, split⟩ := Text.stripped_append_zeros (Text.ofNat d.digits)
  -- Both sides are read back as numbers.
  have value : d.digits = Nat.ofDigitChars 10 (significant d) 0 * 10 ^ zeros := by
    have read := congrArg (Nat.ofDigitChars 10 · 0) split
    simp only [Decimal.ofDigitChars_ofNat, Decimal.ofDigitChars_append_zeros] at read
    rw [read, Nat.mul_comm]
    rfl
  have some : 0 < Nat.ofDigitChars 10 (significant d) 0 := by
    by_contra none
    rw [Nat.eq_zero_of_not_pos none, Nat.zero_mul] at value
    omega
  have whole := congrArg List.length split
  rw [List.length_append, List.length_replicate] at whole
  have scaled := Decimal.length_ofNat_mul_pow some zeros
  rw [← value] at scaled
  change _ = (significant d).length + zeros at whole
  refine ⟨zeros, value, some, by omega, ?_⟩
  unfold Decimal.firstPlace
  omega

theorem significant_ne_nil {d : Decimal} (positive : 0 < d.digits) : significant d ≠ [] := by
  obtain ⟨zeros, -, some, -, -⟩ := digits_eq_mul_pow positive
  intro empty
  rw [empty] at some
  exact absurd some (Nat.lt_irrefl 0)

theorem ofDigitChars_zeros_append (count : Nat) (digits : Text) :
    Nat.ofDigitChars 10 (List.replicate count '0' ++ digits) 0 = Nat.ofDigitChars 10 digits 0 := by
  rw [Nat.ofDigitChars_append, Nat.ofDigitChars_replicate_zero, Nat.mul_zero]

theorem rereads_positional {d : Decimal} (positive : 0 < d.digits) :
    Rereads d (positional (significant d) d.firstPlace) := by
  have digits := isDecimal_significant d
  have some := List.length_pos_iff.mpr (significant_ne_nil positive)
  have zeros := Text.isDecimal_zeros
  unfold positional Rereads
  split
  · rename_i small
    -- All digits are behind the point, with zeros between them and the point.
    have fraction := (zeros (-d.firstPlace - 1).toNat).append digits
    have read := Decimal.read?_point [] (zeros 1) fraction (by simp) fun c found => nomatch found
    rw [List.append_nil] at read
    refine ⟨0, read.trans ?_⟩
    rw [← List.append_assoc, List.replicate_append_replicate, ofDigitChars_zeros_append]
    simp only [Decimal.readExponent?, Option.map_some, Nat.pow_zero, Nat.mul_one,
      List.length_append, List.length_replicate]
    congr 2
    omega
  · rename_i large
    have whole := (digits.take (d.firstPlace.toNat + 1)).append
      (zeros (d.firstPlace.toNat + 1 - (significant d).length))
    have leads : (significant d).take (d.firstPlace.toNat + 1) ++
        List.replicate (d.firstPlace.toNat + 1 - (significant d).length) '0' ≠ [] := by
      rw [← List.length_pos_iff, List.length_append, List.length_take, List.length_replicate]
      omega
    dsimp only
    split
    · rename_i none
      -- The digits end before the point. Zeros lead up to it, and one is behind it.
      have few : (significant d).length ≤ d.firstPlace.toNat + 1 :=
        List.drop_eq_nil_iff.mp (List.isEmpty_iff.mp none)
      have read := Decimal.read?_point [] whole (zeros 1) leads fun c found => nomatch found
      refine ⟨d.firstPlace.toNat + 1 - (significant d).length + 1, read.trans ?_⟩
      rw [List.take_of_length_le few, List.append_assoc, List.replicate_append_replicate,
        Decimal.ofDigitChars_append_zeros, Nat.mul_comm]
      simp only [Decimal.readExponent?, Option.map_some, List.length_replicate]
      congr 2
      omega
    · rename_i more
      -- The point is among the digits.
      have many : d.firstPlace.toNat + 1 < (significant d).length := by
        by_contra few
        exact more (List.isEmpty_iff.mpr (List.drop_eq_nil_iff.mpr (Nat.not_lt.mp few)))
      have read :=
        Decimal.read?_point [] whole (digits.drop (d.firstPlace.toNat + 1)) leads fun c found =>
        nomatch found
      rw [List.append_nil] at read
      refine ⟨0, read.trans ?_⟩
      rw [Nat.sub_eq_zero_of_le many.le, List.replicate_zero, List.append_nil,
        List.take_append_drop]
      simp only [Decimal.readExponent?, Option.map_some, List.length_drop, Nat.pow_zero,
        Nat.mul_one]
      congr 2
      omega

def power (layout : NumberLayout) (exponent : Int) : Text :=
  List.replicate (layout.exponentDigits - (Text.ofNat exponent.natAbs).length) '0' ++
    Text.ofNat exponent.natAbs

theorem isDecimal_power (layout : NumberLayout) (exponent : Int) :
    (layout.power exponent).IsDecimal :=
  (Text.isDecimal_zeros _).append (Text.isDecimal_ofNat _)

theorem power_ne_nil (layout : NumberLayout) (exponent : Int) : layout.power exponent ≠ [] := by
  rw [← List.length_pos_iff, power, List.length_append]
  have := Decimal.length_ofNat_pos exponent.natAbs
  omega

def exponentPart (layout : NumberLayout) (exponent : Int) : Text :=
  'e' :: (if decide (exponent < 0) then '-' else '+') :: layout.power exponent

theorem scientific_eq (layout : NumberLayout) (digits : Text) (exponent : Int) :
    layout.scientific digits exponent =
      digits.take 1 ++
        ((if digits.length ≤ 1 then [] else '.' :: digits.drop 1) ++
          layout.exponentPart exponent) := by
  simp [scientific, exponentPart, power]

theorem readExponent?_exponentPart (layout : NumberLayout) (exponent : Int) :
    Decimal.readExponent? (layout.exponentPart exponent) = some exponent := by
  have read :=
    Decimal.readExponent?_signed (decide (exponent < 0)) (layout.isDecimal_power exponent)
      (layout.power_ne_nil exponent)
  have value : Nat.ofDigitChars 10 (layout.power exponent) 0 = exponent.natAbs := by
    rw [power, ofDigitChars_zeros_append, Decimal.ofDigitChars_ofNat]
  rw [value] at read
  refine read.trans (congrArg some ?_)
  simp only [decide_eq_true_eq]
  split <;> omega

theorem rereads_scientific (layout : NumberLayout) {d : Decimal} (positive : 0 < d.digits) :
    Rereads d (layout.scientific (significant d) d.firstPlace) := by
  have digits := isDecimal_significant d
  have some := List.length_pos_iff.mpr (significant_ne_nil positive)
  have leads : (significant d).take 1 ≠ [] := by
    rw [← List.length_pos_iff, List.length_take]
    omega
  have mark : Text.decimalValue? 'e' = none ∧ 'e' ≠ '.' := by decide
  rw [scientific_eq]
  refine ⟨0, ?_⟩
  split
  · rename_i single
    have read :=
      Decimal.read?_whole (layout.exponentPart d.firstPlace) (digits.take 1) leads fun c found => by
      cases found
      exact mark
    refine read.trans ?_
    rw [readExponent?_exponentPart, List.take_of_length_le single]
    simp only [Option.map_some, Nat.pow_zero, Nat.mul_one]
    congr 2
    omega
  · rename_i several
    have read :=
      Decimal.read?_point (layout.exponentPart d.firstPlace) (digits.take 1) (digits.drop 1) leads
        fun c found => by
        cases found
        exact mark.1
    refine read.trans ?_
    rw [readExponent?_exponentPart, List.take_append_drop]
    simp only [Option.map_some, Nat.pow_zero, Nat.mul_one, List.length_drop]
    congr 2
    omega

theorem rereads_magnitude (layout : NumberLayout) {m : Nat} (positive : 0 < m)
    (finite : m < finiteMagnitudes) : Rereads (Decimal.shortest m) (layout.magnitude m) := by
  have digits := (Decimal.shortest_spec positive finite).2.1
  rw [magnitude_eq layout positive.ne']
  split
  · exact rereads_positional digits
  · exact rereads_scientific layout digits

/-- What is read back for a positive magnitude is that magnitude. -/
theorem toDouble_of_rereads {m : Nat} {text : Text} (positive : 0 < m)
    (finite : m < finiteMagnitudes) (rereads : Rereads (Decimal.shortest m) text) :
    ∃ d, Decimal.read? text = some d ∧ d.toDouble false = .ofMagnitude false m := by
  obtain ⟨reads, digits, low, high⟩ := Decimal.shortest_spec positive finite
  generalize Decimal.shortest m = d at rereads reads digits low high
  obtain ⟨places, read⟩ := rereads
  obtain ⟨zeros, value, some, length, place⟩ := digits_eq_mul_pow digits
  refine ⟨_, read, ?_⟩
  have same : Decimal.magnitude ⟨Nat.ofDigitChars 10 (significant d) 0 * 10 ^ places,
      d.firstPlace + 1 - (significant d).length - places⟩ = m := by
    rw [Decimal.magnitude_mul_pow, place, ← reads, ← Decimal.magnitude_mul_pow _ zeros, ← value,
      Int.add_sub_cancel]
  -- Neither bound of the exponent is exceeded, so the magnitude is not cut off.
  have scaled := Decimal.length_ofNat_mul_pow some places
  have count := List.length_pos_iff.mpr (significant_ne_nil digits)
  unfold Decimal.toDouble
  rw [same, if_neg (Nat.mul_pos some (Nat.pow_pos (by decide))).ne', if_neg (by dsimp only; omega),
    if_neg]
  unfold Text.ofNat at scaled length
  dsimp only
  omega

end NumberLayout
end IndicatorFormula
