import IndicatorFormula.Indicator.Value
import IndicatorFormula.Proofs.Number.Arithmetic
import IndicatorFormula.Proofs.Number.Precision
import IndicatorFormula.Proofs.Substitution.Decision

/-! The values of indicators.

An indicator has values only where both formulas come to finite numbers and the denominator is not
zero. Its divisor is a number of days, which is zero only where there are no periods; otherwise
nothing is divided by zero, and the value is what exact arithmetic gives, rounded after each
step. -/

set_option autoImplicit false
namespace IndicatorFormula

open Double (Rounds IsExact IsModerate Near rangeEnd)

theorem Number.exists_toDouble {n : Int} (small : n.natAbs < rangeEnd) :
    ∃ x, (Number.int n).toDouble = .ok x ∧ x.isFinite = true ∧ Rounds n x := by
  have rounds := Double.rounds_ofInt n
  rcases toDouble_cases (.int n) with ⟨-, m, same, large⟩ | ⟨x, converted, -⟩
  · cases same
    exact absurd large (Nat.not_le.mpr small)
  refine ⟨x, converted, ?_⟩
  rw [toDouble_int] at converted
  generalize ofInt : Double.ofInt n = nearest at converted rounds
  cases rounds with
  | finite small closest =>
    cases converted
    exact ⟨rfl, .finite small closest⟩
  | infinite => cases converted

namespace IndicatorValue

/-- What a scaled quotient comes to, step by step: the scales are converted, the products are
computed and divided, and each step is rounded to the nearest number. -/
inductive ScaledQuotient (numerator denominator : Double) (multiplier divisor : Int) :
    Double → Prop where
  | intro {scale scale' dividend dividend' : Double} (scales : Rounds multiplier scale)
      (finite : scale.isFinite = true) (scales' : Rounds divisor scale')
      (finite' : scale'.isFinite = true) (product : Rounds (numerator.toRat * scale.toRat) dividend)
      (product' : Rounds (denominator.toRat * scale'.toRat) dividend')
      (nonzero : dividend'.isZero = false)
      (quotient : dividend.isFinite = true → dividend'.isFinite = true →
        Rounds (dividend.toRat / dividend'.toRat) (dividend.div dividend')) :
      ScaledQuotient numerator denominator multiplier divisor (dividend.div dividend')

variable {numerator denominator value : Double} {multiplier divisor : Int}

theorem ScaledQuotient.toRat_eq
    (comes : ScaledQuotient numerator denominator multiplier divisor value)
    (scale : IsExact multiplier) (scale' : IsExact divisor)
    (product : IsExact (numerator.toRat * multiplier))
    (product' : IsExact (denominator.toRat * divisor))
    (quotient : IsExact (numerator.toRat * multiplier / (denominator.toRat * divisor))) :
    value.isFinite = true ∧
      value.toRat = numerator.toRat * multiplier / (denominator.toRat * divisor) := by
  cases comes with
  | intro scales _ scales' _ rounds rounds' _ divides =>
    rw [(scales.of_isExact scale).2] at rounds
    rw [(scales'.of_isExact scale').2] at rounds'
    obtain ⟨finite, exact⟩ := rounds.of_isExact product
    obtain ⟨finite', exact'⟩ := rounds'.of_isExact product'
    have divides := divides finite finite'
    rw [exact, exact'] at divides
    exact divides.of_isExact quotient

/-- Where the products and their quotient are moderate, all steps together round by one part in 2^50
at most. -/
theorem ScaledQuotient.near (comes : ScaledQuotient numerator denominator multiplier divisor value)
    (product : IsModerate (numerator.toRat * multiplier))
    (product' : IsModerate (denominator.toRat * divisor))
    (quotient : IsModerate (numerator.toRat * multiplier / (denominator.toRat * divisor))) :
    value.isFinite = true ∧
      Near (1 / 2 ^ 50) value.toRat
        (numerator.toRat * multiplier / (denominator.toRat * divisor)) := by
  cases comes with
  | intro scales finite scales' finite' rounds rounds' _ divides =>
    have scaled := (scales.near_of_int finite).mul_left numerator.toRat
    have scaled' := (scales'.near_of_int finite').mul_left denominator.toRat
    obtain ⟨dividend, multiplied⟩ := rounds.near_of_isModerate product (scaled.mono (by norm_num))
    obtain ⟨dividend', multiplied'⟩ :=
      rounds'.near_of_isModerate product' (scaled'.mono (by norm_num))
    have above := (multiplied.trans scaled (by norm_num)).mono (show _ ≤ 3 / 2 ^ 53 by norm_num)
    have below := (multiplied'.trans scaled' (by norm_num)).mono (show _ ≤ 3 / 2 ^ 53 by norm_num)
    have ratio := (above.div below (by norm_num) (by norm_num) (by norm_num) product'.ne_zero).mono
      (show _ ≤ 13 / 2 ^ 54 by norm_num)
    obtain ⟨finite, divided⟩ :=
      (divides dividend dividend').near_of_isModerate quotient (ratio.mono (by norm_num))
    exact ⟨finite, (divided.trans ratio (by norm_num)).mono (by norm_num)⟩

/-- A value is a scaled quotient of exact arithmetic, but for rounding. -/
structure IsQuotient (numerator denominator : Double) (multiplier divisor : Int) (value : Double) :
    Prop where
  steps : ScaledQuotient numerator denominator multiplier divisor value
  exact : IsExact multiplier → IsExact divisor → IsExact (numerator.toRat * multiplier) →
    IsExact (denominator.toRat * divisor) →
    IsExact (numerator.toRat * multiplier / (denominator.toRat * divisor)) →
    value.isFinite = true ∧
      value.toRat = numerator.toRat * multiplier / (denominator.toRat * divisor)
  near : IsModerate (numerator.toRat * multiplier) → IsModerate (denominator.toRat * divisor) →
    IsModerate (numerator.toRat * multiplier / (denominator.toRat * divisor)) →
    value.isFinite = true ∧
      Near (1 / 2 ^ 50) value.toRat (numerator.toRat * multiplier / (denominator.toRat * divisor))

theorem ScaledQuotient.isQuotient
    (comes : ScaledQuotient numerator denominator multiplier divisor value) :
    IsQuotient numerator denominator multiplier divisor value :=
  ⟨comes, comes.toRat_eq, comes.near⟩

theorem exists_factor (small : multiplier.natAbs < rangeEnd) (positive : 0 < divisor)
    (numerator denominator : Number) :
    ∃ factor, (IndicatorValue.mk numerator denominator (.int multiplier) (.int divisor)).factor =
        .ok (some factor) ∧ factor.isFinite = true ∧ Rounds (multiplier / divisor) factor := by
  have rounds :=
    Double.rounds_ofRatio (decide (multiplier < 0) != decide (divisor < 0)) multiplier.natAbs
      (Int.natAbs_pos.mpr positive.ne')
  rw [← Double.signed_div, Double.signed_natAbs, Double.signed_natAbs] at rounds
  have computed : (IndicatorValue.mk numerator denominator (.int multiplier)
      (.int divisor)).factor = (do
      let quotient ←
        Number.inRange (.ofRatio (decide (multiplier < 0) != decide (divisor < 0)) multiplier.natAbs
          divisor.natAbs)
      return some quotient) := by
    simp [factor, quotient?, Number.whole?, Number.isZero, Number.quotient, positive.ne']
  rw [computed]
  generalize Double.ofRatio _ _ _ = factor at rounds
  cases rounds with
  | finite small closest => exact ⟨_, rfl, rfl, .finite small closest⟩
  | infinite large _ =>
    have least : (1 : ℚ) ≤ |(divisor : ℚ)| := by
      rw [abs_of_pos (Int.cast_pos.mpr positive)]
      exact_mod_cast positive
    have size : |(multiplier : ℚ)| < rangeEnd := by
      rw [← Int.cast_abs, ← Nat.cast_natAbs]
      exact_mod_cast small
    rw [abs_div] at large
    exact absurd (large.trans (div_le_self (abs_nonneg _) least)) (not_le.mpr size)

theorem mul_int (x : Double) {n : Int} {y : Double} (converted : (Number.int n).toDouble = .ok y) :
    (Number.double x).mul (.int n) = .ok (.double (x.mul y)) := by
  simp only [Number.mul, Number.combine, Number.whole?, converted]
  rfl

theorem value_of_divisor_zero (finite : denominator.isFinite = true)
    (numerator multiplier : Number) :
    (IndicatorValue.mk numerator (.double denominator) multiplier (.int 0)).value = .ok none := by
  have converted : (Number.int 0).toDouble = .ok (.zero false) := by decide +kernel
  have rounds := Double.rounds_mul finite (show (Double.zero false).isFinite = true from rfl)
  have none : (Double.zero false).toRat = 0 := (Double.isZero_iff rfl).mp rfl
  rw [none, mul_zero] at rounds
  have product := rounds.of_toRat rfl none
  have zero : (Number.double (denominator.mul (.zero false))).isZero = true :=
    (Double.isZero_iff product.1).mpr product.2
  simp only [value, mul_int denominator converted]
  simp [bind, Except.bind, zero, pure, Except.pure]

/-- A positive divisor takes a denominator no closer to zero. -/
theorem exists_divisor (finite : denominator.isFinite = true) (nonzero : denominator.isZero = false)
    (small : divisor.natAbs < rangeEnd) (positive : 0 < divisor) :
    ∃ scale, (Number.int divisor).toDouble = .ok scale ∧ scale.isFinite = true ∧
      Rounds divisor scale ∧ Rounds (denominator.toRat * scale.toRat) (denominator.mul scale) ∧
      (denominator.mul scale).isZero = false := by
  obtain ⟨scale, converted, scaleFinite, scales⟩ := Number.exists_toDouble small
  have product := Double.rounds_mul finite scaleFinite
  have least : |denominator.toRat| ≤ |denominator.toRat * scale.toRat| := by
    have one_le : 1 ≤ |scale.toRat| := (scales.one_le scaleFinite positive).trans (le_abs_self _)
    rw [abs_mul]
    exact le_mul_of_one_le_right (abs_nonneg _) one_le
  have some : denominator.toRat ≠ 0 := fun zero => by
    rw [(Double.isZero_iff finite).mpr zero] at nonzero
    cases nonzero
  exact ⟨scale, converted, scaleFinite, scales, product, product.isZero_eq_false finite some least⟩

theorem exists_value (finite : numerator.isFinite = true) (finite' : denominator.isFinite = true)
    (nonzero : denominator.isZero = false) (small : multiplier.natAbs < rangeEnd)
    (small' : divisor.natAbs < rangeEnd) (positive : 0 < divisor) :
    ∃ value, (IndicatorValue.mk (.double numerator) (.double denominator) (.int multiplier)
          (.int divisor)).value = .ok (some value) ∧
      IsQuotient numerator denominator multiplier divisor value := by
  obtain ⟨scale, converted, scaleFinite, scales⟩ := Number.exists_toDouble small
  obtain ⟨scale', converted', scaleFinite', scales', product', nonzero'⟩ :=
    exists_divisor finite' nonzero small' positive
  have product := Double.rounds_mul finite scaleFinite
  have comes : ScaledQuotient numerator denominator multiplier divisor
      ((numerator.mul scale).div (denominator.mul scale')) :=
    .intro scales scaleFinite scales' scaleFinite' product product' nonzero'
        fun dividend dividend' =>
      Double.rounds_div dividend dividend' nonzero'
  refine ⟨_, ?_, comes.isQuotient⟩
  have some : (Number.double (denominator.mul scale')).isZero = false := nonzero'
  simp only [value, mul_int numerator converted, mul_int denominator converted']
  simp [bind, Except.bind, some, quotient?, Number.quotient, Number.whole?, Number.toDouble, pure,
    Except.pure]

theorem value_of_huge (finite : denominator.isFinite = true) (nonzero : denominator.isZero = false)
    (positive : 0 < divisor) (huge : rangeEnd ≤ multiplier.natAbs ∨ rangeEnd ≤ divisor.natAbs) :
    (IndicatorValue.mk (.double numerator) (.double denominator) (.int multiplier)
        (.int divisor)).value = .error .overflow := by
  have fails (x : Double) {n : Int} (large : rangeEnd ≤ n.natAbs) :
      (Number.double x).mul (.int n) = .error .overflow :=
    Number.combine_eq_error_iff.mpr ⟨rfl, .inr ⟨rfl, n, rfl, large⟩⟩
  rcases Nat.lt_or_ge divisor.natAbs rangeEnd with small | large
  · obtain ⟨scale, converted, -, -, -, nonzero⟩ := exists_divisor finite nonzero small positive
    have some : (Number.double (denominator.mul scale)).isZero = false := nonzero
    have large := huge.resolve_right (Nat.not_le.mpr small)
    simp only [value, mul_int denominator converted, fails numerator large]
    simp [bind, Except.bind, some]
  · simp only [value, fails denominator large]
    rfl

end IndicatorValue

section Formulas

variable {settings : Settings} {inputs : Inputs} {strict : Bool} {formula : Text}

theorem Strategy.eq_of_decide {α : Type} {strategy : Strategy} {fallsThrough : Bool}
    {itemsFound valuesFound : Nat} {zero x : α} {value : Option α}
    (decided : strategy.decide fallsThrough itemsFound valuesFound zero value = some x) :
    value = some x ∨ x = zero := by
  unfold Strategy.decide at decided
  split at decided
  · cases decided
  split at decided
  · cases value with
    | none => exact .inr (Option.some.inj decided).symm
    | some y => exact .inl decided
  · exact .inl decided

theorem calculate_isFinite {allowAggregates : Bool} {expression : Text} {x : Double}
    (calculated : (calculate settings strict allowAggregates expression).outcome = .ok (some x)) :
    x.isFinite = true := by
  rcases calculate_cases settings strict allowAggregates expression with
    ⟨⟨result, same, finite⟩ | ⟨-, error, failed⟩, -⟩ | ⟨fault, failed, -⟩
  · exact finite x (Except.ok.inj (same.symm.trans calculated))
  · exact nomatch failed.symm.trans calculated
  · exact nomatch failed.symm.trans calculated

theorem formulaValue_isFinite {x : Double}
    (returned : (formulaValue settings inputs strict formula).outcome = .ok (some x)) :
    x.isFinite = true := by
  rw [formulaValue_bind] at returned
  obtain ⟨filling, -, returned⟩ := Traced.outcome_bind_eq_ok_iff.mp returned
  split at returned
  · cases returned
  obtain ⟨result, calculated, decided⟩ := Traced.outcome_bind_eq_ok_iff.mp returned
  have decided : settings.decide inputs.strategy none filling.itemsFound filling.valuesFound
        (.zero false) result = .ok (some x) :=
    decided
  obtain ⟨strategy, -, decided⟩ := bind_eq_ok_iff.mp decided
  rcases Strategy.eq_of_decide (Except.ok.inj decided) with rfl | rfl
  · unfold calculateFilling at calculated
    split at calculated
    · exact calculate_isFinite calculated
    · cases calculated
  · rfl

end Formulas

namespace Indicator

variable {indicator : Indicator} {settings : Settings} {inputs : Inputs}
  {periods : Option (List Period)} {found : IndicatorValue}

theorem exists_formulaValues
    (returned : (indicator.values settings inputs periods).outcome = .ok (some found)) :
    ∃ numerator denominator multiplier divisor, found =
        ⟨.double numerator, .double denominator, multiplier, divisor⟩ ∧
      indicator.scaling (periods.map Period.totalDays) = .ok (multiplier, divisor) ∧
      numerator.isFinite = true ∧ denominator.isFinite = true ∧ denominator.isZero = false := by
  unfold values at returned
  split at returned
  · split at returned
    · obtain ⟨denominator, first, returned⟩ := Traced.outcome_bind_eq_ok_iff.mp returned
      obtain ⟨numerator, second, returned⟩ := Traced.outcome_bind_eq_ok_iff.mp returned
      split at returned
      · split at returned
        · cases returned
        · rename_i nonzero
          obtain ⟨⟨multiplier, divisor⟩, scaled, returned⟩ :=
            Traced.outcome_bind_eq_ok_iff.mp returned
          cases returned
          refine ⟨_, _, _, _, rfl, ?_, formulaValue_isFinite second, formulaValue_isFinite first,
            by simpa using nonzero⟩
          cases computed : indicator.scaling (periods.map Period.totalDays) with
          | error fault =>
            rw [computed] at scaled
            cases scaled
          | ok scaling =>
            rw [computed] at scaled
            cases scaled
            rfl
      · cases returned
    · cases returned
  · cases returned

/-- The factor of an indicator, times the days of a year where it is annualized over periods. -/
def multiplierFor (indicator : Indicator) (factor : Int) (periods : Option (List Period)) : Int :=
  if indicator.annualized ∧ periods ≠ none then factor * 365 else factor

/-- The days of the periods that an indicator is annualized over, or else one. -/
def divisorFor (indicator : Indicator) (periods : Option (List Period)) : Int :=
  if indicator.annualized then (periods.map Period.totalDays).getD 1 else 1

theorem scaling_eq {factor : Int} (whole : indicator.factor = .int factor) :
    indicator.scaling (periods.map Period.totalDays) =
      .ok (.int (indicator.multiplierFor factor periods), .int (indicator.divisorFor periods)) := by
  unfold scaling multiplierFor divisorFor
  rw [whole]
  cases periods <;> cases indicator.annualized <;> rfl

theorem totalDays_pos_iff {periods : List Period} :
    0 < Period.totalDays periods ↔ periods ≠ [] := by
  cases periods with
  | nil => simp [Period.totalDays]
  | cons period later =>
    have positive : 0 < period.days + Period.totalDays later := Nat.add_pos_left period.days_pos _
    exact iff_of_true (by simpa [Period.totalDays] using positive) (List.cons_ne_nil _ _)

theorem divisorFor_pos_iff :
    0 < indicator.divisorFor periods ↔ ¬ (indicator.annualized = true ∧ periods = some []) := by
  unfold divisorFor
  cases indicator.annualized <;> cases periods <;> simp [totalDays_pos_iff]

theorem divisorFor_eq_zero (none : ¬ 0 < indicator.divisorFor periods) :
    indicator.divisorFor periods = 0 := by
  revert none
  unfold divisorFor
  split <;> omega

/-- Where an indicator with a whole factor has values, both are finite and the denominator is not
zero. Its divisor is positive unless it is annualized over no periods at all, where the factor would
be a division by zero and there is no value. Otherwise factor and value are what exact arithmetic
gives, rounded, while scales beyond the range of floating-point numbers overflow. -/
theorem values_scaled {factor : Int} (whole : indicator.factor = .int factor)
    (returned : (indicator.values settings inputs periods).outcome = .ok (some found)) :
    ∃ (numerator denominator : Double) (multiplier divisor : Int), found =
        ⟨.double numerator, .double denominator, .int multiplier, .int divisor⟩ ∧
      multiplier = indicator.multiplierFor factor periods ∧ divisor = indicator.divisorFor periods ∧
      numerator.isFinite = true ∧ denominator.isFinite = true ∧ denominator.isZero = false ∧
      (0 < divisor ↔ ¬ (indicator.annualized = true ∧ periods = some [])) ∧
      (¬ 0 < divisor → found.factor = .ok none ∧ found.value = .ok none) ∧
      (0 < divisor → multiplier.natAbs < rangeEnd → divisor.natAbs < rangeEnd →
        (∃ factor, found.factor = .ok (some factor) ∧ factor.isFinite = true ∧
            Rounds (multiplier / divisor) factor) ∧
          ∃ value, found.value = .ok (some value) ∧
            IndicatorValue.IsQuotient numerator denominator multiplier divisor value) ∧
      (0 < divisor → rangeEnd ≤ multiplier.natAbs ∨ rangeEnd ≤ divisor.natAbs →
        found.value = .error .overflow) := by
  obtain ⟨numerator, denominator, multiplier, divisor, rfl, scaling, finite, finite', nonzero⟩ :=
    exists_formulaValues returned
  rw [scaling_eq whole] at scaling
  cases scaling
  refine ⟨numerator, denominator, _, _, rfl, rfl, rfl, finite, finite', nonzero, divisorFor_pos_iff,
    fun none => ?_, fun positive small small' => ?_, IndicatorValue.value_of_huge finite' nonzero⟩
  · rw [divisorFor_eq_zero none]
    exact ⟨rfl, IndicatorValue.value_of_divisor_zero finite' _ _⟩
  · exact ⟨IndicatorValue.exists_factor small positive _ _,
      IndicatorValue.exists_value finite finite' nonzero small small' positive⟩

theorem values_scaled_annualized :
    let indicator : Indicator :=
      { numerator := some "#{a}".toList, denominator := some "#{b}".toList, factor := .int 100,
        annualized := true }
    let inputs : Inputs :=
      { values := [(.text ['a'], some (.int 31)), (.text ['b'], some (.int 365))] }
    let january : Period := ⟨⟨2024, 1, 1, by decide, by decide, by decide, by decide, by decide,
        by decide⟩, ⟨2024, 1, 31, by decide, by decide, by decide, by decide, by decide, by decide⟩,
      by decide +kernel⟩
    let found : IndicatorValue :=
      ⟨.double (.ofInt 31), .double (.ofInt 365), .int 36500, .int 31⟩
    (indicator.values {} inputs (some [january])).outcome = .ok (some found) ∧
      found.value = .ok (some (.ofInt 100)) ∧
      IndicatorValue.IsQuotient (.ofInt 31) (.ofInt 365) 36500 31 (.ofInt 100) := by
  intro indicator inputs january found
  have returned : (indicator.values {} inputs (some [january])).outcome = .ok (some found) := by
    decide +kernel
  have hundred : found.value = .ok (some (.ofInt 100)) := by decide +kernel
  obtain ⟨numerator, denominator, multiplier, divisor, same, -, -, -, -, -, -, -, good, -⟩ :=
    @values_scaled indicator {} inputs (some [january]) found 100 rfl returned
  obtain ⟨rfl, rfl, rfl, rfl⟩ : .ofInt 31 = numerator ∧ .ofInt 365 = denominator ∧
      36500 = multiplier ∧ 31 = divisor := by
    simpa [found] using same
  obtain ⟨-, value, computed, quotient⟩ := good (by decide) (by decide +kernel) (by decide +kernel)
  cases hundred.symm.trans computed
  exact ⟨returned, hundred, quotient⟩

/-- An indicator that is annualized over no periods has values that are divided by zero. -/
theorem values_scaled_no_periods :
    ∃ (indicator : Indicator) (found : IndicatorValue), (indicator.values {} {} (some [])).outcome =
        .ok (some found) ∧ found.divisor = .int 0 ∧ found.factor = .ok none ∧
      found.value = .ok none := by
  refine ⟨{ numerator := some ['1'], denominator := some ['1'], annualized := true },
    ⟨.double (.ofInt 1), .double (.ofInt 1), .int 365, .int 0⟩, ?_, rfl, rfl, ?_⟩ <;> decide +kernel

end Indicator
end IndicatorFormula
