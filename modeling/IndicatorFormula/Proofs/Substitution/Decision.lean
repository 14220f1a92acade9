import IndicatorFormula.Proofs.Substitution.Leniency

/-! What is decided about missing values.

A strategy is asked twice: while a formula is filled in, where it may end this early, and once more
with what was counted until the end. The second time it finds nothing to skip, so that only what was
skipped the first time is without a value. -/

set_option autoImplicit false
namespace IndicatorFormula

structure Filling.Complete (filling : Filling) (strategy : Strategy) : Prop where
  bounded : filling.valuesFound ≤ filling.itemsFound
  /-- A strategy that skips for any missing value finds none. -/
  any : strategy = .skipIfAnyMissing → ¬ filling.valuesFound < filling.itemsFound
  /-- Strategies that skip do not find all values missing. -/
  all : strategy ≠ .neverSkip → ¬ (filling.itemsFound ≠ 0 ∧ filling.valuesFound = 0)

def EvaluatesTo (filled : Text) (x : Double) : Prop :=
  ∃ value, evaluate (allowedFunctions true) filled = .ok value ∧ value.toDouble = .ok x

structure Filling.Valued (filling : Filling) (value : Option Double) : Prop where
  finite : ∀ filled x, filling.result = .text filled → EvaluatesTo filled x → x.isFinite = true →
    value = some x
  zero : (∀ filled x, filling.result = .text filled → EvaluatesTo filled x → x.isFinite = false) →
    value = some (.zero false)

variable {settings : Settings} {strategy : Strategy} {inputs : Inputs} {strict : Bool}
  {formula : Text} {filling : Filling}

theorem Filling.count_bounded (bounded : filling.valuesFound ≤ filling.itemsFound)
    (hasValue : Bool) :
    (filling.count hasValue).valuesFound ≤ (filling.count hasValue).itemsFound := by
  cases hasValue <;> simp only [Filling.count, Bool.false_eq_true, ↓reduceIte] <;> omega

theorem fillPieces_bounded (numbers : Supply) (skipsAny : Bool) (pieces : List Piece) :
    Returns (fun filling => filling.valuesFound ≤ filling.itemsFound) (fun _ => True)
      (fillPieces numbers skipsAny pieces) := by
  induction pieces with
  | nil => exact Nat.le_refl 0
  | cons piece pieces ih =>
    have prepended (lead : Text) :
        Returns (fun filling => filling.valuesFound ≤ filling.itemsFound) (fun _ => True)
          (do return (← fillPieces numbers skipsAny pieces).prepend lead) :=
      ih.bind fun filling bounded =>
        show (filling.prepend lead).valuesFound ≤
          (filling.prepend lead).itemsFound by simpa using bounded
    cases piece with
    | plain c => exact prepended [c]
    | reference found =>
      simp only [fillPieces]
      split
      · split
        · exact Nat.zero_le 1
        · refine (Returns.any _).bind fun lead _ => ih.bind fun filling bounded => ?_
          refine Filling.count_bounded ?_ _
          simpa using bounded
      · exact (Returns.any _).bind fun lead _ => prepended lead

theorem fillUnder_bounded (ran : (fillUnder strategy inputs strict formula).outcome = .ok filling)
    (kept : ¬ filling.Skipped) : filling.valuesFound ≤ filling.itemsFound := by
  obtain ⟨sampled, -, ran⟩ := sampled_of_fillUnder ran kept
  obtain ⟨tested, found, -, fills, rfl⟩ := fillSampled_eq_ok_iff.mp ran
  rw [Filling.eq_of_not_skipped kept]
  exact (fillPieces_bounded _ _ _).of_ok fills

theorem Filling.Complete.of_skips (bounded : filling.valuesFound ≤ filling.itemsFound)
    (stays : strategy.skips filling.itemsFound filling.valuesFound = false) :
    filling.Complete strategy := by
  refine ⟨bounded, ?_, ?_⟩
  · rintro rfl
    simpa [Strategy.skips] using stays
  · rintro other ⟨items, values⟩
    cases strategy with
    | neverSkip => exact other rfl
    | skipIfAllMissing => simp [Strategy.skips, items, values] at stays
    -- Where all values are missing, some are.
    | skipIfAnyMissing => simp [Strategy.skips, items, values, Nat.pos_iff_ne_zero] at stays

theorem Filling.Complete.skips (complete : filling.Complete strategy) :
    strategy.skips filling.itemsFound filling.valuesFound = false := by
  cases strategy with
  | neverSkip => rfl
  | skipIfAnyMissing => simpa [Strategy.skips] using complete.any rfl
  | skipIfAllMissing => simpa [Strategy.skips] using complete.all (by decide)

/-- What is filled in and not skipped leaves its strategy nothing to skip. Nothing is counted in an
empty formula. -/
theorem fill_complete (ran : (fill settings inputs strict formula).outcome = .ok filling)
    (kept : ¬ filling.Skipped) (named : settings.strategy inputs.strategy = .ok strategy) :
    filling.Complete strategy := by
  cases formula with
  | nil =>
    cases ran
    exact ⟨Nat.le_refl 0, fun _ => Nat.lt_irrefl 0, fun _ some => some.1 rfl⟩
  | cons c rest =>
    rw [fill_eq_fillUnder (List.cons_ne_nil c rest) named] at ran
    exact .of_skips (fillUnder_bounded ran kept) (skips_of_fillUnder ran kept)

theorem Filling.Complete.decide (complete : filling.Complete strategy)
    (fallsThrough : settings.fallsThrough = true)
    (named : settings.strategy inputs.strategy = .ok strategy) (result : Option Double) :
    settings.decide inputs.strategy none filling.itemsFound filling.valuesFound (.zero false)
        result = .ok (some (result.getD (.zero false))) := by
  rw [Settings.decide, named]
  change Except.ok (strategy.decide settings.fallsThrough _ _ _ _) = _
  rw [Strategy.decide, complete.skips, fallsThrough]
  rfl

theorem eq_zero_of_passOver {error : FormulaError} {result : Option Double}
    (passed :
      (do Traced.passOver strict error
          return some (Double.zero false) : Traced (Option Double)).outcome =
        .ok result) : result = some (.zero false) := by
  obtain ⟨-, -, passed⟩ := Traced.outcome_bind_eq_ok_iff.mp passed
  exact (Except.ok.inj passed).symm

/-- What calculation comes to is the number that an expression evaluates to, without those that are
not finite. It is zero for what evaluates to no number. -/
theorem calculate_eq_ok {text : Text} {result : Option Double}
    (calculated : (calculate settings strict true text).outcome = .ok result) :
    (∃ x, EvaluatesTo text x ∧ result = x.finite?) ∨
      (∀ x, ¬ EvaluatesTo text x) ∧ result = some (.zero false) := by
  unfold calculate at calculated
  cases evaluated : evaluate (allowedFunctions true) text with
  | error breakdown =>
    simp only [evaluated] at calculated
    have valueless : ∀ x, ¬ EvaluatesTo text x :=
      fun x ⟨_, impossible, _⟩ => nomatch evaluated.symm.trans impossible
    cases breakdown with
    | fault fault => cases calculated
    | defect defect =>
      refine .inr ⟨valueless, ?_⟩
      dsimp only at calculated
      split at calculated
      · exact eq_zero_of_passOver calculated
      · exact (Except.ok.inj calculated).symm
  | ok value =>
    simp only [evaluated] at calculated
    split at calculated
    · rename_i isList
      refine .inr ⟨?_, eq_zero_of_passOver calculated⟩
      rintro x ⟨other, same, number⟩
      obtain rfl : value = other := Except.ok.inj (evaluated.symm.trans same)
      cases value <;> cases isList
      cases number
    · obtain ⟨x, number, returned⟩ := Traced.outcome_bind_eq_ok_iff.mp calculated
      refine .inl ⟨x, ⟨value, evaluated, ?_⟩, (Except.ok.inj returned).symm⟩
      cases converted : value.toDouble <;> rw [converted] at number <;> cases number
      rfl

theorem EvaluatesTo.unique {filled : Text} {x y : Double} (first : EvaluatesTo filled x)
    (second : EvaluatesTo filled y) : x = y := by
  obtain ⟨value, evaluated, number⟩ := first
  obtain ⟨other, evaluated', number'⟩ := second
  obtain rfl : value = other := Except.ok.inj (evaluated.symm.trans evaluated')
  exact Except.ok.inj (number.symm.trans number')

theorem Filling.valued_of_calculated {result : Option Double}
    (calculated : (calculateFilling settings strict filling).outcome = .ok result) :
    filling.Valued (some (result.getD (.zero false))) := by
  unfold calculateFilling at calculated
  cases filled : filling.result with
  | empty | skipped =>
    rw [filled] at calculated
    cases calculated
    exact ⟨fun _ _ impossible => (nomatch filled.symm.trans impossible), fun _ => rfl⟩
  | text text =>
    rw [filled] at calculated
    have own {other : Text} (same : filling.result = .text other) : other = text :=
      FilledText.text.inj (same.symm.trans filled)
    rcases calculate_eq_ok calculated with ⟨x, evaluates, rfl⟩ | ⟨valueless, rfl⟩
    · refine ⟨fun other y same evaluates' finite => ?_, fun infinite => ?_⟩
      · obtain rfl := own same
        obtain rfl := evaluates.unique evaluates'
        rw [Double.finite?, finite]
        rfl
      · rw [Double.finite?, infinite text x filled evaluates]
        rfl
    · exact ⟨fun other y same evaluates _ => absurd (own same ▸ evaluates) (valueless y),
        fun _ => rfl⟩

theorem substitute_evaluate_iff :
    (substitute settings .evaluate { inputs, strict } formula).outcome = .ok (.filled filling) ↔
      (fill settings inputs strict formula).outcome = .ok filling := by
  change (fill settings inputs strict formula >>=
        fun filling => pure (Substituted.filled filling)).outcome = _ ↔ _
  rw [Traced.outcome_bind_eq_ok_iff]
  simp

/-- A formula that is skipped while it is filled in is without a value. Otherwise its strategy finds
nothing to skip for, and it has the value of its filling. -/
theorem formulaValue_eq_ok {value : Option Double} (fallsThrough : settings.fallsThrough = true)
    (returned : (formulaValue settings inputs strict formula).outcome = .ok value) :
    ∃ filling, (fill settings inputs strict formula).outcome = .ok filling ∧
      (value = none ↔ filling.Skipped) ∧
      (¬ filling.Skipped →
        filling.Valued value ∧
          ∃ strategy, settings.strategy inputs.strategy = .ok strategy ∧
            filling.Complete strategy) := by
  rw [formulaValue_bind] at returned
  obtain ⟨filling, filled, returned⟩ := Traced.outcome_bind_eq_ok_iff.mp returned
  refine ⟨filling, filled, ?_⟩
  split at returned
  · rename_i skipped
    exact ⟨iff_of_true (Except.ok.inj returned).symm skipped, absurd skipped⟩
  · rename_i kept
    obtain ⟨result, calculated, decided⟩ := Traced.outcome_bind_eq_ok_iff.mp returned
    have decided : settings.decide inputs.strategy none filling.itemsFound filling.valuesFound
          (.zero false) result = .ok value :=
      decided
    obtain ⟨strategy, named, -⟩ := bind_eq_ok_iff.mp decided
    have complete := fill_complete filled kept named
    rw [complete.decide fallsThrough named] at decided
    cases decided
    exact ⟨iff_of_false nofun kept,
      fun _ => ⟨Filling.valued_of_calculated calculated, strategy, named, complete⟩⟩

/-- A formula is without a value just if there is none or it is skipped while it is filled in.
Otherwise values are found for no more than all items, the strategy finds nothing to skip for when
it is asked again, and the value is what is calculated, with zero for what is missing or not
finite. -/
theorem optionalFormulaValue_decides {settings : Settings} {inputs : Inputs} {strict : Bool}
    {formula : Option Text} {value : Option Double} (fallsThrough : settings.fallsThrough = true)
    (returned : (optionalFormulaValue settings inputs strict formula).outcome = .ok value) :
    (value = none ↔
        formula = none ∨
          ∃ given filling, formula = some given ∧
            (substitute settings .evaluate { inputs, strict } given).outcome =
              .ok (.filled filling) ∧ filling.Skipped) ∧
      ∀ given, formula = some given →
        ∃ filling, (substitute settings .evaluate { inputs, strict } given).outcome =
            .ok (.filled filling) ∧
          (¬ filling.Skipped →
            filling.Valued value ∧
              ∃ strategy, settings.strategy inputs.strategy = .ok strategy ∧
                filling.Complete strategy) := by
  cases formula with
  | none => exact ⟨iff_of_true (Except.ok.inj returned).symm (.inl rfl), nofun⟩
  | some given =>
    obtain ⟨filling, filled, skipped, kept⟩ := formulaValue_eq_ok fallsThrough returned
    refine ⟨skipped.trans ⟨fun skips => ?_, ?_⟩, ?_⟩
    · exact .inr ⟨given, filling, rfl, substitute_evaluate_iff.mpr filled, skips⟩
    · rintro (impossible | ⟨other, filling', same, filled', skips⟩)
      · cases impossible
      · cases same
        have same := Except.ok.inj (filled.symm.trans (substitute_evaluate_iff.mp filled'))
        exact same ▸ skips
    · rintro other same
      cases same
      exact ⟨filling, substitute_evaluate_iff.mpr filled, kept⟩

/-- Nothing is missing from the quotient of two values, and it is zero where it would be
infinite. -/
theorem optionalFormulaValue_decides_infinite :
    let inputs : Inputs :=
      { values := [(.text ['a'], some (.int 1)), (.text ['b'], some (.int 0))]
        strategy := some Strategy.skipIfAnyMissing.name }
    let filling : Filling := ⟨.text "1.0 / 0.0".toList, 2, 2⟩
    (optionalFormulaValue {} inputs true (some "#{a} / #{b}".toList)).outcome =
        .ok (some (.zero false)) ∧
      (substitute {} .evaluate { inputs, strict := true } "#{a} / #{b}".toList).outcome =
        .ok (.filled filling) ∧
      ¬ filling.Skipped ∧ filling.Valued (some (.zero false)) ∧
      filling.Complete .skipIfAnyMissing := by
  intro inputs filling
  have returned : (optionalFormulaValue {} inputs true (some "#{a} / #{b}".toList)).outcome =
      .ok (some (.zero false)) := by
    decide +kernel
  have written : (substitute {} .evaluate { inputs, strict := true } "#{a} / #{b}".toList).outcome =
      .ok (.filled filling) := by
    decide +kernel
  obtain ⟨none, some⟩ :=
    optionalFormulaValue_decides (show ({} : Settings).fallsThrough = true from rfl) returned
  have kept : ¬ filling.Skipped :=
    fun skipped => nomatch none.mpr (.inr ⟨_, filling, rfl, written, skipped⟩)
  obtain ⟨other, filled, complete⟩ := some _ rfl
  obtain rfl : filling = other :=
    Substituted.filled.inj (Except.ok.inj (written.symm.trans filled))
  obtain ⟨valued, strategy, named, complete⟩ := complete kept
  cases named
  exact ⟨returned, written, kept, valued, complete⟩

end IndicatorFormula
