import IndicatorFormula.Proofs.Outcome
import IndicatorFormula.Substitution.Mode
import IndicatorFormula.Valuation

/-! What the strategies for missing values have in common.

A strategy that skips formulas changes nothing else. Wherever it is asked on the way to a value, it
either ends there without one, or leaves the computation as it is without skipping, its failures and
its journal included. -/

set_option autoImplicit false
namespace IndicatorFormula

namespace Traced

variable {α β : Type} {gone : α → Prop} {gone' : β → Prop}

theorem outcome_bind (x : Traced α) (next : α → Traced β) :
    (x >>= next).outcome = x.outcome >>= fun value => (next value).outcome := by
  cases ran : x.outcome with
  | ok value => rw [bind_of_ok ran]; rfl
  | error failure => rw [bind_of_error ran]; rfl

theorem outcome_bind_eq_ok_iff {x : Traced α} {next : α → Traced β} {result : β} :
    (x >>= next).outcome = .ok result ↔
      ∃ value, x.outcome = .ok value ∧ (next value).outcome = .ok result := by
  rw [outcome_bind]
  exact bind_eq_ok_iff

/-- A computation that comes to a result of some kind, or is the other one. -/
def Stricter (gone : α → Prop) (x y : Traced α) : Prop :=
  (∃ value, x.outcome = .ok value ∧ gone value) ∨ x = y

namespace Stricter

theorem refl (x : Traced α) : Stricter gone x x :=
  .inr rfl

theorem stop {value : α} (is : gone value) (y : Traced α) : Stricter gone (pure value) y :=
  .inl ⟨value, rfl, is⟩

theorem bind {x y : Traced α} {next next' : α → Traced β} (first : Stricter gone x y)
    (keeps : ∀ value, gone value → ∃ result, (next value).outcome = .ok result ∧ gone' result)
    (rest : ∀ value, Stricter gone' (next value) (next' value)) :
    Stricter gone' (x >>= next) (y >>= next') := by
  rcases first with ⟨value, ran, is⟩ | rfl
  · obtain ⟨result, ran', is'⟩ := keeps value is
    exact .inl ⟨result, by rw [bind_of_ok ran, ran'], is'⟩
  -- Up to here both are one computation, with the same journal.
  · cases ran : x.outcome with
    | error failure =>
      refine .inr ?_
      rw [bind_of_error ran, bind_of_error ran]
    | ok value =>
      rcases rest value with ⟨result, ran', is'⟩ | same
      · exact .inl ⟨result, by rw [bind_of_ok ran, ran'], is'⟩
      · refine .inr ?_
        rw [bind_of_ok ran, bind_of_ok ran, same]

theorem after (x : Traced α) {next next' : α → Traced β}
    (rest : ∀ value, Stricter gone' (next value) (next' value)) :
    Stricter gone' (x >>= next) (x >>= next') :=
  bind (show Stricter (fun _ => False) x x from .inr rfl) (fun _ impossible => impossible.elim) rest

end Stricter
end Traced

open Traced (Stricter)

theorem samplePieces_stricter (samples : Option Samples) (strict : Bool) (formula : Text)
    (position : Nat) (pieces : List CallPiece) :
    Stricter (· = none) (samplePieces samples true strict formula position pieces)
      (samplePieces samples false strict formula position pieces) := by
  induction pieces generalizing position with
  | nil => exact .refl _
  | cons piece pieces ih =>
    unfold samplePieces
    refine .after _ fun _ => ?_
    simp only [Bool.true_and, Bool.false_and, Bool.false_eq_true, ↓reduceIte]
    split
    · refine .stop ?_ _
      rfl
    -- The pieces behind may be what stops, and then the whole stops as well.
    · refine .after _
        fun text => .bind (ih _) (fun later absent => ⟨none, ?_, rfl⟩) fun later => .refl _
      rw [absent]
      rfl

theorem samplePieces_isSome (samples : Option Samples) (strict : Bool) (formula : Text)
    (position : Nat) (pieces : List CallPiece) :
    (samplePieces samples false strict formula position pieces).outcome ≠ .ok none := by
  induction pieces generalizing position with
  | nil => exact nofun
  | cons piece pieces ih =>
    intro absent
    unfold samplePieces at absent
    simp only [Bool.false_and, Bool.false_eq_true, ↓reduceIte] at absent
    obtain ⟨_, -, absent⟩ := Traced.outcome_bind_eq_ok_iff.mp absent
    obtain ⟨text, -, absent⟩ := Traced.outcome_bind_eq_ok_iff.mp absent
    obtain ⟨later, ran, absent⟩ := Traced.outcome_bind_eq_ok_iff.mp absent
    cases later with
    | none => exact ih _ ran
    | some later => cases absent

namespace Filling

@[simp] theorem prepend_itemsFound (lead : Text) (filling : Filling) :
    (filling.prepend lead).itemsFound = filling.itemsFound := by
  unfold prepend
  split <;> rfl

@[simp] theorem prepend_valuesFound (lead : Text) (filling : Filling) :
    (filling.prepend lead).valuesFound = filling.valuesFound := by
  unfold prepend
  split <;> rfl

theorem prepend_eq_skipped_iff {lead : Text} {filling : Filling} :
    (filling.prepend lead).result = .skipped ↔ filling.result = .skipped := by
  unfold prepend
  split
  · rename_i text
    simp [text]
  · rfl

/-- Filling in comes to nothing for want of a value, or it is as if nothing could, and all items
have values. -/
def EndsOrCovers (x y : Except Fault Filling) : Prop :=
  (∃ filling, x = .ok filling ∧ filling.result = .skipped) ∨
    x = y ∧ Returns (fun filling => filling.valuesFound = filling.itemsFound) (fun _ => True) y

theorem EndsOrCovers.map {x y : Except Fault Filling} (both : EndsOrCovers x y)
    {change : Filling → Filling}
    (skipped : ∀ filling, filling.result = .skipped → (change filling).result = .skipped)
    (covers : ∀ filling, filling.valuesFound = filling.itemsFound →
      (change filling).valuesFound = (change filling).itemsFound) :
    EndsOrCovers (x >>= fun filling => pure (change filling))
      (y >>= fun filling => pure (change filling)) := by
  rcases both with ⟨filling, rfl, result⟩ | ⟨rfl, found⟩
  · exact .inl ⟨change filling, rfl, skipped filling result⟩
  · exact .inr ⟨rfl, found.bind fun filling all => covers filling all⟩

end Filling

/-- Filling in ends at the first dimensional reference without a value, unless there is none. -/
theorem fillPieces_endsOrCovers (numbers : Supply) (pieces : List Piece) :
    Filling.EndsOrCovers (fillPieces numbers true pieces) (fillPieces numbers false pieces) := by
  induction pieces with
  | nil => exact .inr ⟨rfl, rfl⟩
  | cons piece pieces ih =>
    have prepended (lead : Text) := ih.map (fun filling skipped =>
        show (filling.prepend lead).result =
              .skipped from Filling.prepend_eq_skipped_iff.mpr skipped) fun _ all => by
      simpa using all
    cases piece with
    | plain c => exact prepended [c]
    | reference found =>
      simp only [fillPieces, Bool.and_true, Bool.and_false, Bool.false_eq_true, ↓reduceIte]
      by_cases dimensional : found.isDimensional
      · simp only [dimensional, ↓reduceIte]
        cases supplied : numbers.number? found with
        -- This item has no value, which ends one of the two and not the other.
        | none => exact .inl ⟨_, rfl, rfl⟩
        | some x =>
          simp only [Option.isNone_some, Bool.false_eq_true, ↓reduceIte]
          cases written : literalOrZero (some x) with
          | error fault => exact .inr ⟨rfl, trivial⟩
          | ok lead =>
            exact ih.map (fun _ skipped => Filling.prepend_eq_skipped_iff.mpr skipped)
                fun _ all => by
              simpa [Filling.count] using all
      · simp only [dimensional, Bool.false_eq_true, ↓reduceIte]
        cases written : literalOrZero (numbers.number? found) with
        | error fault => exact .inr ⟨rfl, trivial⟩
        | ok lead => exact prepended lead

def Inputs.under (inputs : Inputs) (strategy : Strategy) : Inputs :=
  { inputs with strategy := some strategy.name }

theorem strategy_under (settings : Settings) (inputs : Inputs) (strategy : Strategy) :
    settings.strategy (inputs.under strategy).strategy = .ok strategy := by
  cases strategy <;> rfl

def Filling.Skipped (filling : Filling) : Prop :=
  filling.result = .skipped

namespace Filling

theorem skipIfAllMissing_skipped_or_eq (filling : Filling) :
    filling.skipIfAllMissing.Skipped ∨ filling.skipIfAllMissing = filling := by
  unfold skipIfAllMissing
  split
  · exact .inl rfl
  · exact .inr rfl

theorem eq_of_not_skipped {strategy : Strategy} {filling : Filling}
    (kept : ¬ (if strategy = .skipIfAllMissing then filling.skipIfAllMissing
      else filling).Skipped) :
    (if strategy = .skipIfAllMissing then filling.skipIfAllMissing else filling) = filling := by
  split at kept <;> rename_i asked
  · rw [if_pos asked]
    exact filling.skipIfAllMissing_skipped_or_eq.resolve_left kept
  · rw [if_neg asked]

theorem text_of_skipping {strategy : Strategy} {filling : Filling} {filled : Text}
    (result : (if strategy = .skipIfAllMissing then filling.skipIfAllMissing else filling).result =
      .text filled) : filling.result = .text filled := by
  rw [eq_of_not_skipped fun skipped => by cases result.symm.trans skipped] at result
  exact result

theorem skipIfAllMissing_stricter (filling : Filling) :
    Stricter Skipped (pure filling.skipIfAllMissing) (pure filling) := by
  rcases filling.skipIfAllMissing_skipped_or_eq with skipped | same
  · exact .inl ⟨_, rfl, skipped⟩
  · exact .inr (congrArg pure same)

end Filling

variable {inputs : Inputs} {strict : Bool} {formula : Text}

def fillSampled (strategy : Strategy) (inputs : Inputs) (strict : Bool) (sampled : Text) :
    Traced Filling := do
  let numbers := inputs.supply
  let tested ← substituteNullTests sampled (fun key => (numbers.values.lookup key).isSome) strict
  let pieces := Piece.ofText (capitalizeCalls tested)
  let filling ←
    Traced.ofExcept ((fillPieces numbers (strategy = .skipIfAnyMissing) pieces).mapError .fault)
  return if strategy = .skipIfAllMissing then filling.skipIfAllMissing else filling

theorem fillUnder_eq (strategy : Strategy) (inputs : Inputs) (strict : Bool) (formula : Text) :
    fillUnder strategy inputs strict formula =
      substituteSamples formula inputs.samples strategy strict >>= fun
        | some sampled => fillSampled strategy inputs strict sampled
        | none => return { result := .skipped } := by
  refine congrArg (substituteSamples formula inputs.samples strategy strict >>= ·)
    (funext fun sampled => ?_)
  cases sampled <;> rfl

theorem sampled_of_fillUnder {strategy : Strategy} {filling : Filling}
    (ran : (fillUnder strategy inputs strict formula).outcome = .ok filling)
    (kept : ¬ filling.Skipped) :
    ∃ sampled, (substituteSamples formula inputs.samples strategy strict).outcome =
        .ok (some sampled) ∧
      (fillSampled strategy inputs strict sampled).outcome = .ok filling := by
  rw [fillUnder_eq] at ran
  obtain ⟨sampled, present, ran⟩ := Traced.outcome_bind_eq_ok_iff.mp ran
  cases sampled with
  | none =>
    cases ran
    exact absurd rfl kept
  | some sampled => exact ⟨sampled, present, ran⟩

theorem fill_eq_fillUnder {settings : Settings} {strategy : Strategy} (nonempty : formula ≠ [])
    (named : settings.strategy inputs.strategy = .ok strategy) :
    fill settings inputs strict formula = fillUnder strategy inputs strict formula := by
  have some : formula.isEmpty = false := by simpa using nonempty
  rw [fill, some, named]
  rfl

theorem substituteSamples_under {strategy : Strategy} (other : strategy ≠ .skipIfAnyMissing)
    (formula : Text) (samples : Option Samples) (strict : Bool) :
    substituteSamples formula samples strategy strict =
      substituteSamples formula samples .neverSkip strict := by
  simp only [substituteSamples, other, reduceCtorEq]

/-- What is not skipped for its first missing value is filled in as if it never were. -/
theorem fillPieces_of_not_skipped {numbers : Supply} {skipsAny : Bool} {pieces : List Piece}
    {filling : Filling} (ran : fillPieces numbers skipsAny pieces = .ok filling)
    (kept : ¬ filling.Skipped) : fillPieces numbers false pieces = .ok filling := by
  cases skipsAny with
  | false => exact ran
  | true =>
    rcases fillPieces_endsOrCovers numbers pieces with ⟨other, ends, skipped⟩ | ⟨same, -⟩
    · rw [ends] at ran
      cases ran
      exact absurd skipped kept
    · exact same ▸ ran

theorem fillSampled_any (inputs : Inputs) (strict : Bool) (sampled : Text) :
    Stricter Filling.Skipped (fillSampled .skipIfAnyMissing inputs strict sampled)
      (fillSampled .neverSkip inputs strict sampled) := by
  unfold fillSampled
  refine .after _
    fun tested => .bind ?_ (fun filling skipped => ⟨filling, rfl, skipped⟩) fun _ => .refl _
  rcases fillPieces_endsOrCovers inputs.supply (Piece.ofText (capitalizeCalls tested))
    with ⟨filling, ends, skipped⟩ | ⟨same, -⟩
  · exact .inl ⟨filling, by simp [ends, Traced.ofExcept], skipped⟩
  · exact .inr (by simp [same])

theorem fillSampled_all (inputs : Inputs) (strict : Bool) (sampled : Text) :
    Stricter Filling.Skipped (fillSampled .skipIfAllMissing inputs strict sampled)
      (fillSampled .neverSkip inputs strict sampled) := by
  unfold fillSampled
  exact .after _ fun tested => .after _ fun filling => filling.skipIfAllMissing_stricter

/-- A strategy skips a formula or fills it in as if it never skipped. -/
theorem fillUnder_stricter (strategy : Strategy) (inputs : Inputs) (strict : Bool)
    (formula : Text) :
    Stricter Filling.Skipped (fillUnder strategy inputs strict formula)
      (fillUnder .neverSkip inputs strict formula) := by
  rw [fillUnder_eq, fillUnder_eq]
  cases strategy with
  | neverSkip => exact .refl _
  | skipIfAllMissing =>
    rw [substituteSamples_under (by decide)]
    refine .after _ fun sampled => ?_
    cases sampled with
    | none => exact .refl _
    | some sampled => exact fillSampled_all inputs strict sampled
  | skipIfAnyMissing =>
    -- Samples may be missing already, before any number is.
    refine .bind (samplePieces_stricter ..) (fun sampled absent => ?_) fun sampled => ?_
    · subst absent
      exact ⟨_, rfl, rfl⟩
    · cases sampled with
      | none => exact .refl _
      | some sampled => exact fillSampled_any inputs strict sampled

theorem fillPieces_not_skipped (numbers : Supply) (pieces : List Piece) :
    Returns (fun filling => ¬ filling.Skipped) (fun _ => True)
      (fillPieces numbers false pieces) := by
  induction pieces with
  | nil => exact nofun
  | cons piece pieces ih =>
    have prepended (lead : Text) : Returns (fun filling => ¬ filling.Skipped) (fun _ => True)
        (do return (← fillPieces numbers false pieces).prepend lead) :=
      ih.bind fun filling other skipped => other (Filling.prepend_eq_skipped_iff.mp skipped)
    cases piece with
    | plain c => exact prepended [c]
    | reference found =>
      simp only [fillPieces, Bool.and_false, Bool.false_eq_true, ↓reduceIte]
      split
      · refine (Returns.any _).bind fun lead _ => ih.bind fun filling other skipped => ?_
        exact other (Filling.prepend_eq_skipped_iff.mp skipped)
      · exact (Returns.any _).bind fun lead _ => prepended lead

def Skips (x : Traced Filling) : Prop :=
  ∃ filling, x.outcome = .ok filling ∧ filling.Skipped

theorem fillSampled_eq_ok_iff {strategy : Strategy} {sampled : Text} {filling : Filling} :
    (fillSampled strategy inputs strict sampled).outcome = .ok filling ↔
      ∃ tested found, (substituteNullTests sampled
            (fun key => (inputs.supply.values.lookup key).isSome) strict).outcome = .ok tested ∧
        fillPieces inputs.supply (strategy = .skipIfAnyMissing)
            (Piece.ofText (capitalizeCalls tested)) = .ok found ∧
        (if strategy = .skipIfAllMissing then found.skipIfAllMissing else found) = filling := by
  have filled {x : Except Fault Filling} {found : Filling} :
      (Traced.ofExcept (x.mapError Failure.fault)).outcome = .ok found ↔ x = .ok found := by
    cases x <;> simp [Traced.ofExcept]
  simp only [fillSampled, Traced.outcome_bind_eq_ok_iff, filled, Traced.outcome_pure,
    Except.ok.injEq, exists_and_left]

theorem fillSampled_never (inputs : Inputs) (strict : Bool) (sampled : Text) :
    ¬ Skips (fillSampled .neverSkip inputs strict sampled) := by
  rintro ⟨filling, ran, skipped⟩
  obtain ⟨tested, found, -, filled, rfl⟩ := fillSampled_eq_ok_iff.mp ran
  have other := fillPieces_not_skipped inputs.supply (Piece.ofText (capitalizeCalls tested))
  rw [show fillPieces inputs.supply false _ = .ok found from filled] at other
  exact other skipped

theorem skips_of_skipIfAllMissing {sampled : Text}
    (skips : Skips (fillSampled .skipIfAllMissing inputs strict sampled)) :
    Skips (fillSampled .skipIfAnyMissing inputs strict sampled) := by
  obtain ⟨filling, ran, skipped⟩ := skips
  obtain ⟨tested, found, tests, filled, rfl⟩ := fillSampled_eq_ok_iff.mp ran
  have filled : fillPieces inputs.supply false (Piece.ofText (capitalizeCalls tested)) =
      .ok found :=
    filled
  rcases fillPieces_endsOrCovers inputs.supply (Piece.ofText (capitalizeCalls tested)) with
    ⟨ended, ends, skipped'⟩ | ⟨-, covers⟩
  · exact ⟨ended, fillSampled_eq_ok_iff.mpr ⟨tested, ended, tests, ends, rfl⟩, skipped'⟩
  · have other := fillPieces_not_skipped inputs.supply (Piece.ofText (capitalizeCalls tested))
    rw [filled] at other covers
    have covers : found.valuesFound = found.itemsFound := covers
    -- All items have values, so that none of them having one means that there are no items.
    have kept : found.skipIfAllMissing = found :=
      if_neg fun ⟨items, values⟩ => items (covers ▸ values)
    exact absurd (kept ▸ skipped) other

theorem fillUnder_never (inputs : Inputs) (strict : Bool) (formula : Text) :
    ¬ Skips (fillUnder .neverSkip inputs strict formula) := by
  rw [fillUnder_eq]
  rintro ⟨filling, ran, skipped⟩
  obtain ⟨sampled, present, ran⟩ := Traced.outcome_bind_eq_ok_iff.mp ran
  cases sampled with
  | none => exact samplePieces_isSome _ _ _ _ _ present
  | some sampled => exact fillSampled_never inputs strict sampled ⟨filling, ran, skipped⟩

theorem fillUnder_skips (skips : Skips (fillUnder .skipIfAllMissing inputs strict formula)) :
    Skips (fillUnder .skipIfAnyMissing inputs strict formula) := by
  rw [fillUnder_eq] at skips ⊢
  rw [substituteSamples_under (by decide)] at skips
  obtain ⟨filling, ran, skipped⟩ := skips
  obtain ⟨sampled, present, ran⟩ := Traced.outcome_bind_eq_ok_iff.mp ran
  cases sampled with
  | none => exact absurd present (samplePieces_isSome _ _ _ _ _)
  | some sampled =>
    obtain ⟨filling', ran', skipped'⟩ := skips_of_skipIfAllMissing ⟨filling, ran, skipped⟩
    have stricter : Stricter (· = none)
        (substituteSamples formula inputs.samples .skipIfAnyMissing strict)
        (substituteSamples formula inputs.samples .neverSkip strict) :=
      samplePieces_stricter ..
    rcases stricter with ⟨_, absent, rfl⟩ | same
    · exact ⟨_, Traced.outcome_bind_eq_ok_iff.mpr ⟨none, absent, rfl⟩, rfl⟩
    · exact ⟨filling', Traced.outcome_bind_eq_ok_iff.mpr ⟨some sampled, same ▸ present, ran'⟩,
        skipped'⟩

theorem fill_under (settings : Settings) (inputs : Inputs) (strategy : Strategy) (strict : Bool)
    (formula : Text) :
    fill settings (inputs.under strategy) strict formula =
      if formula.isEmpty then pure { result := .empty }
        else fillUnder strategy inputs strict formula := by
  unfold fill
  rw [strategy_under]
  rfl

theorem fill_stricter (settings : Settings) (inputs : Inputs) (strategy : Strategy) (strict : Bool)
    (formula : Text) :
    Stricter Filling.Skipped (fill settings (inputs.under strategy) strict formula)
      (fill settings (inputs.under .neverSkip) strict formula) := by
  rw [fill_under, fill_under]
  split
  · exact .refl _
  · exact fillUnder_stricter strategy inputs strict formula

theorem decide_stricter {α : Type} (fallsThrough : Bool) (itemsFound valuesFound : Nat) (zero : α)
    (value : Option α) (strategy : Strategy) :
    strategy.decide fallsThrough itemsFound valuesFound zero value = none ∨
      strategy.decide fallsThrough itemsFound valuesFound zero value =
        Strategy.neverSkip.decide fallsThrough itemsFound valuesFound zero value := by
  unfold Strategy.decide
  split
  · exact .inl rfl
  · cases value with
    | some x => exact .inr (by simp [Strategy.skips])
    | none =>
      split
      · exact .inr (by simp [Strategy.skips])
      · exact .inl rfl

def calculateFilling (settings : Settings) (strict : Bool) (filling : Filling) :
    Traced (Option Double) :=
  match filling.result.text? with
  | some text => calculate settings strict true text
  | none => pure none

theorem formulaValue_bind (settings : Settings) (inputs : Inputs) (strict : Bool) (formula : Text) :
    formulaValue settings inputs strict formula =
      fill settings inputs strict formula >>= fun filling =>
        if filling.result = .skipped then pure none
        else calculateFilling settings strict filling >>= fun value => Traced.ofExcept
          (settings.decide inputs.strategy none filling.itemsFound filling.valuesFound (.zero false)
            value) := by
  unfold formulaValue calculateFilling
  refine congrArg (fill settings inputs strict formula >>= ·) (funext fun filling => ?_)
  cases filling.result.text? <;> rfl

theorem formulaValue_eq (settings : Settings) (inputs : Inputs) (strategy : Strategy)
    (strict : Bool) (formula : Text) :
    formulaValue settings (inputs.under strategy) strict formula =
      fill settings (inputs.under strategy) strict formula >>= fun filling =>
        if filling.result = .skipped then pure none
        else calculateFilling settings strict filling >>= fun value => pure
          (strategy.decide settings.fallsThrough filling.itemsFound filling.valuesFound
            (.zero false) value) := by
  rw [formulaValue_bind]
  unfold Settings.decide
  rw [strategy_under]
  rfl

theorem strategy_ne_formula {settings : Settings} {name : Option Text} {error : FormulaError} :
    settings.strategy name ≠ .error (.formula error) := by
  simp only [Settings.strategy]
  split <;> simp

theorem decide_ne_formula {α : Type} (settings : Settings) (name : Option Text)
    (itemsFound valuesFound : Nat) (zero : α) (value : Option α) (error : FormulaError) :
    settings.decide name none itemsFound valuesFound zero value ≠ .error (.formula error) := by
  intro failed
  rcases bind_eq_error_iff.mp failed with failed | ⟨strategy, -, impossible⟩
  · exact strategy_ne_formula failed
  · cases impossible

theorem formulaValue_skips (settings : Settings) (inputs : Inputs) (strategy : Strategy)
    (strict : Bool) (formula : Text) :
    Stricter (· = none) (formulaValue settings (inputs.under strategy) strict formula)
      (formulaValue settings (inputs.under .neverSkip) strict formula) := by
  rw [formulaValue_eq, formulaValue_eq]
  refine (fill_stricter settings inputs strategy strict formula).bind (fun filling skipped => ?_)
    fun filling => ?_
  · exact ⟨none, by rw [if_pos (show filling.result = .skipped from skipped)]; rfl, rfl⟩
  · split
    · exact .refl _
    · refine .after _ fun value => ?_
      -- The strategy is asked once more for the value.
      rcases decide_stricter settings.fallsThrough filling.itemsFound filling.valuesFound
        (.zero false) value strategy with
        missing | same
      · rw [missing]
        refine .stop ?_ _
        rfl
      · rw [same]
        exact .refl _

def SkipsUnder (settings : Settings) (context : SubstitutionContext) (formula : Text)
    (strategy : Strategy) : Prop :=
  ∃ filling, (substitute settings .evaluate { context with inputs := context.inputs.under strategy }
        formula).outcome = .ok (.filled filling) ∧ filling.Skipped

theorem skipsUnder_iff {settings : Settings} {context : SubstitutionContext} {formula : Text}
    {strategy : Strategy} :
    SkipsUnder settings context formula strategy ↔
      formula.isEmpty = false ∧
        Skips (fillUnder strategy context.inputs context.strict formula) := by
  unfold SkipsUnder substitute
  simp only [fill_under, Traced.outcome_bind_eq_ok_iff, Traced.outcome_pure, Except.ok.injEq,
    Substituted.filled.injEq]
  cases formula with
  | nil => simp [Filling.Skipped]
  | cons c rest => simp [Skips]

/-- A strategy that skips takes values away and changes no others. The value of a formula under it
is missing, or it is what comes of the formula if it is never skipped, be that a value or a failure.
A formula is never skipped then, and one that is skipped for want of all values is also skipped for
want of any. -/
theorem formulaValue_stricter (settings : Settings) (context : SubstitutionContext)
    (formula : Text) :
    (∀ strategy strict,
        (formulaValue settings (context.inputs.under strategy) strict formula).outcome = .ok none ∨
          formulaValue settings (context.inputs.under strategy) strict formula =
            formulaValue settings (context.inputs.under .neverSkip) strict formula) ∧
      ¬ SkipsUnder settings context formula .neverSkip ∧
      (SkipsUnder settings context formula .skipIfAllMissing →
        SkipsUnder settings context formula .skipIfAnyMissing) := by
  refine ⟨fun strategy strict => ?_, fun skips => ?_, fun skips => ?_⟩
  · rcases formulaValue_skips settings context.inputs strategy strict formula
      with ⟨_, ran, rfl⟩ | same
    · exact .inl ran
    · exact .inr same
  · exact fillUnder_never _ _ _ (skipsUnder_iff.mp skips).2
  · obtain ⟨some, skips⟩ := skipsUnder_iff.mp skips
    exact skipsUnder_iff.mpr ⟨some, fillUnder_skips skips⟩

end IndicatorFormula
