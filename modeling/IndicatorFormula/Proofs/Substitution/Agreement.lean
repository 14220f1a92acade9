import IndicatorFormula.Proofs.Substitution.Counting
import IndicatorFormula.Proofs.Substitution.Leniency
import IndicatorFormula.Proofs.Substitution.Soundness

/-! Formulas that are filled in alike.

Fillings of which the same items count, and with the same of them valued, have the same value if
their texts are read alike, however their numbers are written. -/

set_option autoImplicit false
namespace IndicatorFormula

open Segment (text lexemes Regular Alone filled)

section Calculation

/-- What lenient calculation makes of a value: mistakes and lists come to zero. -/
def lenientValue : Except Breakdown Value → Except Failure (Option Double)
  | .error (.defect _) => .ok (some (.zero false))
  | .error (.fault fault) => .error (.fault fault)
  | .ok value =>
    if value.isList then .ok (some (.zero false))
      else (value.toDouble.mapError .fault).map Double.finite?

variable {settings : Settings} {allowAggregates : Bool} {first second : Text}
  {lexemes : List Lexeme}

theorem outcome_calculate_lenient (settings : Settings) (allowAggregates : Bool)
    (expression : Text) :
    (calculate settings false allowAggregates expression).outcome =
      lenientValue
        ((evaluate (allowedFunctions allowAggregates) expression).mapError Breakdown.unplaced) := by
  unfold calculate
  cases evaluate (allowedFunctions allowAggregates) expression with
  | error breakdown =>
    cases breakdown with
    | fault fault => rfl
    | defect defect => cases settings.logsParseWarnings <;> rfl
  | ok value =>
    simp only [lenientValue, Except.mapError]
    cases value.isList with
    | true => rfl
    | false => cases value.toDouble <;> rfl

theorem calculate_of_lexes (lexes : Lexer.Lexes first lexemes) (lexes' : Lexer.Lexes second lexemes)
    (settings : Settings) (allowAggregates : Bool) :
    (calculate settings false allowAggregates first).outcome =
      (calculate settings false allowAggregates second).outcome := by
  cases reads : Parser.tree lexemes with
  | ok tree =>
    rw [outcome_calculate_lenient, outcome_calculate_lenient, evaluate_of_lexes lexes reads,
      evaluate_of_lexes lexes' reads]
  | error reason =>
    -- Neither text is parsed.
    have zero : ∀ {text : Text}, Lexer.Lexes text lexemes →
        (calculate settings false allowAggregates text).outcome = .ok (some (.zero false)) := by
      intro text lexes
      refine calculate_unparsed settings allowAggregates fun tree parsed => ?_
      obtain ⟨others, read, tree'⟩ := Expr.lexes_of_parse parsed
      rw [read.unique lexes, reads] at tree'
      cases tree'
    rw [zero lexes, zero lexes']

end Calculation

variable {numbers : Supply} {formula : Text} {parts : List Part}

/-- What is not skipped is filled in with all numbers. -/
theorem fillPieces_text (finite : numbers.Finite) {skipsAny : Bool} {pieces : List Piece}
    {filling : Filling} (ran : fillPieces numbers skipsAny pieces = .ok filling)
    (kept : ¬ filling.Skipped) :
    filling.result =
      .text (pieces.flatMap
        (Piece.filled fun reference => (Segment.ofReference numbers reference).flatMap text)) := by
  have plain := fillPieces_of_not_skipped ran kept
  obtain ⟨other, filled, result⟩ :=
    fillPieces_eq pieces fun reference _ => Segment.literalOrZero_eq finite reference
  rw [filled] at plain
  cases plain
  exact result

theorem Segment.clearedAll_reference {absent : List Reference} {segment : Segment} {lead : Text}
    {found : Reference} {tail : Text}
    (same : segment.clearedAll absent = .reference lead found tail) :
    segment = .reference lead found tail := by
  induction absent generalizing segment with
  | nil => exact same
  | cons reference absent ih =>
    have one : segment.cleared reference = .reference lead found tail := ih same
    cases segment with
    | reference lead' other tail' =>
      unfold Segment.cleared at one
      simp only at one
      split at one
      · cases one
      · exact one
    | _ => cases one

theorem Filling.Counts.congr {others : Supply} {strategy : Strategy} {items : List Reference}
    {filling : Filling} (same : ∀ item ∈ items, others.number? item = numbers.number? item)
    (counts : filling.Counts others (strategy.SkipsFor others items) items) :
    filling.Counts numbers (strategy.SkipsFor numbers items) items := by
  have valued : valuedItems others items = valuedItems numbers items :=
    List.filter_congr fun item member => by rw [same item member]
  have skips : strategy.SkipsFor others items ↔ strategy.SkipsFor numbers items := by
    cases strategy with
    | skipIfAnyMissing =>
      exact exists_congr fun item => and_congr_right fun member => by rw [same item member]
    | skipIfAllMissing =>
      exact and_congr_right fun _ => forall₂_congr fun item member => by rw [same item member]
    | neverSkip => exact Iff.rfl
  exact ⟨counts.skipped.trans skips, counts.found, valued ▸ counts.valued⟩

def filledSegments (numbers : Supply) (parts : List Part) : List Segment :=
  (clearedSegments numbers parts).flatMap (filled numbers)

def clearedItems (numbers : Supply) (parts : List Part) : List Reference :=
  Piece.items ((clearedSegments numbers parts).flatMap Segment.pieces)

theorem formulaValue_of_unnamed {settings : Settings} {inputs : Inputs} {strict : Bool}
    {failure : Failure} (nonempty : formula ≠ [])
    (unnamed : settings.strategy inputs.strategy = .error failure) :
    (formulaValue settings inputs strict formula).outcome = .error failure := by
  have some : formula.isEmpty = false := by simpa using nonempty
  rw [formulaValue_bind, fill, some, unnamed]
  rfl

structure Ready (inputs : Inputs) (formula : Text) (parts : List Part) :
    Prop extends Plain formula parts where
  some : formula ≠ []
  alone : Alone (parts.flatMap Part.segments)
  finite : inputs.supply.Finite
  unsampled : inputs.samples = none

namespace Ready

variable {inputs others : Inputs} {formula' : Text} {parts' : List Part}

theorem regular_cleared (ready : Ready inputs formula parts) :
    Regular (clearedSegments inputs.supply parts) :=
  (ready.ofText_rewritten inputs.supply).1

theorem alone_cleared (ready : Ready inputs formula parts) :
    Alone (clearedSegments inputs.supply parts) := by
  intro lead found tail member
  obtain ⟨segment, within, same⟩ := List.mem_map.mp member
  exact Part.alone_tested ready.alone lead found tail (Segment.clearedAll_reference same ▸ within)

theorem lexes (ready : Ready inputs formula parts) :
    Lexer.Lexes ((filledSegments inputs.supply parts).flatMap text)
      ((filledSegments inputs.supply parts).flatMap lexemes) := by
  have fits := ready.regular_cleared.flatMap fun segment member =>
    Segment.fits_filled ready.finite (ready.regular_cleared.formed segment member)
  exact fits.lexes fun _ _ _ => Segment.reference_not_mem_filled _

theorem fillUnder (ready : Ready inputs formula parts) (strategy : Strategy) (strict : Bool) :
    ∃ filling, (fillUnder strategy inputs strict formula).outcome = .ok filling ∧
      filling.Counts inputs.supply
        (strategy.SkipsFor inputs.supply (clearedItems inputs.supply parts))
        (clearedItems inputs.supply parts) ∧
      (¬ filling.Skipped →
        filling.result = .text ((filledSegments inputs.supply parts).flatMap text)) := by
  have rewritten := (ready.ofText_rewritten inputs.supply).2
  have counts :=
    ready.toPrepared.fillUnder_counts strategy ready.unsampled strict
      (congrArg Piece.items rewritten)
  cases ran : (IndicatorFormula.fillUnder strategy inputs strict formula).outcome with
  | error failure =>
    rw [ran] at counts
    exact absurd ready.finite.written counts
  | ok filling =>
    rw [ran] at counts
    refine ⟨filling, rfl, counts, fun kept => ?_⟩
    rw [ready.toPrepared.fillUnder_eq strategy ready.unsampled strict, Traced.outcome_bind,
      rewritten] at ran
    obtain ⟨before, filled, decided⟩ := bind_eq_ok_iff.mp ran
    -- The strategy has nothing left to skip.
    have stays : before = filling := by
      have decided : (if strategy = .skipIfAllMissing then before.skipIfAllMissing else before) =
          filling :=
        Except.ok.inj decided
      rw [← decided] at kept
      exact (Filling.eq_of_not_skipped kept).symm.trans decided
    rw [filledSegments, ← Segment.flatMap_filled ready.alone_cleared]
    cases pieces : fillPieces inputs.supply (strategy = .skipIfAnyMissing)
        ((clearedSegments inputs.supply parts).flatMap Segment.pieces) with
    | error fault =>
      rw [pieces] at filled
      cases filled
    | ok other =>
      rw [pieces] at filled
      obtain rfl : other = filling := (Except.ok.inj filled).trans stays
      exact fillPieces_text ready.finite pieces kept

/-- Formulas have the same value if the passes leave the same items in them, with the same numbers,
and they are read alike once filled in. -/
theorem formulaValue_eq (ready : Ready inputs formula parts) (ready' : Ready others formula' parts')
    (strategies : inputs.strategy = others.strategy)
    (items : clearedItems inputs.supply parts = clearedItems others.supply parts')
    (supplied : ∀ item ∈ clearedItems others.supply parts', inputs.supply.number? item =
      others.supply.number? item)
    (alike : (filledSegments inputs.supply parts).flatMap lexemes =
      (filledSegments others.supply parts').flatMap lexemes) (settings : Settings) :
    (formulaValue settings inputs false formula).outcome =
      (formulaValue settings others false formula').outcome := by
  cases named : settings.strategy others.strategy with
  | error failure =>
    rw [formulaValue_of_unnamed ready.some (strategies ▸ named),
      formulaValue_of_unnamed ready'.some named]
  | ok strategy =>
    obtain ⟨filling, ran, counts, result⟩ := ready.fillUnder strategy false
    obtain ⟨filling', ran', counts', result'⟩ := ready'.fillUnder strategy false
    rw [← fill_eq_fillUnder ready.some (strategies ▸ named)] at ran
    rw [← fill_eq_fillUnder ready'.some named] at ran'
    rw [items] at counts
    have counts := counts.congr supplied
    have skipped : filling.Skipped ↔ filling'.Skipped := counts.skipped.trans counts'.skipped.symm
    have calculated := calculate_of_lexes (alike ▸ ready.lexes) ready'.lexes settings true
    rw [formulaValue_bind, formulaValue_bind, Traced.outcome_bind, Traced.outcome_bind, ran, ran']
    change Traced.outcome (if filling.result = .skipped then _ else _) =
      Traced.outcome (if filling'.result = .skipped then _ else _)
    by_cases gone : filling'.result = .skipped
    · rw [if_pos gone, if_pos (show filling.result = .skipped from skipped.mpr gone)]
    · have kept : ¬ filling.result = .skipped := fun other => gone (skipped.mp other)
      rw [if_neg kept, if_neg gone, counts.found kept, counts'.found gone, counts.valued kept,
        counts'.valued gone, strategies, Traced.outcome_bind, Traced.outcome_bind]
      unfold calculateFilling
      rw [result kept, result' gone]
      exact congrArg (· >>= _) calculated

end Ready
end IndicatorFormula
