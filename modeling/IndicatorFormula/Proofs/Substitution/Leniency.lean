import IndicatorFormula.Proofs.Calculation
import IndicatorFormula.Proofs.Substitution.Brackets
import IndicatorFormula.Proofs.Substitution.Coverage

/-! Strict and lenient reading.

What is read strictly without a failure is read leniently alike, up to the journal. A mistake that
strict reading fails with is passed over, and then the value is zero: behind a call that does not
close, nothing that the passes do makes a text that is parsed. -/

set_option autoImplicit false
namespace IndicatorFormula

namespace Traced

variable {α β : Type} {reason : Prop}

/-- Both computations come to the same, or the first one fails with a mistake in a formula, for a
reason. -/
def Relents (reason : Prop) (x y : Traced α) : Prop :=
  x.outcome = y.outcome ∨ reason ∧ ∃ error, x.outcome = .error (.formula error)

namespace Relents

theorem refl (x : Traced α) : Relents reason x x :=
  .inl rfl

theorem mono {other : Prop} {x y : Traced α} (relents : Relents reason x y)
    (implies : reason → other) : Relents other x y :=
  relents.imp_right fun failed => ⟨implies failed.1, failed.2⟩

theorem bind {x y : Traced α} {next next' : α → Traced β} (first : Relents reason x y)
    (rest : ∀ value, x.outcome = .ok value → Relents reason (next value) (next' value)) :
    Relents reason (x >>= next) (y >>= next') := by
  unfold Relents
  rw [outcome_bind, outcome_bind]
  rcases first with same | ⟨is, error, failed⟩
  · rw [← same]
    cases ran : x.outcome with
    | error failure => exact .inl rfl
    | ok value => exact rest value ran
  · exact .inr ⟨is, error, by rw [failed]; rfl⟩

theorem ok {x y : Traced α} (relents : Relents reason x y) {value : α}
    (ran : x.outcome = .ok value) : y.outcome = .ok value := by
  rcases relents with same | ⟨-, error, failed⟩
  · exact same ▸ ran
  · rw [ran] at failed
    cases failed

end Relents
end Traced

open Traced (Relents)

variable {formula : Text} {pieces : List CallPiece}

theorem outcome_passOverUnclosed (formula : Text) (position : Nat) (pieces : List CallPiece) :
    (passOverUnclosed false formula position pieces).outcome = .ok () := by
  induction pieces generalizing position with
  | nil => rfl
  | cons piece pieces ih =>
    cases piece <;> exact ih _

theorem passOverUnclosed_relents (formula : Text) (position : Nat) (pieces : List CallPiece) :
    Relents (∃ head, .unclosed head ∈ pieces) (passOverUnclosed true formula position pieces)
      (passOverUnclosed false formula position pieces) := by
  induction pieces generalizing position with
  | nil => exact .refl _
  | cons piece pieces ih =>
    have later : ∀ position, Relents (∃ head, .unclosed head ∈ piece :: pieces)
        (passOverUnclosed true formula position pieces)
        (passOverUnclosed false formula position pieces) :=
      fun position =>
      (ih position).mono fun ⟨head, member⟩ => ⟨head, List.mem_cons_of_mem _ member⟩
    cases piece with
    | unclosed head => exact .inr ⟨⟨head, List.mem_cons_self⟩, _, rfl⟩
    | plain | call => exact later _

theorem samplePieces_relents (samples : Option Samples) (skipsMissing : Bool) (formula : Text)
    (position : Nat) (pieces : List CallPiece) :
    Relents (∃ head, .unclosed head ∈ pieces)
      (samplePieces samples skipsMissing true formula position pieces)
      (samplePieces samples skipsMissing false formula position pieces) := by
  induction pieces generalizing position with
  | nil => exact .refl _
  | cons piece pieces ih =>
    have own : Relents (∃ head, .unclosed head ∈ piece :: pieces)
        (passOverUnclosed true formula position [piece])
        (passOverUnclosed false formula position [piece]) :=
      (passOverUnclosed_relents ..).mono
        fun ⟨head, member⟩ => ⟨head, by simpa using .inl (List.mem_singleton.mp member)⟩
    have later (behind : Nat) : Relents (∃ head, .unclosed head ∈ piece :: pieces)
        (samplePieces samples skipsMissing true formula behind pieces)
        (samplePieces samples skipsMissing false formula behind pieces) :=
      (ih behind).mono fun ⟨head, member⟩ => ⟨head, List.mem_cons_of_mem _ member⟩
    unfold samplePieces
    refine own.bind fun _ _ => ?_
    split
    · exact .refl _
    · exact (Relents.refl _).bind fun text _ => (later _).bind fun _ _ => .refl _

def Open (formula : Text) : Prop :=
  depth? Text.nesting 0 formula ≠ some 0

theorem open_of_unclosed {functions : List Builtin} {head : CallHead}
    (unclosed : .unclosed head ∈ CallPiece.ofText functions formula) : Open formula :=
  fun closed => CallPiece.not_mem_ofText closed unclosed

theorem NestedAlike.open {new old : Text} (alike : NestedAlike new old) (opened : Open new) :
    Open old := by
  unfold Open at opened ⊢
  rwa [← alike 0]

theorem fillSampled_relents (strategy : Strategy) (inputs : Inputs) (sampled : Text) :
    Relents (Open sampled) (fillSampled strategy inputs true sampled)
      (fillSampled strategy inputs false sampled) := by
  unfold fillSampled substituteNullTests
  refine Relents.bind ?_ fun _ _ => .refl _
  exact ((passOverUnclosed_relents ..).mono fun ⟨head, member⟩ => open_of_unclosed member).bind
    fun _ _ => .refl _

theorem fillUnder_relents (strategy : Strategy) (inputs : Inputs) (formula : Text) :
    Relents (Open formula) (fillUnder strategy inputs true formula)
      (fillUnder strategy inputs false formula) := by
  rw [fillUnder_eq, fillUnder_eq]
  refine ((samplePieces_relents ..).mono fun ⟨head, member⟩ => open_of_unclosed member).bind
    fun sampled ran => ?_
  cases sampled with
  | none => exact .refl _
  | some sampled =>
    have alike :=
      nestedAlike_samplePieces (fun piece member => CallPiece.formed_of_mem_ofTextFrom member) ran
    rw [CallPiece.text_ofTextFrom] at alike
    exact (fillSampled_relents strategy inputs sampled).mono alike.open

theorem fill_relents (settings : Settings) (inputs : Inputs) (formula : Text) :
    Relents (Open formula) (fill settings inputs true formula)
      (fill settings inputs false formula) := by
  unfold fill
  split
  · exact .refl _
  · exact (Relents.refl _).bind fun strategy _ => fillUnder_relents strategy inputs formula

theorem calculate_unparsed (settings : Settings) (allowAggregates : Bool) {expression : Text}
    (unparsed : ∀ tree, Expr.parse expression ≠ .ok tree) :
    (calculate settings false allowAggregates expression).outcome = .ok (some (.zero false)) := by
  have failed : ∃ defect, evaluate (allowedFunctions allowAggregates) expression =
      .error (.defect defect) := by
    cases parsed : Expr.parse expression with
    | ok tree => exact absurd parsed (unparsed tree)
    | error defect => exact ⟨defect, by unfold evaluate; rw [parsed]; rfl⟩
  obtain ⟨defect, failed⟩ := failed
  unfold calculate
  simp only [failed]
  split <;> rfl

theorem outcome_calculate (settings : Settings) (allowAggregates : Bool) (expression : Text) :
    (calculate settings false allowAggregates expression).outcome =
      match (calculate settings true allowAggregates expression).outcome with
      | .error (.formula _) => .ok (some (.zero false))
      | outcome => outcome := by
  unfold calculate
  cases evaluate (allowedFunctions allowAggregates) expression with
  | error breakdown =>
    cases breakdown with
    | fault fault => rfl
    | defect defect => cases settings.logsParseWarnings <;> rfl
  | ok value =>
    simp only
    split
    · rfl
    · cases double : value.toDouble with
      | error fault => rfl
      | ok x => rfl

structure Inputs.Written (inputs : Inputs) : Prop where
  numbers : inputs.supply.Written
  samples : ∀ table ∈ inputs.samples, ∀ entry ∈ table, ∀ sample ∈ entry.2, ∀ x ∈ sample, ∃ literal,
    x.literal = .ok literal

theorem overflow_of_literal {x : Number} {fault : Fault} (failed : x.literal = .error fault) :
    fault = .overflow := by
  rcases bind_eq_error_iff.mp failed with failed | ⟨value, -, impossible⟩
  · unfold Number.toDouble at failed
    split at failed
    · cases failed
    · cases failed
    · split at failed
      · cases failed
        rfl
      · cases failed
  · cases impossible

/-- Lenient reading fails at nothing but numbers that are too large. -/
def OnlyTooLarge (inputs : Inputs) (failure : Failure) : Prop :=
  failure = .fault .overflow ∧ ¬ inputs.Written

variable {inputs : Inputs} {strategy : Strategy} {strict : Bool} {filling : Filling}

theorem sampleList_returns (samples : List (Option Number)) :
    Returns (fun _ => True) (fun fault =>
      fault = .overflow ∧ ∃ sample ∈ samples, ∃ x ∈ sample, ∀ literal, x.literal ≠ .ok literal)
      (sampleList samples) := by
  have each : Returns (fun literals => ∀ literal ∈ literals, True) (fun fault =>
      fault = .overflow ∧ ∃ sample ∈ samples, ∃ x ∈ sample, ∀ literal, x.literal ≠ .ok literal)
      ((samples.filterMap id).mapM Number.literal) := by
    refine .mapM _ fun x member => ?_
    obtain ⟨sample, within, same⟩ := List.mem_filterMap.mp member
    cases own : x.literal with
    | ok literal => trivial
    | error fault => exact ⟨overflow_of_literal own, sample, within, x, same, by simp [own]⟩
  exact each.bind fun literals _ => trivial

theorem sampledArgument_returns (inputs : Inputs) (argument : Text) :
    Returns (fun _ => True) (fun fault => fault = .overflow ∧ ¬ inputs.Written)
      (sampledArgument inputs.samples argument) := by
  unfold sampledArgument
  cases given : inputs.samples with
  | none => trivial
  | some table =>
    simp only
    split
    · trivial
    · refine (sampleList_returns _).weaken ?_
      rintro fault ⟨large, sample, within, x, same, absent⟩
      refine ⟨large, fun written => ?_⟩
      cases found : table.lookup argument with
      | none => simp [found] at within
      | some samples =>
        rw [found, Option.getD_some] at within
        obtain ⟨literal, written⟩ :=
          written.samples table given _ (mem_of_lookup found) sample within x same
        exact absent literal written

theorem samplePiece_returns (inputs : Inputs) (piece : CallPiece) :
    Returns (fun _ => True) (OnlyTooLarge inputs)
      ((samplePiece inputs.samples piece).mapError .fault) := by
  cases piece with
  | plain | unclosed => trivial
  | call head argument closer =>
    have returns : Returns (fun _ => True) (fun fault => fault = .overflow ∧ ¬ inputs.Written)
        (samplePiece inputs.samples (.call head argument closer)) :=
      (sampledArgument_returns inputs argument).bind fun text _ => trivial
    exact returns.mapError _ fun fault failed => ⟨congrArg Failure.fault failed.1, failed.2⟩

theorem samplePieces_returns (inputs : Inputs) (skipsMissing : Bool) (formula : Text)
    (position : Nat) (pieces : List CallPiece) :
    Returns (fun _ => True) (OnlyTooLarge inputs)
      (samplePieces inputs.samples skipsMissing false formula position pieces).outcome := by
  induction pieces generalizing position with
  | nil => trivial
  | cons piece pieces ih =>
    unfold samplePieces
    rw [Traced.outcome_bind, outcome_passOverUnclosed]
    change Returns _ _ (ite _ _ _ : Traced _).outcome
    split
    · trivial
    · rw [Traced.outcome_bind]
      refine (samplePiece_returns inputs piece).bind fun text _ => ?_
      rw [Traced.outcome_bind]
      exact (ih _).bind fun later _ => trivial

theorem Filling.prepend_ne_empty {lead : Text} {filling : Filling}
    (some : filling.result ≠ .empty) : (filling.prepend lead).result ≠ .empty := by
  unfold Filling.prepend
  split
  · simp
  · exact some

theorem literalOrZero_overflows (numbers : Supply) (reference : Reference) :
    Returns (fun _ => True) (fun fault => fault = .overflow ∧ ¬ numbers.Written)
      (literalOrZero (numbers.number? reference)) := by
  have returns := numbers.literalOrZero_returns reference
  cases supplied : numbers.number? reference with
  | none => trivial
  | some x =>
    rw [supplied] at returns
    cases own : x.literal with
    | ok literal => simp only [literalOrZero, own, Returns]
    | error fault =>
      simp only [literalOrZero, own] at returns ⊢
      exact ⟨overflow_of_literal own, returns⟩

theorem fillPieces_returns (numbers : Supply) (skipsAny : Bool) (pieces : List Piece) :
    Returns (fun filling => filling.result ≠ .empty)
      (fun fault => fault = .overflow ∧ ¬ numbers.Written)
      (fillPieces numbers skipsAny pieces) := by
  induction pieces with
  | nil => exact fun same => by cases same
  | cons piece pieces ih =>
    cases piece with
    | plain c => exact ih.bind fun filling some => Filling.prepend_ne_empty some
    | reference found =>
      have written := literalOrZero_overflows numbers found
      simp only [fillPieces]
      split
      · split
        · exact fun same => by cases same
        · exact written.bind fun lead _ => ih.bind fun filling some => Filling.prepend_ne_empty some
      · exact written.bind fun lead _ => ih.bind fun filling some => Filling.prepend_ne_empty some

theorem fillUnder_returns (strategy : Strategy) (inputs : Inputs) (formula : Text) :
    Returns (fun filling => filling.result ≠ .empty) (OnlyTooLarge inputs)
      (fillUnder strategy inputs false formula).outcome := by
  rw [fillUnder_eq, Traced.outcome_bind]
  refine (samplePieces_returns inputs _ formula 0 _).bind fun sampled _ => ?_
  cases sampled with
  | none => exact nofun
  | some sampled =>
    change Returns _ _ (fillSampled strategy inputs false sampled).outcome
    unfold fillSampled
    rw [Traced.outcome_bind]
    have tested : ∃ tested, (substituteNullTests sampled
        (fun key => (inputs.supply.values.lookup key).isSome) false).outcome = .ok tested :=
      ⟨_, Traced.outcome_bind_eq_ok_iff.mpr ⟨(), outcome_passOverUnclosed .., rfl⟩⟩
    obtain ⟨tested, ran⟩ := tested
    rw [ran]
    change Returns _ _ (Traced.ofExcept _ >>= _ : Traced Filling).outcome
    rw [Traced.outcome_bind]
    have pieces :=
      fillPieces_returns inputs.supply (strategy = .skipIfAnyMissing)
        (Piece.ofText (capitalizeCalls tested))
    refine (pieces.mapError Failure.fault fun fault failed => ?_).bind fun filling some => ?_
    · exact ⟨congrArg Failure.fault failed.1, fun written => failed.2 written.numbers⟩
    · change (if strategy = .skipIfAllMissing then filling.skipIfAllMissing else filling).result ≠
        .empty
      split
      · rcases filling.skipIfAllMissing_skipped_or_eq with skipped | same
        · exact fun empty => nomatch empty.symm.trans skipped
        · rw [same]
          exact some
      · exact some

/-- The strategy that has not skipped a formula on the way does not skip its value. -/
theorem skips_of_fillUnder (ran : (fillUnder strategy inputs strict formula).outcome = .ok filling)
    (kept : ¬ filling.Skipped) : strategy.skips filling.itemsFound filling.valuesFound = false := by
  obtain ⟨sampled, -, ran⟩ := sampled_of_fillUnder ran kept
  obtain ⟨tested, found, -, fills, shape⟩ := fillSampled_eq_ok_iff.mp ran
  cases strategy with
  | neverSkip => rfl
  | skipIfAllMissing =>
    have shape : found.skipIfAllMissing = filling := shape
    unfold Filling.skipIfAllMissing at shape
    split at shape
    · subst shape
      exact absurd rfl kept
    · rename_i other
      subst shape
      simpa [Strategy.skips] using other
  | skipIfAnyMissing =>
    have shape : found = filling := shape
    have fills : fillPieces inputs.supply true _ = .ok found := fills
    subst shape
    rcases fillPieces_endsOrCovers inputs.supply (Piece.ofText (capitalizeCalls tested))
      with ⟨ended, ends, skipped⟩ | ⟨same, covers⟩
    · rw [fills] at ends
      cases ends
      exact absurd skipped kept
    · rw [← same, fills] at covers
      have covers : found.valuesFound = found.itemsFound := covers
      simp [Strategy.skips, covers]

theorem fill_eq_ok {settings : Settings} (some : formula.isEmpty = false)
    (ran : (fill settings inputs strict formula).outcome = .ok filling) :
    ∃ strategy, settings.strategy inputs.strategy = .ok strategy ∧
      (fillUnder strategy inputs strict formula).outcome = .ok filling := by
  unfold fill at ran
  rw [some, if_neg Bool.false_ne_true] at ran
  exact Traced.outcome_bind_eq_ok_iff.mp ran

theorem fill_ne_mistake (settings : Settings) (inputs : Inputs) (formula : Text)
    (error : FormulaError) :
    (fill settings inputs false formula).outcome ≠ .error (.formula error) := by
  unfold fill
  split
  · exact nofun
  · rw [Traced.outcome_bind]
    intro failed
    rcases bind_eq_error_iff.mp failed with failed | ⟨strategy, -, failed⟩
    · exact strategy_ne_formula failed
    · exact absurd ((fillUnder_returns strategy inputs formula).of_error failed).1 nofun

/-- What is calculated to zero, and not skipped, has the value zero under the strategy that did not
skip it. -/
theorem formulaValue_zero {settings : Settings} (some : formula.isEmpty = false)
    (ran : (fill settings inputs false formula).outcome = .ok filling)
    (zero : ∀ filled, filling.result = .text filled →
      (calculate settings false true filled).outcome = .ok (.some (.zero false))) :
    (formulaValue settings inputs false formula).outcome =
      .ok (if filling.result = .skipped then none else .some (.zero false)) := by
  rw [formulaValue_bind, Traced.outcome_bind, ran]
  change (ite _ _ _ : Traced (Option Double)).outcome = _
  split
  · rfl
  · rename_i kept
    obtain ⟨strategy, chosen, fills⟩ := fill_eq_ok some ran
    have decided : settings.decide inputs.strategy none filling.itemsFound filling.valuesFound
          (.zero false) (.some (.zero false)) = .ok (.some (Double.zero false)) := by
      have stays := skips_of_fillUnder fills kept
      simp [Settings.decide, chosen, Strategy.decide, stays, bind, Except.bind, pure, Except.pure]
    have returns := (fillUnder_returns strategy inputs formula).of_ok fills
    unfold calculateFilling
    cases result : filling.result with
    | empty => exact absurd result returns
    | skipped => exact absurd result kept
    | text filled =>
      rw [Traced.outcome_bind]
      change (calculate settings false true filled).outcome >>= _ = _
      rw [zero filled result]
      exact decided

theorem calculateFilling_relents (settings : Settings) (filling : Filling) :
    Relents (∃ filled, filling.result = .text filled ∧
        (calculate settings false true filled).outcome = .ok (some (.zero false)))
      (calculateFilling settings true filling) (calculateFilling settings false filling) := by
  unfold calculateFilling
  cases result : filling.result with
  | empty | skipped => exact .refl _
  | text filled =>
    have lenient := outcome_calculate settings true filled
    change Relents _ (calculate settings true true filled) (calculate settings false true filled)
    cases ran : (calculate settings true true filled).outcome with
    | ok value => exact .inl (by rw [lenient, ran])
    | error failure =>
      rw [ran] at lenient
      cases failure with
      | formula error => exact .inr ⟨⟨filled, rfl, lenient⟩, error, ran⟩
      | _ => exact .inl (by rw [lenient, ran])

/-- What strict reading fails with a mistake at is skipped or calculated to zero. -/
theorem zero_of_mistake {settings : Settings} {error : FormulaError}
    (failed : (formulaValue settings inputs true formula).outcome = .error (.formula error))
    (ran : (fill settings inputs false formula).outcome = .ok filling)
    (some : formula.isEmpty = false) :
    ∀ filled, filling.result = .text filled →
      (calculate settings false true filled).outcome = .ok (.some (.zero false)) := by
  intro filled result
  rcases fill_relents settings inputs formula with same | ⟨opened, -⟩
  -- The mistake is in the calculation of what was filled in.
  · rw [formulaValue_bind, Traced.outcome_bind, same, ran] at failed
    change (ite _ _ _ : Traced (Option Double)).outcome = _ at failed
    rw [result, if_neg nofun, Traced.outcome_bind] at failed
    rcases bind_eq_error_iff.mp failed with failed | ⟨value, -, failed⟩
    · unfold calculateFilling at failed
      rw [result] at failed
      rw [outcome_calculate, show (calculate settings true true filled).outcome = _ from failed]
    · exact absurd failed (decide_ne_formula _ _ _ _ _ _ _)
  -- A call does not close, and then no calculation succeeds.
  · obtain ⟨strategy, -, fills⟩ := fill_eq_ok some ran
    refine calculate_unparsed settings true fun tree parsed => opened ?_
    rw [← nestedAlike_fillUnder fills result 0, balanced_of_parse parsed 0]

theorem tooLarge_of_mistake {settings : Settings} {error : FormulaError} {failure : Failure}
    (failed : (formulaValue settings inputs true formula).outcome = .error (.formula error))
    (ran : (fill settings inputs false formula).outcome = .error failure)
    (some : formula.isEmpty = false) : OnlyTooLarge inputs failure := by
  rcases fill_relents settings inputs formula with same | ⟨-, mistake, strict⟩
  · rw [formulaValue_bind, Traced.outcome_bind, same, ran] at failed
    have same : failure = .formula error := Except.error.inj failed
    exact absurd (same ▸ ran) (fill_ne_mistake settings inputs formula error)
  · unfold fill at ran strict
    rw [some, if_neg Bool.false_ne_true, Traced.outcome_bind] at ran strict
    rcases bind_eq_error_iff.mp strict with unknown | ⟨strategy, chosen, -⟩
    · exact absurd unknown strategy_ne_formula
    · rw [chosen] at ran
      have returns := fillUnder_returns strategy inputs formula
      rwa [show (fillUnder strategy inputs false formula).outcome =
        .error failure from ran] at returns

theorem formulaValue_relents (settings : Settings) (inputs : Inputs) (formula : Text) :
    Relents True (formulaValue settings inputs true formula)
      (formulaValue settings inputs false formula) := by
  rw [formulaValue_bind, formulaValue_bind]
  refine ((fill_relents settings inputs formula).mono fun _ => trivial).bind fun filling _ => ?_
  split
  · exact .refl _
  · exact ((calculateFilling_relents settings filling).mono fun _ => trivial).bind
      fun _ _ => .refl _

/-- Reading leniently is reading strictly with mistakes turned into zero. A value that is read
strictly is read leniently as well. Where a mistake makes strict reading fail, the value that is
read leniently is zero, or missing if filling in the formula is skipped, unless a number is supplied
that is too large to be written. A formula with a call that does not close is never filled in to a
text that is parsed. -/
theorem formulaValue_lenient (settings : Settings) (inputs : Inputs) (formula : Text) :
    (∀ value, (formulaValue settings inputs true formula).outcome = .ok value →
        (formulaValue settings inputs false formula).outcome = .ok value) ∧
      (∀ error, (formulaValue settings inputs true formula).outcome = .error (.formula error) →
        (∃ filling, (fill settings inputs false formula).outcome = .ok filling ∧
            (formulaValue settings inputs false formula).outcome =
              .ok (if filling.result = .skipped then none else some (.zero false))) ∨
          (formulaValue settings inputs false formula).outcome = .error (.fault .overflow) ∧
            ¬ inputs.Written) ∧
      ∀ functions head, .unclosed head ∈ CallPiece.ofText functions formula →
        ∀ filling filled, (fill settings inputs false formula).outcome = .ok filling →
          filling.result = .text filled → ∀ tree, Expr.parse filled ≠ .ok tree := by
  refine ⟨fun value ran => (formulaValue_relents settings inputs formula).ok ran,
    fun error failed => ?_, ?_⟩
  · have some : formula.isEmpty = false := by
      cases formula with
      | nil =>
        rw [formulaValue_bind, fill, List.isEmpty_nil, if_pos rfl] at failed
        exact absurd failed (decide_ne_formula _ _ _ _ _ _ _)
      | cons => rfl
    cases ran : (fill settings inputs false formula).outcome with
    | ok filling =>
      exact .inl ⟨filling, rfl, formulaValue_zero some ran (zero_of_mistake failed ran some)⟩
    | error failure =>
      obtain ⟨rfl, tooLarge⟩ := tooLarge_of_mistake failed ran some
      refine .inr ⟨?_, tooLarge⟩
      rw [formulaValue_bind, Traced.outcome_bind, ran]
      rfl
  · intro functions head unclosed filling filled ran result
    have some : formula.isEmpty = false := by
      cases formula with
      | nil => simp [CallPiece.ofText, CallPiece.ofTextFrom] at unclosed
      | cons => rfl
    obtain ⟨strategy, -, fills⟩ := fill_eq_ok some ran
    exact parse_ne_ok_of_unclosed unclosed fills result

/-- A number of days that is too large to be written fails leniently where strict reading only finds
a mistake. -/
theorem formulaValue_lenient_days :
    (formulaValue {} { days := some (.int (10 ^ 400)) } true "SUM([days]".toList).outcome =
        .error (.formula (.unclosedCall 4 "SUM([days]".toList)) ∧
      (formulaValue {} { days := some (.int (10 ^ 400)) } false "SUM([days]".toList).outcome =
        .error (.fault .overflow) := by
  decide +kernel

end IndicatorFormula
