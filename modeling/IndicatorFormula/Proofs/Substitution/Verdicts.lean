import IndicatorFormula.Proofs.Expression.Shape
import IndicatorFormula.Proofs.Substitution.Extraction
import IndicatorFormula.Proofs.Substitution.Seams

/-! How the verdicts on one formula go together.

Validation rules, predictors and indicators have the same references looked up. Predictors are
evaluated with more functions than validation rules, which can only mend a defect, and indicators
need a description besides. -/

set_option autoImplicit false
namespace IndicatorFormula

namespace Expr

/-- An outcome that is a defect, or else the other one. -/
def Extends {α : Type} (x y : Except Breakdown α) : Prop :=
  (∃ defect, x = .error (.defect defect)) ∨ x = y

theorem Extends.refl {α : Type} (x : Except Breakdown α) : Extends x x :=
  .inr rfl

theorem Extends.bind {α β : Type} {x y : Except Breakdown α} {next next' : α → Except Breakdown β}
    (first : Extends x y) (rest : ∀ value, Extends (next value) (next' value)) :
    Extends (x >>= next) (y >>= next') := by
  rcases first with ⟨defect, rfl⟩ | rfl
  · exact .inl ⟨defect, rfl⟩
  · cases x with
    | error breakdown => exact .inr rfl
    | ok value => exact rest value

variable {environment : Environment} {more : List Builtin}

mutual

/-- More functions change the outcome only where it was a defect. -/
theorem eval_extends
    (known : ∀ name function, Builtin.ofName? environment.functions name = some function →
      Builtin.ofName? more name = some function) :
    (expression : Expr) →
      Extends (expression.eval environment) (expression.eval { environment with functions := more })
  | .number value | .boolean value => .refl _
  | .variable name position => .refl _
  | .list items => .bind (evalAll_extends known items) fun _ => .refl _
  | .unary operator position operand => .bind (eval_extends known operand) fun _ => .refl _
  | .binary operator position left right =>
    .bind (eval_extends known left) fun _ => .bind (eval_extends known right) fun _ => .refl _
  | .call name position arguments => by
    unfold eval
    cases found : Builtin.ofName? environment.functions name with
    | none => exact .inl ⟨_, rfl⟩
    | some function =>
      rw [known name function found]
      exact .bind (evalAll_extends known arguments) fun _ => .refl _

theorem evalAll_extends
    (known : ∀ name function, Builtin.ofName? environment.functions name = some function →
      Builtin.ofName? more name = some function) :
    (expressions : List Expr) →
      Extends (evalAll environment expressions)
        (evalAll { environment with functions := more } expressions)
  | [] => .refl _
  | expression :: rest =>
    .bind (eval_extends known expression)
      fun _ => .bind (evalAll_extends known rest) fun _ => .refl _

end

end Expr

theorem evaluate_extends {functions more : List Builtin}
    (known : ∀ name function, Builtin.ofName? functions name = some function →
      Builtin.ofName? more name = some function) (expression : Text) :
    Expr.Extends (evaluate functions expression) (evaluate more expression) :=
  .bind (.refl _) fun tree => tree.eval_extends known

theorem hasErrors_aggregates (expression : Text) :
    hasErrors false expression = .ok true ∨
      hasErrors true expression = hasErrors false expression := by
  rcases evaluate_extends (fun name function found => (Expr.ofName?_all found).2) expression
    with ⟨defect, failed⟩ | same
  · refine .inl ?_
    unfold hasErrors calculate
    rw [show evaluate (allowedFunctions false) expression = _ from failed]
    rfl
  · refine .inr ?_
    unfold hasErrors calculate
    rw [show evaluate (allowedFunctions false) expression =
      evaluate (allowedFunctions true) expression from same]

variable {catalog : Catalog} {formula : Text} {outcome : ValidationOutcome}

def arithmeticOutcome (allowAggregates : Bool) (formula : Text) :
    Except Failure ValidationOutcome :=
  (hasErrors allowAggregates (placeholderText formula)).map
    fun errors => if errors then .notWellFormed else .valid

theorem outcome_validate (catalog : Catalog) (formula : Text) :
    (∃ outcome, (outcome = .empty ∨ objection? catalog formula = some outcome) ∧
        ∀ allowAggregates, (validate catalog allowAggregates formula).map Verdict.outcome =
          .ok outcome) ∨
      ∀ allowAggregates, (validate catalog allowAggregates formula).map Verdict.outcome =
        arithmeticOutcome allowAggregates formula := by
  by_cases empty : formula = []
  · exact .inl ⟨.empty, .inl rfl, fun _ => by rw [empty]; rfl⟩
  have some : ¬ formula.isEmpty = true := by simpa using empty
  cases found : objection? catalog formula with
  | some objection =>
    exact .inl ⟨objection, .inr rfl, fun _ => by rw [validate, if_neg some, found]; rfl⟩
  | none =>
    refine .inr fun allowAggregates => ?_
    rw [validate, if_neg some, found, arithmeticOutcome]
    cases ran : hasErrors allowAggregates (placeholderText formula) <;> simp only [ran] <;> rfl

theorem validateRule_eq (catalog : Catalog) (formula : Text) :
    validateRule catalog formula = (validate catalog false formula).map Verdict.outcome := by
  unfold validateRule
  cases validate catalog false formula <;> rfl

theorem validatePredictor_eq (catalog : Catalog) (formula : Text) :
    validatePredictor catalog formula = (validate catalog true formula).map Verdict.outcome := by
  unfold validatePredictor
  cases validate catalog true formula <;> rfl

theorem arithmeticOutcome_cases {allowAggregates : Bool}
    (ran : arithmeticOutcome allowAggregates formula = .ok outcome) :
    outcome = .valid ∨ outcome = .notWellFormed := by
  unfold arithmeticOutcome at ran
  cases checked : hasErrors allowAggregates (placeholderText formula) with
  | error failure =>
    rw [checked] at ran
    cases ran
  | ok errors =>
    rw [checked] at ran
    cases ran
    cases errors
    · exact .inl rfl
    · exact .inr rfl

/-- Predictors have the verdicts of validation rules, except for what aggregate functions may
mend. -/
theorem validatePredictor_cases (catalog : Catalog) (formula : Text) :
    validatePredictor catalog formula = validateRule catalog formula ∨
      (validateRule catalog formula = .ok .notWellFormed ∧
        ∀ outcome, validatePredictor catalog formula = .ok outcome →
          outcome = .valid ∨ outcome = .notWellFormed) := by
  rw [validateRule_eq, validatePredictor_eq]
  rcases outcome_validate catalog formula with ⟨outcome, -, decided⟩ | decided
  · exact .inl ((decided true).trans (decided false).symm)
  rw [decided, decided]
  rcases hasErrors_aggregates (placeholderText formula) with failed | same
  · refine .inr ⟨?_, fun outcome ran => arithmeticOutcome_cases ran⟩
    rw [arithmeticOutcome, failed]
    rfl
  · refine .inl ?_
    rw [arithmeticOutcome, arithmeticOutcome, same]

theorem describeReference_eq_ok_iff {reference : Reference} {text : Text} :
    describeReference catalog reference = .ok text ↔
      ∃ object, catalog.resolveReference reference = .ok object ∧
        references object.displayName = [] ∧ object.displayName = text := by
  unfold describeReference
  split
  · rename_i error failed
    simp [failed]
  · rename_i object resolved
    split
    · rename_i none
      simp [resolved, List.isEmpty_iff.mp none]
    · rename_i some
      simp [resolved, show references object.displayName ≠ [] by simpa using some]

theorem describe_isOk_iff :
    (∃ description, describe catalog formula = .ok description) ↔
      ∀ reference ∈ references formula, ∃ object, catalog.resolveReference reference = .ok object ∧
        references object.displayName = [] := by
  constructor
  · rintro ⟨description, described⟩ reference member
    obtain ⟨name, read⟩ := exists_name_of_describe described member
    obtain ⟨object, resolved, plain, -⟩ := describeReference_eq_ok_iff.mp read
    exact ⟨object, resolved, plain⟩
  · intro each
    have names : ∀ reference, ∃ name, reference ∈ references formula →
        describeReference catalog reference = .ok name := by
      intro reference
      by_cases member : reference ∈ references formula
      · obtain ⟨object, resolved, plain⟩ := each reference member
        exact ⟨_, fun _ => describeReference_eq_ok_iff.mpr ⟨object, resolved, plain, rfl⟩⟩
      · exact ⟨[], fun within => absurd within member⟩
    obtain ⟨name, read⟩ := Classical.axiomOfChoice names
    have pieces : (Piece.ofText formula).mapM (describePiece catalog) = _ :=
      Piece.mapM_filled (fun _ => rfl) fun reference member =>
        read reference (Piece.mem_references_iff.mpr member)
    exact ⟨_, by rw [describe, pieces]; rfl⟩

theorem validateIndicator_of_describe {description : Text}
    (described : describe catalog formula = .ok description) :
    validateIndicator catalog formula = validateRule catalog formula := by
  rw [validateIndicator, described]

theorem validateIndicator_valid_iff : validateIndicator catalog formula = .ok .valid ↔
    validateRule catalog formula = .ok .valid ∧ ∀ reference ∈ references formula, ∀ object,
      catalog.resolveReference reference = .ok object → references object.displayName = [] := by
  cases described : describe catalog formula with
  | error error =>
    refine iff_of_false (fun valid => ?_) fun ⟨valid, plain⟩ => ?_
    · rw [validateIndicator, described] at valid
      cases valid
    · have resolves := objection?_eq_none_iff.mp (accepted_of_validateRule valid).value.2.1
      obtain ⟨description, described'⟩ := describe_isOk_iff.mpr fun reference member =>
        (resolves reference member).imp
          fun object resolved => ⟨resolved, plain reference member object resolved⟩
      rw [described] at described'
      cases described'
  | ok description =>
    rw [validateIndicator_of_describe described]
    refine (and_iff_left fun reference member object resolved => ?_).symm
    obtain ⟨other, resolved', plain⟩ := describe_isOk_iff.mp ⟨_, described⟩ reference member
    cases resolved.symm.trans resolved'
    exact plain

theorem validateIndicator_cases (ran : validateIndicator catalog formula = .ok outcome) :
    outcome = .empty ∨ outcome = .valid ∨ outcome = .notWellFormed := by
  cases described : describe catalog formula with
  | error error =>
    rw [validateIndicator, described] at ran
    cases ran
    exact .inr (.inr rfl)
  | ok description =>
    rw [validateIndicator_of_describe described, validateRule_eq] at ran
    rcases outcome_validate catalog formula with ⟨other, reason, decided⟩ | decided
    · cases (decided false).symm.trans ran
      refine .inl (reason.resolve_right fun found => ?_)
      have none := objection?_eq_none_iff.mpr fun reference member =>
        (describe_isOk_iff.mp ⟨_, described⟩ reference member).imp fun _ resolved => resolved.1
      rw [none] at found
      cases found
    · exact .inr (arithmeticOutcome_cases ((decided false).symm.trans ran))

/-- The verdicts on a formula agree. An indicator is valid exactly if a validation rule is, provided
that no object that it refers to has a name with a reference in it, and it is never found that
something is missing. A predictor has the outcome of a validation rule unless that is ill-formed,
and a validation rule has that of a predictor unless this is valid. -/
theorem verdicts_agree (catalog : Catalog) (formula : Text) :
    (validateIndicator catalog formula = .ok .valid ↔ validateRule catalog formula = .ok .valid ∧
      ∀ reference ∈ references formula, ∀ object, catalog.resolveReference reference = .ok object →
        references object.displayName = []) ∧
    (∀ outcome, validateIndicator catalog formula = .ok outcome →
      outcome ∉ [.itemMissing, .constantMissing, .orgUnitGroupMissing]) ∧
    (∀ outcome, validateRule catalog formula = .ok outcome → outcome ≠ .notWellFormed →
      validatePredictor catalog formula = .ok outcome) ∧
    ∀ outcome, validatePredictor catalog formula = .ok outcome → outcome ≠ .valid →
      validateRule catalog formula = .ok outcome := by
  refine ⟨validateIndicator_valid_iff, fun outcome ran => ?_, fun outcome ran sound => ?_,
    fun outcome ran bad => ?_⟩
  · rcases validateIndicator_cases ran with rfl | rfl | rfl <;> decide
  · rcases validatePredictor_cases catalog formula with same | ⟨failed, -⟩
    · exact same.trans ran
    · cases ran.symm.trans failed
      exact absurd rfl sound
  · rcases validatePredictor_cases catalog formula with same | ⟨failed, cases⟩
    · exact same.symm.trans ran
    · rw [(cases outcome ran).resolve_left bad]
      exact failed

theorem verdicts_agree_misleading :
    validateRule { dataElements := [⟨['a'], "#{b}".toList⟩] } "SQRT(#{a})".toList = .ok .valid ∧
      validatePredictor { dataElements := [⟨['a'], "#{b}".toList⟩] } "SQRT(#{a})".toList =
        .ok .valid ∧
      validateIndicator { dataElements := [⟨['a'], "#{b}".toList⟩] } "SQRT(#{a})".toList ≠
        .ok .valid := by
  have rule : validateRule { dataElements := [⟨['a'], "#{b}".toList⟩] } "SQRT(#{a})".toList =
      .ok .valid := by
    decide +kernel
  refine ⟨rule, (verdicts_agree _ _).2.2.1 _ rule (by decide), fun valid => ?_⟩
  have plain := ((verdicts_agree _ _).1.mp valid).2 ⟨.dataElementOperand, [['a']]⟩
    (by decide +kernel) (.item (.dataElement ⟨['a'], "#{b}".toList⟩)) (by decide +kernel)
  exact absurd plain (by decide +kernel)

-- Aggregate functions are what a predictor may call and a validation rule may not.
example : validatePredictor {} "SUM(1, 2)".toList = .ok .valid ∧
    validateRule {} "SUM(1, 2)".toList = .ok .notWellFormed := by
  decide +kernel

end IndicatorFormula
