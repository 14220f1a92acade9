import IndicatorFormula.Proofs.Expression.Faults

/-! What calculation comes to.

A calculation returns a finite number or none, or refuses an expression that is not well-formed, or
fails. It fails exactly for the expressions that evaluation breaks down on and for those with a huge
integer as their value. -/

set_option autoImplicit false
namespace IndicatorFormula

/-- An expression is well-formed, but evaluation comes to an operation without a result or to a huge
integer. -/
def Unsettled (functions : List Builtin) (expression : Text) (fault : Fault) : Prop :=
  ∃ tree, Expr.parse expression = .ok tree ∧
    (tree.Breaks { functions } fault ∨
      fault = .overflow ∧ ∃ x, tree.eval { functions } = .ok (.number x) ∧ x.IsHuge)

theorem unbound_present (functions : List Builtin) (name : Text) :
    ∀ value ∈ ({ functions } : Environment).bindings name, value.Present :=
  fun _ found => nomatch found

theorem evaluate_eq_fault_iff {functions : List Builtin} {expression : Text} {fault : Fault} :
    evaluate functions expression = .error (.fault fault) ↔
      ∃ tree, Expr.parse expression = .ok tree ∧ tree.Breaks { functions } fault := by
  unfold evaluate
  cases parsed : Expr.parse expression with
  | error defect =>
    exact iff_of_false (fun failed => nomatch failed) fun ⟨_, impossible, _⟩ => nomatch impossible
  | ok tree =>
    change tree.eval { functions } = _ ↔ _
    rw [Expr.eval_eq_fault_iff (unbound_present functions)]
    simp

theorem evaluate_eq_ok_iff {functions : List Builtin} {expression : Text} {value : Value} :
    evaluate functions expression = .ok value ↔
      ∃ tree, Expr.parse expression = .ok tree ∧ tree.eval { functions } = .ok value := by
  unfold evaluate
  cases parsed : Expr.parse expression with
  | error defect =>
    exact iff_of_false (fun failed => nomatch failed) fun ⟨_, impossible, _⟩ => nomatch impossible
  | ok tree =>
    change tree.eval { functions } = _ ↔ _
    simp

theorem evaluate_present {functions : List Builtin} {expression : Text} {value : Value}
    (evaluated : evaluate functions expression = .ok value) : value.Present := by
  obtain ⟨tree, _, evaluated⟩ := evaluate_eq_ok_iff.mp evaluated
  exact (Expr.eval_present (unbound_present functions) tree).of_ok evaluated

/-- What a calculation that does not fail comes to: a finite number or none, or a refusal where it
is strict. -/
def Settled (strict : Bool) (outcome : Except Failure (Option Double)) : Prop :=
  (∃ result, outcome = .ok result ∧ ∀ x ∈ result, x.isFinite = true) ∨
    (strict = true ∧ ∃ error, outcome = .error (.formula error))

theorem settled_zero (strict : Bool) : Settled strict (.ok (some (Double.zero false))) :=
  .inl ⟨_, rfl, fun _ found => by cases found; rfl⟩

theorem settled_finite? (strict : Bool) (x : Double) : Settled strict (.ok x.finite?) := by
  refine .inl ⟨_, rfl, fun y found => ?_⟩
  unfold Double.finite? at found
  split at found
  · rename_i finite
    cases found
    exact finite
  · cases found

theorem settled_passOver (strict : Bool) (error : FormulaError) :
    Settled strict
      (do Traced.passOver strict error
          return some (Double.zero false) : Traced (Option Double)).outcome := by
  cases strict with
  | true => exact .inr ⟨rfl, error, rfl⟩
  | false => exact settled_zero false

theorem unsettled_iff {functions : List Builtin} {expression : Text} {fault : Fault} :
    Unsettled functions expression fault ↔ evaluate functions expression = .error (.fault fault) ∨
      fault = .overflow ∧ ∃ x, evaluate functions expression = .ok (.number x) ∧ x.IsHuge := by
  simp only [evaluate_eq_fault_iff, evaluate_eq_ok_iff, Unsettled]
  constructor
  · rintro ⟨tree, parsed, breaks | ⟨rfl, x, evaluated, huge⟩⟩
    · exact .inl ⟨tree, parsed, breaks⟩
    · exact .inr ⟨rfl, x, ⟨tree, parsed, evaluated⟩, huge⟩
  · rintro (⟨tree, parsed, breaks⟩ | ⟨rfl, x, ⟨tree, parsed, evaluated⟩, huge⟩)
    · exact ⟨tree, parsed, .inl breaks⟩
    · exact ⟨tree, parsed, .inr ⟨rfl, x, evaluated, huge⟩⟩

/-- A calculation settles unless its expression is unsettled, and then it fails. -/
theorem calculate_cases (settings : Settings) (strict allowAggregates : Bool) (expression : Text) :
    (Settled strict (calculate settings strict allowAggregates expression).outcome ∧
        ∀ fault, ¬Unsettled (allowedFunctions allowAggregates) expression fault) ∨
      ∃ fault, (calculate settings strict allowAggregates expression).outcome =
          .error (.fault fault) ∧
        Unsettled (allowedFunctions allowAggregates) expression fault := by
  simp only [unsettled_iff]
  unfold calculate
  cases evaluated : evaluate (allowedFunctions allowAggregates) expression with
  | error breakdown =>
    cases breakdown with
    | fault fault => exact .inr ⟨fault, rfl, .inl rfl⟩
    | defect defect =>
      refine .inl ⟨?_, fun fault => by simp⟩
      dsimp only
      split
      · exact settled_passOver strict _
      · exact settled_zero strict
  | ok value =>
    have present := evaluate_present evaluated
    cases present with
    | list each => exact .inl ⟨settled_passOver strict _, fun fault => by simp⟩
    | undefined mark => exact .inl ⟨settled_finite? strict .nan, fun fault => by simp⟩
    | number x =>
      change (_ ∧ ∀ fault, ¬(_ ∨ _ ∧ _)) ∨
        ∃ fault, (Traced.ofExcept (x.toDouble.mapError Failure.fault) >>=
              fun result => (pure result.finite? : Traced (Option Double))).outcome = _ ∧ _
      change (Settled strict (Traced.ofExcept (x.toDouble.mapError Failure.fault) >>=
        fun result => (pure result.finite? : Traced (Option Double))).outcome ∧ _) ∨ _
      rcases x.toDouble_cases with ⟨converted, huge⟩ | ⟨result, converted, small⟩
      · rw [converted]
        exact .inr ⟨.overflow, rfl, .inr ⟨rfl, x, rfl, huge⟩⟩
      · rw [converted]
        refine .inl ⟨settled_finite? strict result, ?_⟩
        rintro fault (impossible | ⟨-, y, same, huge⟩)
        · cases impossible
        · cases same
          exact small huge

theorem hasErrors_eq_ok_iff {allowAggregates : Bool} {expression : Text} :
    (∃ answer, hasErrors allowAggregates expression = .ok answer) ↔
      Settled true (calculate {} true allowAggregates expression).outcome := by
  unfold hasErrors
  rcases calculate_cases {} true allowAggregates expression with ⟨settled, _⟩ | ⟨fault, failed, _⟩
  · refine iff_of_true ?_ settled
    rcases settled with ⟨result, returned, _⟩ | ⟨_, error, refused⟩
    · exact ⟨false, by rw [returned]⟩
    · exact ⟨true, by rw [refused]⟩
  · rw [failed]
    refine iff_of_false (fun ⟨_, impossible⟩ => nomatch impossible) ?_
    rintro (⟨_, impossible, _⟩ | ⟨_, _, impossible⟩)
    · cases impossible
    · cases impossible

/-- Calculation settles, lenient or strict, and so does the question whether an expression is
well-formed, exactly if the expression is not unsettled. Division by zero and arguments outside the
domain of a function are settled: they give infinities and undefined numbers, except that a huge
integer cannot be divided by zero. -/
theorem calculate_settles_iff (allowAggregates : Bool) (expression : Text) :
    (((∀ settings, Settled false (calculate settings false allowAggregates expression).outcome) ∧
          (∀ settings, Settled true (calculate settings true allowAggregates expression).outcome) ∧
          ∃ answer, hasErrors allowAggregates expression = .ok answer) ↔
        ∀ fault, ¬Unsettled (allowedFunctions allowAggregates) expression fault) ∧
      (∀ position a b x y, Value.toNumber a = .ok x → Value.toNumber b = .ok y → y.isZero = true →
        (∃ value, Expr.applyBinary .mod position a b = .ok value ∧
            value.toNumber = .ok (.double .nan)) ∧
          (¬x.IsHuge →
            ∃ value result, Expr.applyBinary .div position a b = .ok value ∧
              value.toNumber = .ok (.double result) ∧ result.isFinite = false)) ∧
      (∀ function name position arguments, Builtin.apply function arguments = .error .domain →
        Expr.applyFunction function name position arguments = .ok .nan) := by
  refine ⟨?_, ?_, ?_⟩
  · rw [hasErrors_eq_ok_iff]
    constructor
    · rintro ⟨lenient, -, -⟩ fault unsettled
      rcases calculate_cases {} false allowAggregates expression
        with ⟨_, settled⟩ | ⟨fault', failed, _⟩
      · exact settled fault unsettled
      · rcases lenient {} with ⟨_, returned, _⟩ | ⟨impossible, _⟩
        · rw [failed] at returned
          cases returned
        · cases impossible
    · intro settled
      have settles : ∀ settings strict, Settled strict
          (calculate settings strict allowAggregates expression).outcome := by
        intro settings strict
        rcases calculate_cases settings strict allowAggregates expression
          with ⟨done, _⟩ | ⟨fault, _, unsettled⟩
        · exact done
        · exact absurd unsettled (settled fault)
      exact ⟨fun settings => settles settings false, fun settings => settles settings true,
        settles {} true⟩
  · intro position a b x y left right zero
    have single : ∀ {value : Value} {number : Number}, value.toNumber = .ok number →
        value.isList = false := by
      intro value number found
      cases value <;> first | rfl | cases found
    have plain : ∀ operator, Expr.applyBinary operator position a b =
        (Expr.applyArithmetic operator a b).mapError .fault := fun operator => by
      rw [Expr.applyBinary, single left, single right, if_neg (by simp)]
    refine ⟨⟨.nan, ?_, rfl⟩, fun small => ?_⟩
    · rw [plain, Expr.applyArithmetic, Value.mod_of_isZero right zero]
      rfl
    · obtain ⟨value, result, divided, number, infinite⟩ := Value.div_of_isZero left right zero small
      refine ⟨value, result, ?_, number, infinite⟩
      rw [plain, Expr.applyArithmetic, divided]
      rfl
  · intro function name position arguments outside
    rw [Expr.applyFunction, outside]

/-- The remainder of an infinity is not settled: lenient calculation fails with it. -/
theorem calculate_remainder_of_infinity :
    ¬Settled false
      (calculate {} false true ['1', 'e', '9', '9', '9', ' ', '%', ' ', '2']).outcome := by
  have fails : (calculate {} false true ['1', 'e', '9', '9', '9', ' ', '%', ' ', '2']).outcome =
      .error (.fault .domain) := by decide +kernel
  rw [fails]
  rintro (⟨_, impossible, _⟩ | ⟨impossible, _⟩)
  · cases impossible
  · cases impossible

end IndicatorFormula
