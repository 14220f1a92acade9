import IndicatorFormula.Calculation
import IndicatorFormula.Proofs.Expression.Builtin

/-! Where evaluation fails.

An expression that is well-formed fails only where one of its operators has no result for its
operands, or where the standard deviation is taken of samples that are not all finite. Every other
calculation returns a finite number or none, or refuses an expression that is not well-formed. -/

set_option autoImplicit false
namespace IndicatorFormula.Expr

/-- Evaluation comes to an operation without a result, and everything before it has a value. -/
inductive Breaks (environment : Environment) (fault : Fault) : Expr → Prop where
  | item {before after : List Expr} {expression : Expr} {values : List Value}
      (evaluated : evalAll environment before = .ok values)
      (breaks : Breaks environment fault expression) :
      Breaks environment fault (.list (before ++ expression :: after))
  | operand {operator : UnaryOperator} {position : Nat} {operand : Expr}
      (breaks : Breaks environment fault operand) :
      Breaks environment fault (.unary operator position operand)
  | left {operator : BinaryOperator} {position : Nat} {left right : Expr}
      (breaks : Breaks environment fault left) :
      Breaks environment fault (.binary operator position left right)
  | right {operator : BinaryOperator} {position : Nat} {left right : Expr} {value : Value}
      (evaluated : eval environment left = .ok value) (breaks : Breaks environment fault right) :
      Breaks environment fault (.binary operator position left right)
  | operator {operator : BinaryOperator} {position : Nat} {left right : Expr} {a b : Value}
      {x y : Number} (leftValue : eval environment left = .ok a)
      (rightValue : eval environment right = .ok b) (leftNumber : a.toNumber = .ok x)
      (rightNumber : b.toNumber = .ok y) (fails : operator.Fails x y fault) :
      Breaks environment fault (.binary operator position left right)
  | argument {name : Text} {position : Nat} {function : Builtin} {before after : List Expr}
      {expression : Expr} {values : List Value}
      (known : Builtin.ofName? environment.functions name = some function)
      (evaluated : evalAll environment before = .ok values)
      (breaks : Breaks environment fault expression) :
      Breaks environment fault (.call name position (before ++ expression :: after))
  | spread {name : Text} {position : Nat} {arguments : List Expr} {values : List Value}
      {numbers : List Number} {sample : Double} (isSpread : fault = .spread)
      (known : Builtin.ofName? environment.functions name = some .stddev)
      (evaluated : evalAll environment arguments = .ok values)
      (several : 2 ≤ (Builtin.samples values).length)
      (numeric : (Builtin.samples values).mapM Value.toNumber = .ok numbers)
      (inside : .double sample ∈ numbers) (infinite : sample.isFinite = false) :
      Breaks environment fault (.call name position arguments)

variable {environment : Environment}

theorem applyUnary_numeric {operator : UnaryOperator} {operand : Value}
    (present : operand.Present) :
    Returns Value.IsNumeric (fun breakdown => ∃ defect, breakdown = .defect defect)
      (applyUnary operator operand) := by
  cases operator with
  | not => exact ⟨_, rfl⟩
  | minus =>
    cases present with
    | list each => exact ⟨_, rfl⟩
    | _ => exact ⟨_, rfl⟩
  | plus =>
    cases present with
    | list each => exact ⟨_, rfl⟩
    | _ => exact ⟨_, rfl⟩

theorem applyArithmetic_numeric (operator : BinaryOperator) (a b : Value) :
    Returns Value.IsNumeric (fun _ => True) (applyArithmetic operator a b) := by
  have arithmetic : ∀ operation, Returns Value.IsNumeric (fun _ : Fault => True)
      (Value.arithmetic operation a b) := by
    intro operation
    refine Returns.bind (Returns.any _) fun x _ => ?_
    refine Returns.bind (Returns.any _) fun y _ => ?_
    exact Returns.bind (Returns.any _) fun z _ => ⟨z, rfl⟩
  have compare : ∀ order, Returns Value.IsNumeric (fun _ : Fault => True) (a.compare order b) := by
    intro order
    refine Returns.bind (Returns.any _) fun x _ => ?_
    exact Returns.bind (Returns.any _) fun y _ => ⟨_, rfl⟩
  cases operator with
  | or | and | eq | ne => exact ⟨_, rfl⟩
  | gt | lt | ge | le => exact compare _
  | add | sub | mul => exact arithmetic _
  | div => exact (Builtin.div_settles a b).forget
  | mod =>
    simp only [applyArithmetic, Value.mod]
    split
    · exact ⟨_, rfl⟩
    · refine Returns.bind (Returns.any _) fun x _ => ?_
      refine Returns.bind (Returns.any _) fun y _ => ?_
      refine Returns.bind (Returns.any _) fun z _ => ?_
      exact Returns.bind (Returns.any _) fun result _ => ⟨result, rfl⟩
  | pow =>
    refine Returns.bind (Returns.any _) fun base _ => ?_
    split
    · exact ⟨_, rfl⟩
    · refine Returns.bind (Returns.any _) fun exponent _ => ?_
      dsimp only
      split
      · exact ⟨_, rfl⟩
      · exact ⟨_, rfl⟩

theorem applyBinary_numeric (operator : BinaryOperator) (position : Nat) (a b : Value) :
    Returns Value.IsNumeric (fun _ => True) (applyBinary operator position a b) := by
  unfold applyBinary
  split
  · trivial
  · exact (applyArithmetic_numeric operator a b).mapError _ fun _ _ => trivial

theorem applyFunction_present (function : Builtin) (name : Text) (position : Nat)
    {arguments : List Value} (each : ∀ argument ∈ arguments, argument.Present) :
    Returns Value.Present (fun _ => True) (applyFunction function name position arguments) := by
  have present := Builtin.apply_present function each
  unfold applyFunction
  split
  · exact present.of_ok ‹_›
  · trivial
  · exact .undefined 0
  · exact .undefined 0
  · trivial

mutual

theorem eval_present (bound : ∀ name, ∀ value ∈ environment.bindings name, value.Present) :
    ∀ expression, Returns Value.Present (fun _ => True) (eval environment expression)
  | .number _ => .number _
  | .boolean _ => .number _
  | .variable name position => by
    unfold eval
    split
    · rename_i value found
      exact bound name value found
    · trivial
  | .list items => Returns.bind (evalAll_present bound items) fun _ each => .list each
  | .unary _ _ operand =>
    Returns.bind (eval_present bound operand) fun _ present =>
      (applyUnary_numeric present).forget.mono fun _ numeric => numeric.present
  | .binary operator position left right =>
    Returns.bind (eval_present bound left) fun a _ =>
      Returns.bind (eval_present bound right) fun b _ =>
        (applyBinary_numeric operator position a b).mono fun _ numeric => numeric.present
  | .call name position arguments => by
    unfold eval
    split
    · trivial
    · rename_i function known
      exact Returns.bind (evalAll_present bound arguments)
        fun _ each => applyFunction_present function name position each

theorem evalAll_present (bound : ∀ name, ∀ value ∈ environment.bindings name, value.Present) :
    ∀ expressions, Returns (fun values => ∀ value ∈ values, value.Present) (fun _ => True)
      (evalAll environment expressions)
  | [] => fun _ member => absurd member List.not_mem_nil
  | expression :: rest =>
    Returns.bind (eval_present bound expression) fun value present =>
      Returns.bind (evalAll_present bound rest) fun values each => by
        intro other member
        rcases List.mem_cons.mp member with rfl | member
        · exact present
        · exact each other member

end

/-- An operator between present operands fails exactly for the numbers that it has no result for. -/
theorem applyBinary_eq_fault_iff {operator : BinaryOperator} {position : Nat} {a b : Value}
    {fault : Fault} (left : a.Present) (right : b.Present) :
    applyBinary operator position a b = .error (.fault fault) ↔
      ∃ x y, a.toNumber = .ok x ∧ b.toNumber = .ok y ∧ operator.Fails x y fault := by
  have wrapped : ∀ result : Except Fault Value,
      result.mapError Breakdown.fault = .error (.fault fault) ↔ result = .error fault := by
    intro result
    cases result <;> simp
  unfold applyBinary
  -- Lists are refused before anything is computed, except by operators that never fail.
  by_cases single : a.isList = false ∧ b.isList = false
  · obtain ⟨x, leftNumber⟩ := left.isNumeric single.1
    obtain ⟨y, rightNumber⟩ := right.isNumeric single.2
    rw [single.1, single.2, if_neg (by simp), wrapped,
      applyArithmetic_eq_error_iff leftNumber rightNumber]
    constructor
    · exact fun fails => ⟨x, y, leftNumber, rightNumber, fails⟩
    · rintro ⟨x', y', leftNumber', rightNumber', fails⟩
      rw [leftNumber] at leftNumber'
      rw [rightNumber] at rightNumber'
      cases leftNumber'
      cases rightNumber'
      exact fails
  · refine iff_of_false (fun failed => ?_) fun ⟨x, y, leftNumber, rightNumber, _⟩ => single ⟨?_, ?_⟩
    · split at failed
      · cases failed
      · rename_i logical
        rw [wrapped] at failed
        have lists : (a.isList || b.isList) = true := by
          by_contra none
          rw [Bool.not_eq_true, Bool.or_eq_false_iff] at none
          exact single none
        rw [lists] at logical
        cases operator <;> first | cases failed | exact absurd rfl logical
    · cases a <;> first | rfl | cases leftNumber
    · cases b <;> first | rfl | cases rightNumber

theorem applyFunction_eq_fault_iff {function : Builtin} {name : Text} {position : Nat}
    {arguments : List Value} {fault : Fault} :
    applyFunction function name position arguments = .error (.fault fault) ↔
      fault = .spread ∧ function.apply arguments = .error .spread := by
  cases applied : function.apply arguments with
  | ok value => simp [applyFunction, applied]
  | error other => cases other <;> simp [applyFunction, applied, eq_comm]

theorem evalAll_eq_error_iff {expressions : List Expr} {breakdown : Breakdown} :
    evalAll environment expressions = .error breakdown ↔
      ∃ before expression after values, expressions = before ++ expression :: after ∧
        evalAll environment before = .ok values ∧
        eval environment expression = .error breakdown := by
  induction expressions with
  | nil =>
    exact iff_of_false (fun failed => nomatch failed) fun ⟨_, _, _, _, split, _⟩ => by simp at split
  | cons first rest ih =>
    change (do let value ← eval environment first; return value :: (← evalAll environment rest)) =
        _ ↔ _
    rw [bind_eq_error_iff]
    constructor
    -- Either the first one fails, or the failure is further behind.
    · rintro (failed | ⟨value, evaluated, failed⟩)
      · exact ⟨[], first, rest, [], rfl, rfl, failed⟩
      · obtain ⟨before, expression, after, values, rfl, earlier, failed⟩ :=
          ih.mp (Value.bind_pure_eq_error_iff.mp failed)
        refine ⟨first :: before, expression, after, value :: values, rfl, ?_, failed⟩
        simp only [evalAll, evaluated, earlier]
        rfl
    · rintro ⟨before, expression, after, values, split, earlier, failed⟩
      cases before with
      | nil =>
        cases split
        exact .inl failed
      | cons other before =>
        cases split
        obtain ⟨value, evaluated, later⟩ := bind_eq_ok_iff.mp earlier
        obtain ⟨others, earlier, _⟩ := bind_eq_ok_iff.mp later
        refine .inr ⟨value, evaluated, Value.bind_pure_eq_error_iff.mpr (ih.mpr ?_)⟩
        exact ⟨before, expression, after, others, rfl, earlier, failed⟩

theorem breaks_of_eval (bound : ∀ name, ∀ value ∈ environment.bindings name, value.Present)
    {fault : Fault} :
    ∀ expression, eval environment expression = .error (.fault fault) →
      Breaks environment fault expression
  | .number _, failed => nomatch failed
  | .boolean _, failed => nomatch failed
  | .variable name position, failed => by
    unfold eval at failed
    split at failed <;> cases failed
  | .list items, failed => by
    obtain ⟨before, expression, after, values, split, earlier, failed⟩ :=
      evalAll_eq_error_iff.mp (Value.bind_pure_eq_error_iff.mp failed)
    have member : expression ∈ items := by simp [split]
    have breaks := breaks_of_eval bound expression failed
    rw [split]
    exact .item earlier breaks
  | .unary operator position operand, failed => by
    rcases bind_eq_error_iff.mp failed with failed | ⟨value, evaluated, failed⟩
    · exact .operand (breaks_of_eval bound operand failed)
    -- An operator in front refuses lists, and computes everything else.
    · have present := (eval_present bound operand).of_ok evaluated
      obtain ⟨_, impossible⟩ := (applyUnary_numeric present).of_error failed
      cases impossible
  | .binary operator position left right, failed => by
    rcases bind_eq_error_iff.mp failed with failed | ⟨a, leftValue, later⟩
    · exact .left (breaks_of_eval bound left failed)
    rcases bind_eq_error_iff.mp later with failed | ⟨b, rightValue, failed⟩
    · exact .right leftValue (breaks_of_eval bound right failed)
    have leftPresent := (eval_present bound left).of_ok leftValue
    have rightPresent := (eval_present bound right).of_ok rightValue
    obtain ⟨x, y, leftNumber, rightNumber, fails⟩ :=
      (applyBinary_eq_fault_iff leftPresent rightPresent).mp failed
    exact .operator leftValue rightValue leftNumber rightNumber fails
  | .call name position arguments, failed => by
    unfold eval at failed
    split at failed
    · cases failed
    rename_i function known
    rcases bind_eq_error_iff.mp failed with failed | ⟨values, evaluated, failed⟩
    · obtain ⟨before, expression, after, values, split, earlier, failed⟩ :=
        evalAll_eq_error_iff.mp failed
      have member : expression ∈ arguments := by simp [split]
      have breaks := breaks_of_eval bound expression failed
      rw [split]
      exact .argument known earlier breaks
    · have present := (evalAll_present bound arguments).of_ok evaluated
      obtain ⟨isSpread, failed⟩ := applyFunction_eq_fault_iff.mp failed
      obtain ⟨rfl, several, numbers, numeric, sample, inside, infinite⟩ :=
        (Builtin.apply_eq_spread_iff present).mp failed
      exact .spread isSpread known evaluated several numeric inside infinite
termination_by expression => sizeOf expression
decreasing_by
  · have := List.sizeOf_lt_of_mem member
    simp
    omega
  · simp
  · simp
    omega
  · simp
  · have := List.sizeOf_lt_of_mem member
    simp
    omega

/-- Evaluation fails exactly where it comes to an operation without a result. -/
theorem eval_eq_fault_iff (bound : ∀ name, ∀ value ∈ environment.bindings name, value.Present)
    {expression : Expr} {fault : Fault} :
    eval environment expression = .error (.fault fault) ↔ Breaks environment fault expression := by
  refine ⟨breaks_of_eval bound expression, fun breaks => ?_⟩
  -- A breaking operation is reached because everything before it has a value.
  induction breaks with
  | item evaluated _ ih =>
    exact Value.bind_pure_eq_error_iff.mpr
      (evalAll_eq_error_iff.mpr ⟨_, _, _, _, rfl, evaluated, ih⟩)
  | operand _ ih => exact bind_eq_error_iff.mpr (.inl ih)
  | left _ ih => exact bind_eq_error_iff.mpr (.inl ih)
  | right evaluated _ ih =>
    exact bind_eq_error_iff.mpr (.inr ⟨_, evaluated, bind_eq_error_iff.mpr (.inl ih)⟩)
  | @operator _ position left right a b x y leftValue rightValue leftNumber rightNumber fails =>
    have leftPresent := (eval_present bound left).of_ok leftValue
    have rightPresent := (eval_present bound right).of_ok rightValue
    refine bind_eq_error_iff.mpr
      (.inr ⟨a, leftValue, bind_eq_error_iff.mpr (.inr ⟨b, rightValue, ?_⟩)⟩)
    exact (applyBinary_eq_fault_iff leftPresent rightPresent).mpr
      ⟨x, y, leftNumber, rightNumber, fails⟩
  | argument known evaluated _ ih =>
    unfold eval
    rw [known]
    exact bind_eq_error_iff.mpr (.inl (evalAll_eq_error_iff.mpr ⟨_, _, _, _, rfl, evaluated, ih⟩))
  | @spread name position arguments values numbers sample isSpread known evaluated several numeric
      inside infinite =>
    have present := (evalAll_present bound arguments).of_ok evaluated
    unfold eval
    rw [known]
    refine bind_eq_error_iff.mpr
      (.inr ⟨values, evaluated, applyFunction_eq_fault_iff.mpr ⟨isSpread, ?_⟩⟩)
    exact (Builtin.apply_eq_spread_iff present).mpr
      ⟨rfl, several, numbers, numeric, sample, inside, infinite⟩

end IndicatorFormula.Expr
