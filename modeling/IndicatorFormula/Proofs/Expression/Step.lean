import IndicatorFormula.Expression.Parser
import IndicatorFormula.Proofs.Outcome

/-! The steps of the parser.

A token is read where an operand is expected, or behind one. Each way to read it is a case of its
own, so that what every step keeps is shown case by case. Behind an operand, operators in the same
bracket are applied first. -/

set_option autoImplicit false
namespace IndicatorFormula.Parser

variable {position : Nat} {frames : List Frame} {empty : Bool} {expression : Expr} {lexeme : Lexeme}
  {next : State}

/-- What is read where an operand is expected, and the state behind it. -/
inductive OperandStep (position : Nat) : List Frame → Bool → Lexeme → State → Prop where
  | number (frames : List Frame) (empty : Bool) (value : Double) :
      OperandStep position frames empty (.number value) (.operator frames (.number value))
  | identifier (frames : List Frame) (empty : Bool) (name : Text) :
      OperandStep position frames empty (.identifier name) (.name frames name position)
  | sign (frames : List Frame) (empty : Bool) {symbol : Symbol} {operator : UnaryOperator}
      (same : symbol = operator.symbol) :
      OperandStep position frames empty (.symbol symbol)
        (.operand (.unary operator position :: frames) false)
  | opensGroup (frames : List Frame) (empty : Bool) :
      OperandStep position frames empty (.symbol (.opening .round))
        (.operand (.group :: frames) false)
  | opensList (frames : List Frame) (empty : Bool) :
      OperandStep position frames empty (.symbol (.opening .square))
        (.operand (.list [] :: frames) true)
  | closesList (items : List Expr) (frames : List Frame) :
      OperandStep position (.list items :: frames) true (.symbol (.closing .square))
        (.operator frames (.list items))
  | closesCall (function : Text) (place : Nat) (arguments : List Expr) (frames : List Frame) :
      OperandStep position (.call function place arguments :: frames) true
        (.symbol (.closing .round)) (.operator frames (.call function place arguments))

theorem stepOperand_eq_ok_iff :
    stepOperand frames empty ⟨lexeme, position⟩ = .ok next ↔
      OperandStep position frames empty lexeme next := by
  constructor
  · intro step
    cases lexeme with
    | number value =>
      cases step
      exact .number frames empty value
    | identifier name =>
      cases step
      exact .identifier frames empty name
    | symbol symbol =>
      cases symbol with
      | opening bracket =>
        cases bracket <;> cases step
        · exact .opensGroup frames empty
        · exact .opensList frames empty
      | closing bracket =>
        unfold stepOperand at step
        simp only at step
        split at step <;> cases step
        · exact .closesList _ _
        · exact .closesCall _ _ _ _
      | comma => cases step
      | not =>
        cases step
        exact .sign frames empty rfl
      | operator operator =>
        cases operator <;> cases step
        · exact .sign frames empty rfl
        · exact .sign frames empty rfl
  · intro step
    cases step with
    | @sign _ _ _ operator same =>
      subst same
      cases operator <;> rfl
    | _ => rfl

inductive OperatorStep (position : Nat) (frames : List Frame) (expression : Expr) :
    Lexeme → State → Prop where
  | binary {rest : List Frame} {left : Expr} (operator : BinaryOperator)
      (reduced : reduce operator.leftLevel frames expression = (rest, left)) :
      OperatorStep position frames expression (.symbol (.operator operator))
        (.operand (.binary operator position left :: rest) false)
  | item {items : List Expr} {rest : List Frame} {last : Expr}
      (reduced : reduce 0 frames expression = (.list items :: rest, last)) :
      OperatorStep position frames expression (.symbol .comma)
        (.operand (.list (items ++ [last]) :: rest) false)
  | argument {function : Text} {place : Nat} {arguments : List Expr} {rest : List Frame}
      {last : Expr}
      (reduced : reduce 0 frames expression = (.call function place arguments :: rest, last)) :
      OperatorStep position frames expression (.symbol .comma)
        (.operand (.call function place (arguments ++ [last]) :: rest) false)
  | closesGroup {rest : List Frame} {inner : Expr}
      (reduced : reduce 0 frames expression = (.group :: rest, inner)) :
      OperatorStep position frames expression (.symbol (.closing .round)) (.operator rest inner)
  | closesList {items : List Expr} {rest : List Frame} {last : Expr}
      (reduced : reduce 0 frames expression = (.list items :: rest, last)) :
      OperatorStep position frames expression (.symbol (.closing .square))
        (.operator rest (.list (items ++ [last])))
  | closesCall {function : Text} {place : Nat} {arguments : List Expr} {rest : List Frame}
      {last : Expr}
      (reduced : reduce 0 frames expression = (.call function place arguments :: rest, last)) :
      OperatorStep position frames expression (.symbol (.closing .round))
        (.operator rest (.call function place (arguments ++ [last])))

theorem stepOperator_eq_ok_iff :
    stepOperator frames expression ⟨lexeme, position⟩ = .ok next ↔
      OperatorStep position frames expression lexeme next := by
  constructor
  · intro step
    unfold stepOperator at step
    split at step
    · rename_i operator same
      cases step
      cases same
      exact .binary operator rfl
    · cases reduced : reduce 0 frames expression with
      | mk rest last =>
      simp only [reduced] at step
      split at step <;> cases step
      · exact .item reduced
      · exact .argument reduced
      · exact .closesGroup reduced
      · exact .closesList reduced
      · exact .closesCall reduced
  · intro step
    cases step with
    | binary _ reduced | item reduced | argument reduced | closesGroup reduced | closesList reduced
    | closesCall reduced =>
      simp only [stepOperator, reduced]

/-- What is read in a state, and the state behind it. A round bracket makes a name that of a call,
and anything else reads the name as a whole expression. -/
inductive Step (position : Nat) : State → Lexeme → State → Prop where
  | operand {frames : List Frame} {empty : Bool} {lexeme : Lexeme} {next : State}
      (read : OperandStep position frames empty lexeme next) :
      Step position (.operand frames empty) lexeme next
  | call (frames : List Frame) (name : Text) (place : Nat) :
      Step position (.name frames name place) (.symbol (.opening .round))
        (.operand (.call name place [] :: frames) true)
  | name {frames : List Frame} {name : Text} {place : Nat} {lexeme : Lexeme} {next : State}
      (other : lexeme ≠ .symbol (.opening .round))
      (read : OperatorStep position frames (.ofIdentifier name place) lexeme next) :
      Step position (.name frames name place) lexeme next
  | operator {frames : List Frame} {expression : Expr} {lexeme : Lexeme} {next : State}
      (read : OperatorStep position frames expression lexeme next) :
      Step position (.operator frames expression) lexeme next

theorem step_name {name : Text} {place : Nat} {token : Token}
    (other : token.lexeme ≠ .symbol (.opening .round)) :
    step (.name frames name place) token =
      stepOperator frames (.ofIdentifier name place) token := by
  simp only [step]

theorem step_eq_ok_iff {state : State} :
    step state ⟨lexeme, position⟩ = .ok next ↔ Step position state lexeme next := by
  constructor
  · intro read
    cases state with
    | operand frames empty => exact .operand (stepOperand_eq_ok_iff.mp read)
    | operator frames expression => exact .operator (stepOperator_eq_ok_iff.mp read)
    | name frames name place =>
      by_cases opens : lexeme = .symbol (.opening .round)
      · subst opens
        cases read
        exact .call frames name place
      · exact .name opens (stepOperator_eq_ok_iff.mp ((step_name opens).symm.trans read))
  · intro read
    cases read with
    | operand read => exact stepOperand_eq_ok_iff.mpr read
    | call => rfl
    | name other read => exact (step_name other).trans (stepOperator_eq_ok_iff.mpr read)
    | operator read => exact stepOperator_eq_ok_iff.mpr read

theorem finishOperator_eq_ok_iff {tree : Expr} :
    finishOperator frames expression = .ok tree ↔ reduce 0 frames expression = ([], tree) := by
  unfold finishOperator
  obtain ⟨rest, last⟩ := reduce 0 frames expression
  cases rest <;> simp

def steps (state : State) (tokens : List Token) : Except DefectReason State :=
  tokens.foldlM step state

section

variable {state : State} {token : Token} {tokens : List Token} {ends : Nat}

theorem steps_append (read : steps state tokens = .ok next) (more : List Token) :
    steps state (tokens ++ more) = steps next more := by
  simp only [steps, List.foldlM_append] at read ⊢
  rw [read]
  rfl

theorem steps_cons (read : step state token = .ok next) (more : List Token) :
    steps state (token :: more) = steps next more := by
  simp only [steps, List.foldlM_cons, read]
  rfl

theorem steps_cons_eq_ok_iff :
    steps state (token :: tokens) = .ok next ↔
      ∃ middle, step state token = .ok middle ∧ steps middle tokens = .ok next := by
  rw [steps, List.foldlM_cons]
  exact bind_eq_ok_iff

theorem run_of_steps (read : steps state tokens = .ok next) (ends : Nat) (more : List Token) :
    run ends state (tokens ++ more) = run ends next more := by
  induction tokens generalizing state with
  | nil =>
    cases read
    rfl
  | cons token tokens ih =>
    obtain ⟨middle, first, read⟩ := steps_cons_eq_ok_iff.mp read
    simp only [List.cons_append, run, first]
    exact ih read

/-- A refused token is found by steps that take those before it, and if there is none the end is
refused. -/
theorem exists_of_run_error {defect : Defect} (refused : run ends state tokens = .error defect) :
    (∃ before token behind next, tokens = before ++ token :: behind ∧
        steps state before = .ok next ∧ step next token = .error defect.reason ∧
        defect.position = some token.position) ∨
      ∃ next, steps state tokens = .ok next ∧ finish next = .error defect.reason ∧
        defect.position = some ends := by
  induction tokens generalizing state with
  | nil =>
    refine .inr ⟨state, rfl, ?_⟩
    unfold run at refused
    cases finished : finish state with
    | ok tree =>
      rw [finished] at refused
      cases refused
    | error reason =>
      rw [finished] at refused
      cases refused
      exact ⟨rfl, rfl⟩
  | cons token tokens ih =>
    unfold run at refused
    split at refused
    · rename_i middle taken
      rcases ih refused
        with ⟨before, other, behind, next, rfl, first, stops, place⟩ | ⟨next, first, stops, place⟩
      · exact .inl
          ⟨token :: before, other, behind, next, rfl, by rw [steps_cons taken, first], stops, place⟩
      · exact .inr ⟨next, by rw [steps_cons taken, first], stops, place⟩
    · rename_i reason taken
      cases refused
      exact .inl ⟨[], token, tokens, state, rfl, rfl, taken, rfl⟩

theorem run_eq_ok_iff {tree : Expr} :
    run ends state tokens = .ok tree ↔
      ∃ next, steps state tokens = .ok next ∧ finish next = .ok tree := by
  constructor
  · intro parsed
    induction tokens generalizing state with
    | nil =>
      refine ⟨state, rfl, ?_⟩
      unfold run at parsed
      cases finished : finish state with
      | error reason =>
        rw [finished] at parsed
        cases parsed
      | ok found =>
        rw [finished] at parsed
        cases parsed
        rfl
    | cons token tokens ih =>
      unfold run at parsed
      split at parsed
      · rename_i middle taken
        obtain ⟨next, later, finished⟩ := ih parsed
        exact ⟨next, by rw [steps_cons taken, later], finished⟩
      · cases parsed
  · rintro ⟨next, taken, finished⟩
    rw [← List.append_nil tokens, run_of_steps taken, run, finished]
    rfl

end

end IndicatorFormula.Parser
