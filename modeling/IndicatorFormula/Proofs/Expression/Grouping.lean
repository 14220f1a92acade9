import IndicatorFormula.Proofs.Expression.Places

/-! Operands and what follows them.

An operand in parentheses is one operand wherever it stands, and an operator with its operands is
one operand where neither side goes on with an operator. -/

set_option autoImplicit false
namespace IndicatorFormula.Parser

theorem complete_cons {state next : State} {lexeme : Lexeme}
    (step : advance state lexeme = .ok next) (lexemes : List Lexeme) :
    complete state (lexeme :: lexemes) = complete next lexemes := by
  unfold complete read
  rw [List.foldlM_cons, step]
  rfl

theorem complete_congr {state other : State} {lexemes : List Lexeme}
    (ends : lexemes = [] → finish state = finish other)
    (steps : ∀ lexeme ∈ lexemes.head?, advance state lexeme = advance other lexeme) :
    complete state lexemes = complete other lexemes := by
  -- Only the first lexeme, or the end, can tell two states apart.
  cases lexemes with
  | nil => exact ends rfl
  | cons lexeme lexemes =>
    unfold complete read
    rw [List.foldlM_cons, List.foldlM_cons, steps lexeme rfl]

def Closing (lexemes : List Lexeme) : Prop :=
  ∀ lexeme ∈ lexemes.head?, lexeme = .symbol .comma ∨ ∃ bracket, lexeme = .symbol (.closing bracket)

def Barrier (frames : List Frame) : Prop :=
  ∀ level expression, reduce level frames expression = (frames, expression)

theorem barrier_nil : Barrier [] :=
  fun _ _ => rfl

theorem barrier_group (frames : List Frame) : Barrier (.group :: frames) :=
  fun _ _ => rfl

def Parted (lexemes : List Lexeme) : Prop :=
  lexemes.head? ≠ some (.symbol (.opening .round))

theorem Closing.parted {lexemes : List Lexeme} (closing : Closing lexemes) : Parted lexemes := by
  intro opens
  rcases closing _ opens with impossible | ⟨bracket, impossible⟩ <;> cases impossible

variable {frames : List Frame} {lexemes : List Lexeme} {expression : Expr}

theorem complete_reduced {other : Expr} {frames' : List Frame} (closing : Closing lexemes)
    (same : reduce 0 frames expression = reduce 0 frames' other) :
    complete (.operator frames expression) lexemes =
      complete (.operator frames' other) lexemes := by
  refine complete_congr (fun _ => ?_) fun lexeme found => ?_
  · simp only [finish, finishOperator, same]
  · rcases closing lexeme found with rfl | ⟨bracket, rfl⟩
    · simp only [advance, step, stepOperator, same]
    · simp only [advance, step, stepOperator, same]

theorem reduce_unary (operator : UnaryOperator) (frames : List Frame) (expression : Expr) :
    reduce 0 (.unary operator 0 :: frames) expression =
      reduce 0 frames (.unary operator 0 expression) := by
  rw [reduce, if_pos (Nat.zero_le _)]

theorem reduce_binary (operator : BinaryOperator) (left : Expr) (frames : List Frame)
    (right : Expr) :
    reduce 0 (.binary operator 0 left :: frames) right =
      reduce 0 frames (.binary operator 0 left right) := by
  rw [reduce, if_pos (Nat.zero_le _)]

theorem complete_name {name : Text} (parted : Parted lexemes) :
    complete (.name frames name 0) lexemes =
      complete (.operator frames (.ofIdentifier name 0)) lexemes := by
  refine complete_congr (fun _ => rfl) fun lexeme found => step_name ?_
  rintro rfl
  exact parted found

theorem complete_sign (operator : UnaryOperator) (empty : Bool) :
    complete (.operand frames empty) (.symbol operator.symbol :: lexemes) =
      complete (.operand (.unary operator 0 :: frames) false) lexemes := by
  refine complete_cons ?_ lexemes
  cases operator <;> rfl

theorem complete_operator (operator : BinaryOperator) (barrier : Barrier frames) :
    complete (.operator frames expression) (.symbol (.operator operator) :: lexemes) =
      complete (.operand (.binary operator 0 expression :: frames) false) lexemes := by
  have unchanged := barrier operator.leftLevel expression
  refine complete_cons ?_ lexemes
  simp only [advance, step, stepOperator, unchanged]

theorem complete_opening (empty : Bool) :
    complete (.operand frames empty) (.symbol (.opening .round) :: lexemes) =
      complete (.operand (.group :: frames) false) lexemes :=
  complete_cons rfl lexemes

theorem complete_closing :
    complete (.operator (.group :: frames) expression) (.symbol (.closing .round) :: lexemes) =
      complete (.operator frames expression) lexemes :=
  complete_cons rfl lexemes

theorem complete_comma {name : Text} {arguments : List Expr} :
    complete (.operator (.call name 0 arguments :: frames) expression) (.symbol .comma :: lexemes) =
      complete (.operand (.call name 0 (arguments ++ [expression]) :: frames) false) lexemes :=
  complete_cons rfl lexemes

end IndicatorFormula.Parser
