import IndicatorFormula.Calculation
import IndicatorFormula.Proofs.Expression.Lexemes
import IndicatorFormula.Proofs.Expression.Step

/-! Places do not matter.

Trees and breakdowns know where in a text they come from, but neither the shape of a tree nor its
value depends on that. What is said about lexemes and trees without their places therefore holds for
every text with those lexemes. -/

set_option autoImplicit false
namespace IndicatorFormula

def Defect.unplaced (defect : Defect) : Defect :=
  { defect with position := defect.position.map fun _ => 0 }

def Breakdown.unplaced : Breakdown → Breakdown
  | .defect found => .defect found.unplaced
  | .fault reason => .fault reason

namespace Expr

mutual

def unplaced : Expr → Expr
  | .number value => .number value
  | .boolean value => .boolean value
  | .variable name _ => .variable name 0
  | .list items => .list (unplacedAll items)
  | .unary operator _ operand => .unary operator 0 (unplaced operand)
  | .binary operator _ left right => .binary operator 0 (unplaced left) (unplaced right)
  | .call function _ arguments => .call function 0 (unplacedAll arguments)

def unplacedAll : List Expr → List Expr
  | [] => []
  | expression :: rest => unplaced expression :: unplacedAll rest

end

theorem unplacedAll_eq_map (expressions : List Expr) :
    unplacedAll expressions = expressions.map unplaced := by
  induction expressions with
  | nil => rfl
  | cons expression rest ih => rw [unplacedAll, ih, List.map_cons]

theorem unplaced_ofIdentifier (name : Text) (position : Nat) :
    (ofIdentifier name position).unplaced = ofIdentifier name 0 := by
  unfold ofIdentifier
  split
  · rfl
  split <;> rfl

theorem mapError_bind {α β : Type} (x : Except Breakdown α) {next next' : α → Except Breakdown β}
    (same : ∀ value, next' value = (next value).mapError Breakdown.unplaced) :
    (x.mapError Breakdown.unplaced >>= next') = (x >>= next).mapError Breakdown.unplaced := by
  cases x with
  | error breakdown => rfl
  | ok value => exact same value

theorem mapError_fault {α : Type} (x : Except Fault α) :
    x.mapError Breakdown.fault = (x.mapError Breakdown.fault).mapError Breakdown.unplaced := by
  cases x <;> rfl

theorem applyUnary_unplaced (operator : UnaryOperator) (operand : Value) :
    applyUnary operator operand = (applyUnary operator operand).mapError Breakdown.unplaced := by
  cases operator with
  | not => rfl
  | minus | plus =>
    simp only [applyUnary]
    split
    · rfl
    · exact mapError_fault _

theorem applyBinary_unplaced (operator : BinaryOperator) (position : Nat) (left right : Value) :
    applyBinary operator 0 left right =
      (applyBinary operator position left right).mapError Breakdown.unplaced := by
  unfold applyBinary
  split
  · rfl
  · exact mapError_fault _

theorem applyFunction_unplaced (function : Builtin) (name : Text) (position : Nat)
    (arguments : List Value) :
    applyFunction function name 0 arguments =
      (applyFunction function name position arguments).mapError Breakdown.unplaced := by
  unfold applyFunction
  cases function.apply arguments with
  | ok value => rfl
  | error fault => cases fault <;> rfl

variable (environment : Environment)

mutual

/-- Evaluation does not depend on places, except for the place of a breakdown. -/
theorem eval_unplaced : (expression : Expr) →
    expression.unplaced.eval environment = (expression.eval environment).mapError Breakdown.unplaced
  | .number _ | .boolean _ => rfl
  | .variable name position => by
    simp only [unplaced, eval]
    cases environment.bindings name <;> rfl
  | .list items => by
    simp only [unplaced, eval, evalAll_unplaced items]
    exact mapError_bind _ fun _ => rfl
  | .unary operator position operand => by
    simp only [unplaced, eval, eval_unplaced operand]
    exact mapError_bind _ fun value => applyUnary_unplaced operator value
  | .binary operator position left right => by
    simp only [unplaced, eval, eval_unplaced left, eval_unplaced right]
    exact mapError_bind _
      fun a => mapError_bind _ fun b => applyBinary_unplaced operator position a b
  | .call name position arguments => by
    simp only [unplaced, eval]
    cases Builtin.ofName? environment.functions name with
    | none => rfl
    | some function =>
      simp only [evalAll_unplaced arguments]
      exact mapError_bind _ fun values => applyFunction_unplaced function name position values

theorem evalAll_unplaced :
    (expressions : List Expr) →
      evalAll environment (unplacedAll expressions) =
        (evalAll environment expressions).mapError Breakdown.unplaced
  | [] => rfl
  | expression :: rest => by
    simp only [unplacedAll, evalAll, eval_unplaced expression, evalAll_unplaced rest]
    exact mapError_bind _ fun value => mapError_bind _ fun _ => rfl

end

end Expr

namespace Parser

def Frame.unplaced : Frame → Frame
  | .unary operator _ => .unary operator 0
  | .binary operator _ left => .binary operator 0 left.unplaced
  | .group => .group
  | .list items => .list (Expr.unplacedAll items)
  | .call function _ arguments => .call function 0 (Expr.unplacedAll arguments)

def State.unplaced : State → State
  | .operand frames empty => .operand (frames.map Frame.unplaced) empty
  | .name frames word _ => .name (frames.map Frame.unplaced) word 0
  | .operator frames expression => .operator (frames.map Frame.unplaced) expression.unplaced

theorem reduce_unplaced (level : Nat) (frames : List Frame) (expression : Expr) :
    reduce level (frames.map Frame.unplaced) expression.unplaced =
      ((reduce level frames expression).1.map Frame.unplaced,
        (reduce level frames expression).2.unplaced) := by
  fun_induction reduce level frames expression with
  | case1 operator position frames expression tight ih =>
    rw [List.map_cons, Frame.unplaced, reduce, if_pos tight]
    exact ih
  | case2 operator position frames expression loose =>
    rw [List.map_cons, Frame.unplaced, reduce, if_neg loose]
  | case3 operator position left frames expression tight ih =>
    rw [List.map_cons, Frame.unplaced, reduce, if_pos tight]
    exact ih
  | case4 operator position left frames expression loose =>
    rw [List.map_cons, Frame.unplaced, reduce, if_neg loose]
  | case5 frames expression notUnary notBinary =>
    cases frames with
    | nil => rfl
    | cons frame frames =>
      cases frame with
      | unary operator position => exact absurd rfl (notUnary operator position frames)
      | binary operator position left => exact absurd rfl (notBinary operator position left frames)
      | _ => rfl

theorem refusal_unplaced (frames : List Frame) (found : Option Lexeme) :
    refusal (frames.map Frame.unplaced) found = refusal frames found := by
  cases frames with
  | nil => rfl
  | cons frame frames => cases frame <;> rfl

def advance (state : State) (lexeme : Lexeme) : Except DefectReason State :=
  step state ⟨lexeme, 0⟩

theorem advance_eq_ok_iff {state next : State} {lexeme : Lexeme} :
    advance state lexeme = .ok next ↔ Step 0 state lexeme next :=
  step_eq_ok_iff

theorem stepOperand_unplaced (frames : List Frame) (empty : Bool) (token : Token) :
    stepOperand (frames.map Frame.unplaced) empty ⟨token.lexeme, 0⟩ =
      (stepOperand frames empty token).map State.unplaced := by
  obtain ⟨lexeme, position⟩ := token
  cases lexeme with
  | number value | identifier name => rfl
  | symbol sign =>
    cases sign with
    | opening bracket => cases bracket <;> rfl
    | closing bracket =>
      cases frames with
      | nil => cases empty <;> cases bracket <;> rfl
      | cons frame frames => cases empty <;> cases bracket <;> cases frame <;> rfl
    | comma | not => rfl
    | operator operator => cases operator <;> rfl

theorem stepOperator_unplaced (frames : List Frame) (expression : Expr) (token : Token) :
    stepOperator (frames.map Frame.unplaced) expression.unplaced ⟨token.lexeme, 0⟩ =
      (stepOperator frames expression token).map State.unplaced := by
  obtain ⟨lexeme, position⟩ := token
  -- Operators are applied up to a level of their own. Everything else applies all of them.
  have other : (∀ operator, lexeme ≠ .symbol (.operator operator)) →
      stepOperator (frames.map Frame.unplaced) expression.unplaced ⟨lexeme, 0⟩ =
        (stepOperator frames expression ⟨lexeme, position⟩).map State.unplaced := by
    intro plain
    unfold stepOperator
    simp only [reduce_unplaced]
    generalize reduce 0 frames expression = reduced
    obtain ⟨frames, expression⟩ := reduced
    have refused : (Except.error (refusal (frames.map Frame.unplaced) (some lexeme)) : Except
          DefectReason State) =
        (Except.error (refusal frames (some lexeme)) : Except DefectReason State).map
          State.unplaced := by
      rw [refusal_unplaced]
      rfl
    cases lexeme with
    | number | identifier => exact refused
    | symbol sign =>
      cases sign with
      | opening | not => exact refused
      | closing bracket =>
        cases frames with
        | nil => cases bracket <;> exact refused
        | cons frame frames =>
          cases bracket <;> cases frame <;> first
            | exact refused
            | simp
                [Except.map, State.unplaced, Frame.unplaced, Expr.unplaced, Expr.unplacedAll_eq_map]
      | comma =>
        cases frames with
        | nil => exact refused
        | cons frame frames =>
          cases frame <;> first
            | exact refused
            | simp [Except.map, State.unplaced, Frame.unplaced, Expr.unplacedAll_eq_map]
      | operator operator => exact absurd rfl (plain operator)
  by_cases operator : ∃ operator, lexeme = .symbol (.operator operator)
  · obtain ⟨operator, rfl⟩ := operator
    simp only [stepOperator, reduce_unplaced]
    rfl
  · exact other fun other same => operator ⟨other, same⟩

theorem step_unplaced (state : State) (token : Token) :
    advance state.unplaced token.lexeme = (step state token).map State.unplaced := by
  cases state with
  | operand frames empty => exact stepOperand_unplaced frames empty token
  | operator frames expression => exact stepOperator_unplaced frames expression token
  | name frames name position =>
    by_cases opens : token.lexeme = .symbol (.opening .round)
    · obtain ⟨lexeme, place⟩ := token
      cases opens
      rfl
    · rw [step_name opens, ← stepOperator_unplaced, Expr.unplaced_ofIdentifier]
      exact step_name opens

theorem finishOperator_unplaced (frames : List Frame) (expression : Expr) :
    finishOperator (frames.map Frame.unplaced) expression.unplaced =
      (finishOperator frames expression).map Expr.unplaced := by
  unfold finishOperator
  rw [reduce_unplaced]
  generalize reduce 0 frames expression = reduced
  obtain ⟨frames, expression⟩ := reduced
  cases frames with
  | nil => rfl
  | cons frame frames =>
    have refused := refusal_unplaced (frame :: frames) none
    exact congrArg Except.error refused

theorem finish_unplaced (state : State) :
    finish state.unplaced = (finish state).map Expr.unplaced := by
  cases state with
  | operand frames empty => cases frames <;> rfl
  | operator frames expression => exact finishOperator_unplaced frames expression
  | name frames name position =>
    have same := finishOperator_unplaced frames (.ofIdentifier name position)
    rwa [Expr.unplaced_ofIdentifier] at same

def read (state : State) (lexemes : List Lexeme) : Except DefectReason State :=
  lexemes.foldlM advance state

def complete (state : State) (lexemes : List Lexeme) : Except DefectReason Expr := do
  finish (← read state lexemes)

theorem read_cons_eq_ok_iff {state next : State} {lexeme : Lexeme} {lexemes : List Lexeme} :
    read state (lexeme :: lexemes) = .ok next ↔
      ∃ middle, advance state lexeme = .ok middle ∧ read middle lexemes = .ok next := by
  rw [read, List.foldlM_cons]
  exact bind_eq_ok_iff

theorem complete_cons_eq_ok_iff {state : State} {lexeme : Lexeme} {lexemes : List Lexeme}
    {tree : Expr} :
    complete state (lexeme :: lexemes) = .ok tree ↔
      ∃ middle, advance state lexeme = .ok middle ∧ complete middle lexemes = .ok tree := by
  rw [complete, read, List.foldlM_cons, bind_assoc]
  exact bind_eq_ok_iff

def tree (lexemes : List Lexeme) : Except DefectReason Expr :=
  complete (.operand [] false) lexemes

theorem run_unplaced (ends : Nat) (state : State) (tokens : List Token) :
    (run ends state tokens).toOption.map Expr.unplaced =
      (complete state.unplaced (tokens.map Token.lexeme)).toOption := by
  -- Positions are only carried along, so forgetting them commutes with each step.
  induction tokens generalizing state with
  | nil =>
    have same := finish_unplaced state
    change ((finish state).mapError _).toOption.map Expr.unplaced = (finish state.unplaced).toOption
    rw [same]
    cases finish state <;> rfl
  | cons token tokens ih =>
    have same := step_unplaced state token
    rw [run, List.map_cons, complete, read, List.foldlM_cons, same]
    cases step state token with
    | error reason => rfl
    | ok state => exact ih state

end Parser

theorem Expr.parse_of_lexes {text : Text} {lexemes : List Lexeme} {tree : Expr}
    (lexes : Lexer.Lexes text lexemes) (reads : Parser.tree lexemes = .ok tree) :
    ∃ placed, Expr.parse text = .ok placed ∧ placed.unplaced = tree := by
  obtain ⟨tokens, cut, same⟩ := Lexer.tokensFrom_of_lexes lexes 0
  have run := Parser.run_unplaced text.length (.operand [] false) tokens
  rw [same] at run
  change _ = (Parser.tree lexemes).toOption at run
  rw [reads] at run
  unfold Expr.parse
  rw [Lexer.tokens, cut]
  change ∃ placed, Parser.run text.length (.operand []
    false) tokens = .ok placed ∧ placed.unplaced = tree
  cases parsed : Parser.run text.length (.operand [] false) tokens with
  | error defect =>
    rw [parsed] at run
    cases run
  | ok placed =>
    rw [parsed] at run
    exact ⟨placed, rfl, Option.some.inj run⟩

theorem Expr.lexes_of_parse {text : Text} {placed : Expr} (parsed : Expr.parse text = .ok placed) :
    ∃ lexemes, Lexer.Lexes text lexemes ∧ Parser.tree lexemes = .ok placed.unplaced := by
  obtain ⟨tokens, cut, parsed⟩ := bind_eq_ok_iff.mp parsed
  refine ⟨_, Lexer.lexes_of_tokensFrom cut, ?_⟩
  have run := Parser.run_unplaced text.length (.operand [] false) tokens
  rw [show Parser.run text.length (.operand [] false) tokens = .ok placed from parsed] at run
  change some placed.unplaced = (Parser.tree (tokens.map Token.lexeme)).toOption at run
  cases reads : Parser.tree (tokens.map Token.lexeme) with
  | error reason =>
    rw [reads] at run
    cases run
  | ok tree =>
    rw [reads] at run
    rw [Option.some.inj run]

/-- The value of a text is that of the tree that its lexemes have. -/
theorem evaluate_of_lexes {functions : List Builtin} {text : Text} {lexemes : List Lexeme}
    {tree : Expr} (lexes : Lexer.Lexes text lexemes) (reads : Parser.tree lexemes = .ok tree) :
    (evaluate functions text).mapError Breakdown.unplaced = tree.eval { functions } := by
  obtain ⟨placed, parsed, rfl⟩ := Expr.parse_of_lexes lexes reads
  rw [Expr.eval_unplaced, evaluate, parsed]
  rfl

end IndicatorFormula
