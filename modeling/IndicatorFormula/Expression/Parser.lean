import IndicatorFormula.Expression.Defect
import IndicatorFormula.Expression.Lexer
import IndicatorFormula.Expression.Tree

/-! Parsing of expressions by operator precedence.

From loosest to tightest, operators are disjunction, conjunction, comparisons, sums, products, the
operators in front of an operand, and the power. Operators of one level group to the left, except
that a power groups to the right and may have an operator in front of its exponent.

The parser reads token by token and keeps a stack of what is unfinished. It refuses the first token
that no expression continues with. -/

set_option autoImplicit false
namespace IndicatorFormula

def BinaryOperator.level : BinaryOperator → Nat
  | .or => 1
  | .and => 2
  | .gt | .lt | .ge | .le | .eq | .ne => 3
  | .add | .sub => 4
  | .mul | .div | .mod => 5
  | .pow => 7

def UnaryOperator.level (_ : UnaryOperator) : Nat := 6

/-- The least level of operators that are applied before a following operator: its own, unless it
groups to the right. -/
def BinaryOperator.leftLevel : BinaryOperator → Nat
  | .pow => 8
  | operator => operator.level

namespace Parser

/-- Something unfinished that an expression is part of. -/
inductive Frame where
  | unary (operator : UnaryOperator) (position : Nat)
  | binary (operator : BinaryOperator) (position : Nat) (left : Expr)
  | group
  | list (items : List Expr)
  | call (function : Text) (position : Nat) (arguments : List Expr)

/-- What has been read, with the innermost unfinished part first. -/
inductive State where
  /-- An operand comes next. The bracket just opened may also close if it is still `empty`. -/
  | operand (frames : List Frame) (empty : Bool)
  /-- An identifier has been read, which is a function if arguments follow. -/
  | name (frames : List Frame) (name : Text) (position : Nat)
  /-- An expression has been read, which an operator may continue. -/
  | operator (frames : List Frame) (expression : Expr)

/-- Applies the operators that bind at least as tightly as a level to the expression behind them. -/
def reduce (level : Nat) : List Frame → Expr → List Frame × Expr
  | .unary operator position :: frames, expression =>
    if level ≤ operator.level then reduce level frames (.unary operator position expression)
    else (.unary operator position :: frames, expression)
  | .binary operator position left :: frames, expression =>
    if level ≤ operator.level then reduce level frames (.binary operator position left expression)
    else (.binary operator position left :: frames, expression)
  | frames, expression => (frames, expression)

def refusal : List Frame → Option Lexeme → DefectReason
  | .list _ :: _, found => .unclosed .square found
  | .group :: _, found => .unclosed .round found
  | .call .. :: _, found => .unclosed .round found
  | _, _ => .extraTokens

def stepOperand (frames : List Frame) (empty : Bool) (token : Token) : Except DefectReason State :=
  let refused := .error (.noOperand (some token.lexeme))
  match token.lexeme with
  | .number value => .ok (.operator frames (.number value))
  | .identifier name => .ok (.name frames name token.position)
  | .symbol (.opening .round) => .ok (.operand (.group :: frames) false)
  | .symbol (.opening .square) => .ok (.operand (.list [] :: frames) true)
  | .symbol (.closing bracket) =>
    match empty, bracket, frames with
    | true, .square, .list items :: frames => .ok (.operator frames (.list items))
    | true, .round, .call function position arguments :: frames =>
      .ok (.operator frames (.call function position arguments))
    | _, _, _ => refused
  | .symbol symbol =>
    match symbol.unary? with
    | some operator => .ok (.operand (.unary operator token.position :: frames) false)
    | none => refused

def stepOperator (frames : List Frame) (expression : Expr) (token : Token) :
    Except DefectReason State :=
  match token.lexeme with
  | .symbol (.operator operator) =>
    let (frames, expression) := reduce operator.leftLevel frames expression
    .ok (.operand (.binary operator token.position expression :: frames) false)
  | lexeme =>
    let (frames, expression) := reduce 0 frames expression
    match lexeme, frames with
    | .symbol .comma, .list items :: frames =>
      .ok (.operand (.list (items ++ [expression]) :: frames) false)
    | .symbol .comma, .call function position arguments :: frames =>
      .ok (.operand (.call function position (arguments ++ [expression]) :: frames) false)
    | .symbol (.closing .round), .group :: frames => .ok (.operator frames expression)
    | .symbol (.closing .square), .list items :: frames =>
      .ok (.operator frames (.list (items ++ [expression])))
    | .symbol (.closing .round), .call function position arguments :: frames =>
      .ok (.operator frames (.call function position (arguments ++ [expression])))
    | _, _ => .error (refusal frames (some lexeme))

def step (state : State) (token : Token) : Except DefectReason State :=
  match state with
  | .operand frames empty => stepOperand frames empty token
  | .name frames name position =>
    match token.lexeme with
    -- Only a round bracket makes a name a function; anything else reads it as a whole expression.
    | .symbol (.opening .round) => .ok (.operand (.call name position [] :: frames) true)
    | _ => stepOperator frames (.ofIdentifier name position) token
  | .operator frames expression => stepOperator frames expression token

def finishOperator (frames : List Frame) (expression : Expr) : Except DefectReason Expr :=
  match reduce 0 frames expression with
  | ([], expression) => .ok expression
  | (frames, _) => .error (refusal frames none)

def finish : State → Except DefectReason Expr
  | .operand [] _ => .error .emptyExpression
  | .operand _ _ => .error (.noOperand none)
  | .name frames name position => finishOperator frames (.ofIdentifier name position)
  | .operator frames expression => finishOperator frames expression

def run (ends : Nat) (state : State) : List Token → Except Defect Expr
  | [] => (finish state).mapError fun reason => ⟨reason, some ends⟩
  | token :: tokens =>
    match step state token with
    | .ok state => run ends state tokens
    | .error reason => .error ⟨reason, some token.position⟩

def parse (tokens : List Token) (ends : Nat) : Except Defect Expr :=
  run ends (.operand [] false) tokens

end Parser

def Expr.parse (expression : Text) : Except Defect Expr := do
  Parser.parse (← Lexer.tokens expression) expression.length

end IndicatorFormula
