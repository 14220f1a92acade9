import IndicatorFormula.Number.Decimal
import IndicatorFormula.Text.Quoted

/-! Tokens of expressions: numbers, identifiers, operators, brackets and the comma. -/

set_option autoImplicit false
namespace IndicatorFormula

inductive UnaryOperator where
  | minus | plus | not
  deriving DecidableEq, Repr

inductive BinaryOperator where
  | or | and | gt | lt | ge | le | eq | ne | add | sub | mul | div | mod | pow
  deriving DecidableEq, Repr

inductive Bracket where
  | round | square
  deriving DecidableEq, Repr

inductive Symbol where
  | opening (bracket : Bracket)
  | closing (bracket : Bracket)
  | comma
  | not
  | operator (operator : BinaryOperator)
  deriving DecidableEq, Repr

namespace Symbol

def text : Symbol → Text
  | .opening .round => ['(']
  | .opening .square => ['[']
  | .closing .round => [')']
  | .closing .square => [']']
  | .comma => [',']
  | .not => ['!']
  | .operator .or => ['|', '|']
  | .operator .and => ['&', '&']
  | .operator .gt => ['>']
  | .operator .lt => ['<']
  | .operator .ge => ['>', '=']
  | .operator .le => ['<', '=']
  | .operator .eq => ['=', '=']
  | .operator .ne => ['!', '=']
  | .operator .add => ['+']
  | .operator .sub => ['-']
  | .operator .mul => ['*']
  | .operator .div => ['/']
  | .operator .mod => ['%']
  | .operator .pow => ['^']

def name : Symbol → String
  | .opening .round => "LPAREN"
  | .opening .square => "LBRACKET"
  | .closing .round => "RPAREN"
  | .closing .square => "RBRACKET"
  | .comma => "COMMA"
  | .not => "NOT"
  | .operator .or => "OR"
  | .operator .and => "AND"
  | .operator .gt => "GT"
  | .operator .lt => "LT"
  | .operator .ge => "GTE"
  | .operator .le => "LTE"
  | .operator .eq => "EQ"
  | .operator .ne => "NE"
  | .operator .add => "PLUS"
  | .operator .sub => "MINUS"
  | .operator .mul => "MUL"
  | .operator .div => "DIV"
  | .operator .mod => "MOD"
  | .operator .pow => "POW"

def ofPair? : Char → Char → Option Symbol
  | '>', '=' => some (.operator .ge)
  | '<', '=' => some (.operator .le)
  | '=', '=' => some (.operator .eq)
  | '!', '=' => some (.operator .ne)
  | '&', '&' => some (.operator .and)
  | '|', '|' => some (.operator .or)
  | _, _ => none

def ofChar? : Char → Option Symbol
  | '+' => some (.operator .add)
  | '-' => some (.operator .sub)
  | '*' => some (.operator .mul)
  | '/' => some (.operator .div)
  | '%' => some (.operator .mod)
  | '^' => some (.operator .pow)
  | '>' => some (.operator .gt)
  | '<' => some (.operator .lt)
  | '!' => some .not
  | '(' => some (.opening .round)
  | ')' => some (.closing .round)
  | '[' => some (.opening .square)
  | ']' => some (.closing .square)
  | ',' => some .comma
  | _ => none

def unary? : Symbol → Option UnaryOperator
  | .operator .sub => some .minus
  | .operator .add => some .plus
  | .not => some .not
  | _ => none

end Symbol

def UnaryOperator.symbol : UnaryOperator → Symbol
  | .minus => .operator .sub
  | .plus => .operator .add
  | .not => .not

inductive Lexeme where
  | number (value : Double)
  | identifier (name : Text)
  | symbol (symbol : Symbol)
  deriving DecidableEq

structure Token where
  lexeme : Lexeme
  position : Nat
  deriving DecidableEq

def Lexeme.describe (lexeme : Option Lexeme) (position : Nat) : String :=
  let what :=
    match lexeme with
    | none => "EOF(None)"
    | some (.number value) => "NUMBER(" ++ .ofList value.write ++ ")"
    | some (.identifier name) => "IDENTIFIER(" ++ .ofList name.quoted ++ ")"
    | some (.symbol sign) => sign.name ++ "(" ++ .ofList sign.text.quoted ++ ")"
  what ++ " at " ++ toString position

end IndicatorFormula
