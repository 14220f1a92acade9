import IndicatorFormula.Expression.Token

/-! Defects of expressions: why a text is no well-formed arithmetic, and where. -/

set_option autoImplicit false
namespace IndicatorFormula

/-- Why an expression is not well-formed. A lexeme that was found is absent at the end of the
text. -/
inductive DefectReason where
  | invalidNumber (literal : Text)
  | unexpectedCharacter (c : Char)
  | emptyExpression
  | extraTokens
  | unclosed (bracket : Bracket) (found : Option Lexeme)
  | noOperand (found : Option Lexeme)
  | unknownVariable (name : Text)
  | unknownFunction (name : Text)
  | invalidArguments (function : Text)
  | listAsNumber
  | listResult
  deriving DecidableEq

structure Defect where
  reason : DefectReason
  position : Option Nat
  deriving DecidableEq

namespace Defect

def wording (defect : Defect) : String :=
  let found (lexeme : Option Lexeme) := Lexeme.describe lexeme (defect.position.getD 0)
  match defect.reason with
  | .invalidNumber literal => "Invalid number '" ++ .ofList literal ++ "'"
  | .unexpectedCharacter c => "Unexpected character '" ++ .ofList [c] ++ "'"
  | .emptyExpression => "Empty expression"
  | .extraTokens => "Extra tokens after expression"
  | .unclosed bracket lexeme =>
    "Unexpected token " ++ found lexeme ++ ", expected TokenType." ++ (Symbol.closing bracket).name
  | .noOperand lexeme => "Unexpected token: " ++ found lexeme
  | .unknownVariable name => "Unknown variable '" ++ .ofList name ++ "'"
  | .unknownFunction name => "Unknown function '" ++ .ofList name ++ "'"
  | .invalidArguments function => "Invalid arguments for function '" ++ .ofList function ++ "'"
  | .listAsNumber => "List used as a number"
  | .listResult => "Expression evaluates to a list"

def message (defect : Defect) (expression : Text) : String :=
  let place :=
    match defect.position with
    | some position => " at position " ++ toString position
    | none => ""
  defect.wording ++ place ++ " parsing expression '" ++ .ofList expression ++ "'"

end Defect
end IndicatorFormula
