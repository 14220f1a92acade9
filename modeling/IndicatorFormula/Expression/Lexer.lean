import IndicatorFormula.Expression.Defect
import IndicatorFormula.Text.Blank
import IndicatorFormula.Text.Word

/-! Cutting expressions into tokens.

Each step reads the blank, number, identifier or symbol that a text begins with and goes on behind
it. Numbers and identifiers are as long as they can be, and symbols of two characters come before
those of one. -/

set_option autoImplicit false
namespace IndicatorFormula.Lexer

def isNumeric (c : Char) : Bool :=
  Text.isDigit c || c == '.'

def splitSign : Text → Text × Text
  | '+' :: behind => (['+'], behind)
  | '-' :: behind => (['-'], behind)
  | text => ([], text)

theorem splitSign_append (text : Text) : (splitSign text).1 ++ (splitSign text).2 = text := by
  unfold splitSign
  split <;> rfl

/-- Splits off an exponent: a mark, an optional sign and at least one digit. Anything else is no
exponent. -/
def splitExponent : Text → Text × Text
  | [] => ([], [])
  | mark :: rest =>
    let signed := splitSign rest
    if (mark = 'e' || mark = 'E') && signed.2.head?.any Text.isDigit then
      (mark :: signed.1 ++ signed.2.takeWhile Text.isDigit, signed.2.dropWhile Text.isDigit)
    else ([], mark :: rest)

theorem splitExponent_append (text : Text) :
    (splitExponent text).1 ++ (splitExponent text).2 = text := by
  match text with
  | [] => rfl
  | mark :: rest =>
    simp only [splitExponent]
    split
    · simp [List.takeWhile_append_dropWhile, splitSign_append]
    · rfl

def splitNumber (c : Char) (rest : Text) : Text × Text :=
  let exponent := splitExponent (rest.dropWhile isNumeric)
  (c :: rest.takeWhile isNumeric ++ exponent.1, exponent.2)

theorem splitNumber_append (c : Char) (rest : Text) :
    (splitNumber c rest).1 ++ (splitNumber c rest).2 = c :: rest := by
  simp [splitNumber, splitExponent_append, List.takeWhile_append_dropWhile]

/-- Whether a number begins with `c`: a digit, or a point that a digit follows. -/
def startsNumber (c : Char) (rest : Text) : Bool :=
  Text.isDigit c || (c == '.' && rest.head?.any Text.isDigit)

/-- Reads what a text begins with, and gives the text behind it. Blanks are no lexeme. -/
def next (c : Char) (rest : Text) : Except DefectReason (Option Lexeme × Text) :=
  if Text.isBlank c then .ok (none, rest)
  else if startsNumber c rest then
    match Decimal.read? (splitNumber c rest).1 with
    | some decimal => .ok (some (.number (decimal.toDouble false)), (splitNumber c rest).2)
    | none => .error (.invalidNumber (splitNumber c rest).1)
  else if Text.isWordStart c then
    .ok (some (.identifier (c :: rest.takeWhile Text.isWord)), rest.dropWhile Text.isWord)
  else
    match rest.head?.bind (Symbol.ofPair? c) with
    | some symbol => .ok (some (.symbol symbol), rest.drop 1)
    | none =>
      match Symbol.ofChar? c with
      | some symbol => .ok (some (.symbol symbol), rest)
      | none => .error (.unexpectedCharacter c)

theorem length_le_of_next {c : Char} {rest behind : Text} {lexeme : Option Lexeme}
    (step : next c rest = .ok (lexeme, behind)) : behind.length ≤ rest.length := by
  unfold next at step
  split at step
  · cases step; exact Nat.le_refl _
  split at step
  · split at step
    · cases step
      have whole := congrArg List.length (splitNumber_append c rest)
      have leads : 0 < (splitNumber c rest).1.length := by simp [splitNumber]
      simp at whole
      omega
    · cases step
  split at step
  · cases step; exact (List.dropWhile_sublist _).length_le
  split at step
  · cases step; simp
  · split at step
    · cases step; exact Nat.le_refl _
    · cases step

def tokensFrom (position : Nat) : Text → Except Defect (List Token)
  | [] => .ok []
  | c :: rest =>
    match _step : next c rest with
    | .error reason => .error ⟨reason, some position⟩
    | .ok (lexeme, behind) => do
      let tokens ← tokensFrom (position + (rest.length + 1 - behind.length)) behind
      return match lexeme with
        | some lexeme => ⟨lexeme, position⟩ :: tokens
        | none => tokens
termination_by text => text.length
decreasing_by
  have := length_le_of_next _step
  simp
  omega

def tokens (expression : Text) : Except Defect (List Token) :=
  tokensFrom 0 expression

end IndicatorFormula.Lexer
