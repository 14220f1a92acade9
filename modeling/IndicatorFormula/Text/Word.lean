import IndicatorFormula.Text.Letter
import IndicatorFormula.Text.Digit

/-! Word characters, which names and identifiers are made of. -/

set_option autoImplicit false
namespace IndicatorFormula.Text

def isAlphanumeric (c : Char) : Bool :=
  isLetter c || isDigit c || isOtherNumeral c

def isWord (c : Char) : Bool :=
  isAlphanumeric c || c == '_'

def isWordStart (c : Char) : Bool :=
  isLetter c || c == '_'

end IndicatorFormula.Text
