import IndicatorFormula.Text.Ranges

/-! Lines of text. -/

set_option autoImplicit false
namespace IndicatorFormula.Text

def lineEndRanges : List (Nat × Nat) :=
  [(0xa, 0xd), (0x1c, 0x1e), (0x85, 0x85), (0x2028, 0x2029)]

def isLineEnd (c : Char) : Bool :=
  inRanges lineEndRanges c.toNat

/-- The lines of a text without their ends. A carriage return ends a line together with the line
feed behind it. What stands behind the last end is a line only if there is something. -/
def lines : Text → List Text
  | [] => []
  | '\r' :: '\n' :: rest => [] :: lines rest
  | c :: rest =>
    if isLineEnd c then [] :: lines rest
    else
      match lines rest with
      | [] => [[c]]
      | line :: others => (c :: line) :: others

end IndicatorFormula.Text
