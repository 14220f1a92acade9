import IndicatorFormula.Text.Basic

/-! Sets of code points, given as ranges in increasing order. -/

set_option autoImplicit false
namespace IndicatorFormula.Text

/-- Membership in a set of ranges, both ends included. The ranges are disjoint and increasing, so
the search ends at the first range that begins behind the code point. -/
def inRanges : List (Nat × Nat) → Nat → Bool
  | [], _ => false
  | (first, last) :: rest, n =>
    if n < first then false else n ≤ last || inRanges rest n

end IndicatorFormula.Text
