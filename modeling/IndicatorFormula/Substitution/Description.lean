import IndicatorFormula.Journal

/-! Describing formulas: every reference is replaced by the name of the object that it stands
for. -/

set_option autoImplicit false
namespace IndicatorFormula

/-- The name of the object that a reference stands for. A name must not hold a reference itself. -/
def describeReference (catalog : Catalog) (reference : Reference) : Except FormulaError Text :=
  match catalog.resolveReference reference with
  | .error error => .error (.badReference reference error)
  | .ok object =>
    if (references object.displayName).isEmpty then .ok object.displayName
    else .error (.misleadingName object.displayName reference)

def describePiece (catalog : Catalog) : Piece → Except FormulaError Text
  | .plain c => .ok [c]
  | .reference reference => describeReference catalog reference

def describe (catalog : Catalog) (formula : Text) : Except FormulaError Text := do
  return (← (Piece.ofText formula).mapM (describePiece catalog)).flatten

end IndicatorFormula
