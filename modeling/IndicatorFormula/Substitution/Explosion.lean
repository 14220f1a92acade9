import IndicatorFormula.Substitution.Supply
import IndicatorFormula.Formula.Reference

/-! Exploding formulas: all that does not stand for data values is replaced by numbers. -/

set_option autoImplicit false
namespace IndicatorFormula

structure Figures where
  constants : Table Double := []
  groupCounts : Table Nat := []

def Catalog.figures (catalog : Catalog) : Figures where
  constants := catalog.constants.map fun constant => (constant.uid, constant.value)
  groupCounts := catalog.orgUnitGroups.map fun group => (group.uid, group.memberCount)

/-- The text for a reference that does not stand for a data value, which is zero where there is no
figure. -/
def explodeReference (figures : Figures) (days : Option Number) (reference : Reference) :
    Except Fault Text :=
  match reference.kind with
  | .constant => literalOrZero ((figures.constants.lookup reference.key).map .double)
  | .orgUnitGroup =>
    .ok (((figures.groupCounts.lookup reference.key).map Text.ofNat).getD missingLiteral)
  | .days => .ok ((days.map Number.write).getD missingLiteral)
  | _ => .ok reference.text

def explodePiece (figures : Figures) (days : Option Number) : Piece → Except Fault Text
  | .plain c => .ok [c]
  | .reference reference => explodeReference figures days reference

def explode (figures : Figures) (days : Option Number) (formula : Text) :
    Except Failure (Option Text) :=
  if formula.isEmpty then .ok none
  else do
    let texts ← ((Piece.ofText formula).mapM (explodePiece figures days)).mapError .fault
    return some texts.flatten

end IndicatorFormula
