import IndicatorFormula.Text.Basic

/-! Capital letters of the function vocabulary.

Two characters outside ASCII are small forms of an ASCII capital, the long s and the dotless i. Two
more match one regardless of case although they are capitals of their own, the dotted capital I and
the Kelvin sign. -/

set_option autoImplicit false
namespace IndicatorFormula.Text

/-- The capital of a small ASCII letter, a long s or a dotless i. Other characters stay as they
are. -/
def capital (c : Char) : Char :=
  if c = 'ſ' then 'S' else if c = 'ı' then 'I' else c.toUpper

def spells (expected c : Char) : Bool :=
  capital c == expected || (expected == 'I' && c == 'İ') || (expected == 'K' && c == '\u212a')

def spelled? : (name : Text) → Text → Option (Text × Text)
  | [], text => some ([], text)
  | _ :: _, [] => none
  | expected :: name, c :: text =>
    if spells expected c
      then (spelled? name text).map fun found => (c :: found.1, found.2) else none

theorem eq_of_spelled? {name text lead rest : Text}
    (found : spelled? name text = some (lead, rest)) : text = lead ++ rest := by
  induction name generalizing text lead with
  | nil => cases found; rfl
  | cons expected name ih =>
    cases text with
    | nil => cases found
    | cons c text =>
      unfold spelled? at found
      split at found
      · obtain ⟨⟨lead', rest'⟩, split, equal⟩ := Option.map_eq_some_iff.1 found
        cases equal
        rw [ih split, List.cons_append]
      · cases found

end IndicatorFormula.Text
