/-! Text as the formulas of this library read and change it: a list of characters.

Positions and lengths count characters. -/

set_option autoImplicit false
namespace IndicatorFormula

abbrev Text := List Char

namespace Text

/-- What holds of all characters of a text is decided from character to character, and not from all
characters there are. -/
instance (priority := 2000) decidableForallMem (text : Text) (holds : Char → Prop)
    [DecidablePred holds] : Decidable (∀ c ∈ text, holds c) :=
  List.decidableBAll holds text

def ofNat (n : Nat) : Text :=
  Nat.toDigits 10 n

def ofInt (n : Int) : Text :=
  if n < 0 then '-' :: ofNat n.natAbs else ofNat n.natAbs

def join (separator : Text) (texts : List Text) : Text :=
  separator.intercalate texts

def after? : (beginning : Text) → Text → Option Text
  | [], text => some text
  | _ :: _, [] => none
  | expected :: beginning, c :: text => if expected = c then after? beginning text else none

theorem after?_eq_some_iff {beginning text behind : Text} :
    after? beginning text = some behind ↔ text = beginning ++ behind := by
  induction beginning generalizing text with
  | nil => simp [after?]
  | cons expected beginning ih =>
    cases text with
    | nil => simp [after?]
    | cons c text =>
      by_cases same : expected = c
      · simp [after?, same, ih]
      · simp [after?, same, Ne.symm same]

/-- Replaces every occurrence of `old`, found from left to right without overlap. An empty `old`
occurs nowhere. -/
def replace (old new : Text) : Text → Text
  | [] => []
  | c :: rest =>
    match _found : after? old (c :: rest) with
    | some behind =>
      if _nonempty : old = [] then c :: replace old new rest else new ++ replace old new behind
    | none => c :: replace old new rest
termination_by text => text.length
decreasing_by
  · simp
  · have whole := congrArg List.length (after?_eq_some_iff.1 _found)
    have leads : 0 < old.length := List.length_pos_iff.2 _nonempty
    simp at whole ⊢
    omega
  · simp

end Text
end IndicatorFormula
