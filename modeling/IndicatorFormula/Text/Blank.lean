import IndicatorFormula.Text.Ranges

/-! Blanks: the characters of Unicode 14 that separate words without being seen. -/

set_option autoImplicit false
namespace IndicatorFormula.Text

def blankRanges : List (Nat × Nat) :=
  [ (0x9, 0xd), (0x1c, 0x20), (0x85, 0x85), (0xa0, 0xa0),
    (0x1680, 0x1680), (0x2000, 0x200a), (0x2028, 0x2029), (0x202f, 0x202f),
    (0x205f, 0x205f), (0x3000, 0x3000) ]

def isBlank (c : Char) : Bool :=
  inRanges blankRanges c.toNat

def trim (text : Text) : Text :=
  ((text.dropWhile isBlank).reverse.dropWhile isBlank).reverse

theorem exists_trim (text : Text) :
    ∃ lead behind, text = lead ++ (trim text ++ behind) ∧ (∀ c ∈ lead, isBlank c = true) ∧
      ∀ c ∈ behind, isBlank c = true := by
  have blank : ∀ {text : Text}, ∀ c ∈ text.takeWhile isBlank, isBlank c = true := fun {text} =>
    List.all_eq_true.mp List.all_takeWhile
  refine ⟨text.takeWhile isBlank, ((text.dropWhile isBlank).reverse.takeWhile isBlank).reverse, ?_,
    blank, fun c member => blank c (List.mem_reverse.mp member)⟩
  rw [trim, ← List.reverse_append, List.takeWhile_append_dropWhile, List.reverse_reverse,
    List.takeWhile_append_dropWhile]

end IndicatorFormula.Text
