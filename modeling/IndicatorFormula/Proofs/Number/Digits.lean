import IndicatorFormula.Number.Decimal
import Mathlib.Data.List.TakeWhile
import Mathlib.Tactic.Ring

/-! Reading digits.

A text of ASCII digits is read as the number that it spells, and stripping final zeros divides it by
a power of ten. -/

set_option autoImplicit false
namespace IndicatorFormula

def Text.IsDecimal (text : Text) : Prop :=
  ∀ c ∈ text, c.isDigit = true

namespace Text

theorem decimalValue?_of_isDigit {c : Char} (digit : c.isDigit = true) :
    decimalValue? c = some (c.toNat - '0'.toNat) := by
  obtain ⟨low, high⟩ : 48 ≤ c.toNat ∧ c.toNat ≤ 57 := by
    simpa [Char.isDigit, UInt32.le_iff_toNat_le] using digit
  have first : (decide (0x30 ≤ c.toNat) && decide (c.toNat < 0x30 + 10)) = true := by
    simp only [Bool.and_eq_true, decide_eq_true_eq]
    omega
  simp [decimalValue?, zeroDigits, first]

theorem isDecimal_ofNat (n : Nat) : IsDecimal (ofNat n) :=
  fun _ member => Nat.isDigit_of_mem_toDigits (by decide) (by decide) member

theorem IsDecimal.append {first second : Text} (left : IsDecimal first) (right : IsDecimal second) :
    IsDecimal (first ++ second) := by
  intro c member
  rcases List.mem_append.mp member with member | member
  · exact left c member
  · exact right c member

theorem isDecimal_zeros (count : Nat) : IsDecimal (List.replicate count '0') := by
  intro c member
  rw [List.eq_of_mem_replicate member]
  rfl

theorem IsDecimal.take {text : Text} (decimal : IsDecimal text) (count : Nat) :
    IsDecimal (text.take count) :=
  fun c member => decimal c (List.mem_of_mem_take member)

theorem IsDecimal.drop {text : Text} (decimal : IsDecimal text) (count : Nat) :
    IsDecimal (text.drop count) :=
  fun c member => decimal c (List.mem_of_mem_drop member)

theorem stripped_append_zeros (text : Text) :
    ∃ count, text = (text.reverse.dropWhile (· == '0')).reverse ++ List.replicate count '0' := by
  refine ⟨(text.reverse.takeWhile (· == '0')).length, ?_⟩
  have zeros : (text.reverse.takeWhile (· == '0')).reverse
      = List.replicate (text.reverse.takeWhile (· == '0')).length '0' := by
    refine List.eq_replicate_iff.mpr ⟨List.length_reverse, fun c member => ?_⟩
    have zero := List.mem_takeWhile_imp (List.mem_reverse.mp member)
    exact beq_iff_eq.mp zero
  rw [← zeros, ← List.reverse_append, List.takeWhile_append_dropWhile, List.reverse_reverse]

end Text

namespace Decimal

theorem readDigits_append (value : Nat) {digits : Text} (rest : Text) (decimal : digits.IsDecimal)
    (ends : ∀ c ∈ rest.head?, Text.decimalValue? c = none) :
    readDigits value (digits ++ rest) = (Nat.ofDigitChars 10 digits value, rest) := by
  induction digits generalizing value with
  | nil =>
    cases rest with
    | nil => rfl
    | cons c rest => simp [readDigits, ends c rfl]
  | cons c digits ih =>
    have digit := Text.decimalValue?_of_isDigit (decimal c List.mem_cons_self)
    have later : Text.IsDecimal digits := fun d member => decimal d (List.mem_cons_of_mem c member)
    simp only [List.cons_append, readDigits, digit, ih _ later, Nat.ofDigitChars_cons]

theorem ofDigitChars_append_zeros (digits : Text) (count value : Nat) :
    Nat.ofDigitChars 10 (digits ++ List.replicate count '0') value =
      10 ^ count * Nat.ofDigitChars 10 digits value := by
  rw [Nat.ofDigitChars_append, Nat.ofDigitChars_replicate_zero]

end Decimal
end IndicatorFormula
