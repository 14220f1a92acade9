import IndicatorFormula.Proofs.Formula.Segment

/-! Placeholders in literals.

A placeholder for a reference may stand among the digits of a number. It has a point, so there is
one at most, and the digits and the exponent behind it are as well those of a number that begins
with another digit. -/

set_option autoImplicit false
namespace IndicatorFormula

namespace Decimal

def isDecimal (c : Char) : Bool :=
  (Text.decimalValue? c).isSome

theorem readDigits_snd (value : Nat) (text : Text) :
    (readDigits value text).2 = text.dropWhile isDecimal := by
  induction text generalizing value with
  | nil => rfl
  | cons c rest ih =>
    unfold readDigits
    cases digit : Text.decimalValue? c with
    | none => simp [isDecimal, digit]
    | some n => simp [isDecimal, digit, ih]

theorem point_not_mem_takeWhile (text : Text) : '.' ∉ text.takeWhile isDecimal := by
  intro member
  exact absurd (List.mem_takeWhile_imp member) (by decide)

theorem point_not_mem_of_readDigits {value : Nat} {text : Text}
    (whole : (readDigits value text).2 = []) : '.' ∉ text := by
  rw [readDigits_snd] at whole
  intro point
  exact absurd (List.dropWhile_eq_nil_iff.mp whole '.' point) (by decide)

theorem point_not_mem_of_readExponent? {text : Text} {exponent : Int}
    (read : readExponent? text = some exponent) : '.' ∉ text := by
  cases text with
  | nil => exact List.not_mem_nil
  | cons mark rest =>
    have signed : ∃ sign digits, rest = sign ++ digits ∧ '.' ∉ sign ∧
        ((mark = 'e' || mark = 'E') && !digits.isEmpty && (readDigits 0 digits).2.isEmpty) =
          true := by
      simp only [readExponent?] at read
      split at read
      · exact ⟨['-'], _, rfl, by decide, (Option.ite_none_right_eq_some.mp read).1⟩
      · exact ⟨['+'], _, rfl, by decide, (Option.ite_none_right_eq_some.mp read).1⟩
      · exact ⟨[], _, rfl, by decide, (Option.ite_none_right_eq_some.mp read).1⟩
    obtain ⟨sign, digits, rfl, plain, shape⟩ := signed
    simp only [Bool.and_eq_true, Bool.or_eq_true, decide_eq_true_eq, List.isEmpty_iff] at shape
    obtain ⟨⟨marked, -⟩, whole⟩ := shape
    rw [List.mem_cons, List.mem_append]
    rintro (same | member | member)
    · rw [← same] at marked
      exact absurd marked (by decide)
    · exact plain member
    · exact point_not_mem_of_readDigits whole member

theorem count_point_le {text : Text} {decimal : Decimal} (read : read? text = some decimal) :
    text.count '.' ≤ 1 := by
  have lead : (text.takeWhile isDecimal).count '.' = 0 :=
    List.count_eq_zero.mpr (point_not_mem_takeWhile text)
  rw [← List.takeWhile_append_dropWhile (p := isDecimal) (l := text), List.count_append, lead,
    Nat.zero_add]
  unfold read? at read
  rw [← readDigits_snd 0]
  generalize readDigits 0 text = found at read ⊢
  obtain ⟨whole, behind⟩ := found
  simp only at read
  split at read
  · rename_i fraction
    split at read
    · cases read
    · obtain ⟨exponent, later, -⟩ := Option.map_eq_some_iff.mp read
      rw [readDigits_snd] at later
      -- A point is read between digits only, and the exponent holds none.
      have digits : (fraction.takeWhile isDecimal).count '.' = 0 :=
        List.count_eq_zero.mpr (point_not_mem_takeWhile fraction)
      have rest := List.count_eq_zero.mpr (point_not_mem_of_readExponent? later)
      have none : fraction.count '.' = 0 := by
        rw [← List.takeWhile_append_dropWhile (p := isDecimal) (l := fraction), List.count_append,
          digits, rest]
      simp [none]
  · split at read
    · cases read
    · obtain ⟨exponent, later, -⟩ := Option.map_eq_some_iff.mp read
      rw [List.count_eq_zero.mpr (point_not_mem_of_readExponent? later)]
      exact Nat.zero_le 1

theorem read?_zero {tail : Text} {decimal : Decimal}
    (read : read? (placeholder ++ tail) = some decimal) :
    ∃ other, read? ('0' :: tail) = some other := by
  -- The point of the placeholder is read, so its digits behind the point are followed by the same
  -- rest.
  have first : readDigits 0 (placeholder ++ tail) = (1, '.' :: '1' :: tail) := rfl
  have second : (readDigits 1 ('1' :: tail)).2 = tail.dropWhile isDecimal := by
    rw [readDigits_snd]
    exact List.dropWhile_cons_of_pos (by decide)
  have zero : readDigits 0 ('0' :: tail) = readDigits 0 tail := rfl
  unfold read? at read ⊢
  rw [first] at read
  simp only [second] at read
  split at read
  · cases read
  obtain ⟨exponent, later, -⟩ := Option.map_eq_some_iff.mp read
  have rest : (readDigits 0 tail).2 = tail.dropWhile isDecimal := readDigits_snd 0 tail
  have shorter : (tail.dropWhile isDecimal).length ≤ tail.length :=
    (List.dropWhile_sublist _).length_le
  rw [zero]
  generalize readDigits 0 tail = found at rest
  obtain ⟨whole, behind⟩ := found
  cases rest
  have places : ('0' :: tail).length - (tail.dropWhile isDecimal).length ≠ 0 := by
    rw [List.length_cons]
    omega
  simp only
  split
  · rename_i fraction point
    rw [point] at later
    exact absurd List.mem_cons_self (point_not_mem_of_readExponent? later)
  · exact ⟨_, by rw [if_neg places, later]; rfl⟩

end Decimal

namespace Lexer

def literalValue (literal : Text) : Double :=
  ((Decimal.read? literal).map (Decimal.toDouble false)).getD .nan

theorem IsNumber.value {literal : Text} {value : Double} (number : IsNumber literal value) :
    value = literalValue literal := by
  cases number with
  | intro starts whole read =>
    unfold literalValue
    rw [read]
    rfl

theorem isExponent_splitExponent (text : Text) : IsExponent (splitExponent text).1 := by
  cases text with
  | nil => rfl
  | cons mark rest =>
    simp only [splitExponent]
    split
    · rename_i exponent
      simp only [Bool.and_eq_true, Bool.or_eq_true, decide_eq_true_eq] at exponent
      obtain ⟨marked, digit⟩ := exponent
      have signed : (splitSign rest).1 = [] ∨ (splitSign rest).1 = ['+'] ∨
          (splitSign rest).1 = ['-'] := by
        unfold splitSign
        split <;> simp
      refine isExponent_of_parts (splitSign rest).1 marked signed ?_
        fun c member => List.mem_takeWhile_imp member
      cases digits : (splitSign rest).2 with
      | nil =>
        rw [digits] at digit
        cases digit
      | cons c digits' =>
        rw [digits] at digit
        have digit : Text.isDigit c = true := digit
        simp [digit]
    · rfl

theorem isNumber_of_next {c : Char} {rest behind : Text} {value : Double}
    (step : next c rest = .ok (some (.number value), behind)) :
    startsNumber c rest = true ∧ IsNumber (splitNumber c rest).1 value ∧
      behind = (splitNumber c rest).2 := by
  cases next_eq_ok_iff.mp step with
  | number _ starts read =>
    refine ⟨starts, .intro ?_ ?_ read, rfl⟩
    · unfold startsNumber at starts ⊢
      rcases Bool.or_eq_true_iff.mp starts with digit | point
      · simp [digit]
      · cases rest with
        | nil => simp at point
        | cons d rest =>
          have digit : Text.isDigit d = true := (Bool.and_eq_true_iff.mp point).2
          have numeric : isNumeric d = true := by simp [isNumeric, digit]
          rw [List.takeWhile_cons_of_pos numeric]
          exact starts
    · exact splitNumber_of_parts (fun d member => List.mem_takeWhile_imp member)
        (isExponent_splitExponent _)

/-- A number goes on behind a zero as behind a placeholder. -/
theorem IsNumber.zero {tail : Text} {value : Double}
    (number : IsNumber (placeholder ++ tail) value) :
    IsNumber ('0' :: tail) (literalValue ('0' :: tail)) := by
  generalize same : placeholder ++ tail = literal at number
  cases number with
  | @intro c rest decimal starts whole read =>
    rw [← same] at read
    obtain ⟨-, rfl⟩ := List.cons.inj same
    obtain ⟨other, zero⟩ := Decimal.read?_zero read
    have exponent : IsExponent (['.', '1'] ++ tail |>.dropWhile isNumeric) :=
      splitExponent_of_splitNumber whole
    rw [List.dropWhile_append_of_pos (by decide)] at exponent
    rw [← List.takeWhile_append_dropWhile (p := isNumeric) (l := tail)] at zero ⊢
    have number :=
      isNumber_of_parts (c := '0') (by decide) (fun d member => List.mem_takeWhile_imp member)
        exponent zero
    rwa [← number.value]

end Lexer

namespace Segment

def held : Segment → Segment
  | .reference lead _ tail =>
    .number (lead ++ placeholder ++ tail) (Lexer.literalValue (lead ++ placeholder ++ tail))
  | segment => segment

end Segment
end IndicatorFormula
