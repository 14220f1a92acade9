import IndicatorFormula.Expression.Evaluation
import IndicatorFormula.Proofs.Number.Range
import IndicatorFormula.Proofs.Outcome

/-! Where arithmetic has no result.

Operators between numbers fail for few operands only: for whole numbers beyond the range of
floating-point numbers, where floating-point numbers are asked for, and for the remainder of an
infinity. -/

set_option autoImplicit false
namespace IndicatorFormula

namespace Number

theorem toDouble_cases (x : Number) :
    (x.toDouble = .error .overflow ∧ x.IsHuge) ∨ ∃ value, x.toDouble = .ok value ∧ ¬x.IsHuge := by
  cases converted : x.toDouble with
  | error fault =>
    obtain ⟨rfl, huge⟩ := toDouble_eq_error_iff.mp converted
    exact .inl ⟨rfl, huge⟩
  | ok value =>
    refine .inr ⟨value, rfl, fun huge => ?_⟩
    rw [toDouble_eq_error_iff.mpr ⟨rfl, huge⟩] at converted
    cases converted

theorem converted_eq_error_iff {α : Type} {x y : Number} {fault : Fault}
    (next : Double → Double → α) (mixed : ¬(x.whole?.isSome ∧ y.whole?.isSome)) :
    (do let a ← x.toDouble; let b ← y.toDouble; return next a b) = .error fault ↔
      fault = .overflow ∧ Unconvertible x y := by
  have apart : x.IsHuge → y.whole? = none := fun huge => by
    simpa [Option.ne_none_iff_isSome.mp huge.whole?] using mixed
  have apart' : y.IsHuge → x.whole? = none := fun huge => by
    simpa [Option.ne_none_iff_isSome.mp huge.whole?] using mixed
  rcases toDouble_cases x with ⟨left, hugeLeft⟩ | ⟨a, left, small⟩
  · simp only [left]
    exact ⟨fun failed => by cases failed; exact ⟨rfl, .inl ⟨hugeLeft, apart hugeLeft⟩⟩,
      fun failed => by rw [failed.1]; rfl⟩
  rcases toDouble_cases y with ⟨right, hugeRight⟩ | ⟨b, right, small'⟩
  · simp only [left, right]
    exact ⟨fun failed => by cases failed; exact ⟨rfl, .inr ⟨apart' hugeRight, hugeRight⟩⟩,
      fun failed => by rw [failed.1]; rfl⟩
  · simp only [left, right]
    refine iff_of_false (fun failed => by cases failed) ?_
    rintro ⟨-, ⟨huge, -⟩ | ⟨-, huge⟩⟩
    · exact small huge
    · exact small' huge

theorem combine_eq_error_iff {ints : Int → Int → Int} {doubles : Double → Double → Double}
    {x y : Number} {fault : Fault} :
    combine ints doubles x y = .error fault ↔ fault = .overflow ∧ Unconvertible x y := by
  unfold combine
  split
  · rename_i a b left right
    refine iff_of_false (fun failed => by cases failed) ?_
    rintro ⟨-, ⟨-, none⟩ | ⟨none, -⟩⟩
    · simp [right] at none
    · simp [left] at none
  · rename_i apart
    refine converted_eq_error_iff (fun a b => Number.double (doubles a b)) fun both => ?_
    obtain ⟨⟨a, left⟩, ⟨b, right⟩⟩ :=
      both.imp Option.isSome_iff_exists.mp Option.isSome_iff_exists.mp
    exact apart a b left right

def ExceedsRange (x y : Number) : Prop :=
  ∃ a b, x.whole? = some a ∧ y.whole? = some b ∧ Double.rangeEnd * b.natAbs ≤ a.natAbs

theorem inRange_eq_error_iff {x : Double} {fault : Fault} :
    inRange x = .error fault ↔ fault = .overflow ∧ ∃ negative, x = .infinite negative := by
  cases x <;> simp [inRange, eq_comm]

theorem isZero_of_whole? {x : Number} {n : Int} (whole : x.whole? = some n) :
    x.isZero = (n == 0) := by
  cases x with
  | double value => cases whole
  | bool value =>
    cases whole
    cases value <;> rfl
  | int value =>
    cases whole
    rfl

theorem quotient_eq_error_iff {x y : Number} {fault : Fault} (nonzero : y.isZero = false) :
    quotient x y = .error fault ↔ fault = .overflow ∧ (Unconvertible x y ∨ ExceedsRange x y) := by
  unfold quotient
  split
  · rename_i a b left right
    have positive : 0 < b.natAbs := by
      rw [isZero_of_whole? right] at nonzero
      exact Int.natAbs_pos.mpr (by simpa using nonzero)
    have converts : ¬Unconvertible x y := by
      rintro (⟨-, none⟩ | ⟨none, -⟩)
      · rw [right] at none
        cases none
      · rw [left] at none
        cases none
    simp only [inRange_eq_error_iff, Double.ofRatio_eq_infinite_iff positive, exists_eq_right',
      ExceedsRange, left, right, converts, false_or, Option.some.injEq, existsAndEq, true_and]
  · rename_i apart
    have within : ¬ExceedsRange x y := fun ⟨a, b, left, right, _⟩ => apart a b left right
    have mixed : ¬(x.whole?.isSome ∧ y.whole?.isSome) := fun both => by
      obtain ⟨⟨a, left⟩, ⟨b, right⟩⟩ :=
        both.imp Option.isSome_iff_exists.mp Option.isSome_iff_exists.mp
      exact apart a b left right
    rw [converted_eq_error_iff (fun a b => a.div b) mixed]
    simp only [within, or_false]

theorem div_eq_error_iff {x y : Number} {fault : Fault} :
    div x y = .error fault ↔ fault = .overflow ∧
      if y.isZero then x.IsHuge else Unconvertible x y ∨ ExceedsRange x y := by
  unfold div
  cases zero : y.isZero with
  | true =>
    simp only [↓reduceIte]
    split
    · rename_i both
      refine iff_of_false (fun failed => by cases failed) fun ⟨_, huge⟩ => ?_
      rw [huge.isZero] at both
      cases both
    rcases toDouble_cases x with ⟨converted, huge⟩ | ⟨a, converted, small⟩
    · simp only [converted]
      exact ⟨fun failed => by cases failed; exact ⟨rfl, huge⟩, fun failed => by rw [failed.1]; rfl⟩
    · simp only [converted]
      refine iff_of_false (fun failed => ?_) fun ⟨_, huge⟩ => small huge
      change (if a.isNaN then _ else _) = _ at failed
      split at failed <;> cases failed
  | false =>
    simp only [Bool.false_eq_true, ↓reduceIte]
    rw [← quotient_eq_error_iff zero, bind_eq_error_iff]
    simp [Pure.pure, Except.pure]

theorem div_of_isZero {x y : Number} (zero : y.isZero = true) (small : ¬x.IsHuge) :
    ∃ value, div x y = .ok (.double value) ∧ value.isFinite = false := by
  unfold div
  rw [if_pos zero]
  split
  · exact ⟨.nan, rfl, rfl⟩
  rcases toDouble_cases x with ⟨_, huge⟩ | ⟨a, converted, _⟩
  · exact absurd huge small
  · rw [converted]
    change ∃ value, (if a.isNaN then Except.ok (double .nan) else _) = _ ∧ _
    split
    · exact ⟨.nan, rfl, rfl⟩
    · exact ⟨_, rfl, rfl⟩

theorem remainder_isNaN {a b : Double} (defined : a.isNaN = false) (defined' : b.isNaN = false) :
    (a.remainder b).isNaN = true ↔ (∃ negative, a = .infinite negative) ∨ b.isZero = true := by
  cases a with
  | nan => cases defined
  | infinite negative => cases b <;> simp_all [Double.remainder, Double.isNaN]
  | finite negative magnitude =>
    cases b with
    | nan => cases defined'
    | infinite negative' => simp [Double.remainder, Double.isNaN, Double.isZero]
    | finite negative' magnitude' =>
      simp only [Double.remainder, Double.isZero, beq_iff_eq, reduceCtorEq, exists_false, false_or]
      split
      · simp_all [Double.isNaN]
      · rename_i nonzero
        refine iff_of_false (fun undefined => ?_) nonzero
        rw [Double.ofUnits, Double.ofMagnitude_isNaN] at undefined
        cases undefined

theorem cases_of_toDouble {x : Number} {value : Double} (converted : x.toDouble = .ok value) :
    x = .double value ∨
      ∃ n, x.whole? = some n ∧ Double.ofInt n = value ∧ ∀ negative, value ≠ .infinite negative := by
  cases x with
  | double value =>
    cases converted
    exact .inl rfl
  | bool value =>
    cases converted
    refine .inr ⟨_, rfl, rfl, fun negative infinite => ?_⟩
    have range := (ofInt_eq_infinite_iff.mp infinite).1
    have large : 1 < Double.rangeEnd := by decide +kernel
    cases value <;> simp at range <;> omega
  | int n =>
    rw [toDouble_int] at converted
    split at converted
    · cases converted
    · rename_i finite
      cases converted
      exact .inr ⟨n, rfl, rfl, finite⟩

theorem toDouble_isZero {x : Number} {value : Double} (converted : x.toDouble = .ok value) :
    value.isZero = x.isZero := by
  rcases cases_of_toDouble converted with rfl | ⟨n, whole, rfl, -⟩
  · rfl
  · rw [isZero_of_whole? whole]
    by_cases zero : n = 0
    · subst zero
      decide
    · rw [Double.ofInt_isZero zero, beq_false_of_ne zero]

theorem toDouble_isNaN {x : Number} {value : Double} (converted : x.toDouble = .ok value) :
    value.isNaN = x.isNaN := by
  rcases cases_of_toDouble converted with rfl | ⟨n, whole, rfl, -⟩
  · rfl
  · have defined : x.isNaN = false := by cases x <;> first | rfl | cases whole
    rw [defined]
    exact Double.ofMagnitude_isNaN _ _

theorem toDouble_infinite {x : Number} {negative : Bool}
    (converted : x.toDouble = .ok (.infinite negative)) : x = .double (.infinite negative) := by
  rcases cases_of_toDouble converted with same | ⟨n, -, -, finite⟩
  · exact same
  · exact absurd rfl (finite negative)

theorem remainder_lost_iff {x y : Number} {a b : Double} (left : x.toDouble = .ok a)
    (right : y.toDouble = .ok b) (nonzero : y.isZero = false) :
    ((a.remainder b).isNaN && !a.isNaN && !b.isNaN) = true ↔
      (∃ negative, x = .double (.infinite negative)) ∧ y.isNaN = false := by
  have infinite : (∃ negative, a = .infinite negative) ↔
      ∃ negative, x = .double (.infinite negative) := by
    refine exists_congr fun negative => ⟨?_, ?_⟩
    · rintro rfl
      exact toDouble_infinite left
    · rintro rfl
      exact (Except.ok.inj left).symm
  rw [← infinite, ← toDouble_isNaN right]
  rw [← toDouble_isZero right] at nonzero
  simp only [Bool.and_eq_true, Bool.not_eq_eq_eq_not, Bool.not_true]
  constructor
  · rintro ⟨⟨lost, defined⟩, defined'⟩
    refine ⟨((remainder_isNaN defined defined').mp lost).resolve_right ?_, defined'⟩
    rw [nonzero]
    exact Bool.false_ne_true
  · rintro ⟨⟨negative, rfl⟩, defined'⟩
    exact ⟨⟨(remainder_isNaN rfl defined').mpr (.inl ⟨negative, rfl⟩), rfl⟩, defined'⟩

/-- The remainder fails for huge integers and for infinities. -/
theorem mod_eq_error_iff {x y : Number} {fault : Fault} (nonzero : y.isZero = false) :
    mod x y = .error fault ↔
      (fault = .overflow ∧ (x.IsHuge ∨ y.IsHuge)) ∨
        (fault = .domain ∧ (∃ negative, x = .double (.infinite negative)) ∧ y.isNaN = false ∧
          ¬y.IsHuge) := by
  unfold mod
  rw [nonzero, if_neg Bool.false_ne_true]
  rcases toDouble_cases x with ⟨left, huge⟩ | ⟨a, left, small⟩
  · have whole : ¬∃ negative, x = .double (.infinite negative) := by
      obtain ⟨n, rfl, _⟩ := huge
      rintro ⟨_, same⟩
      cases same
    rw [left]
    constructor
    · intro failed
      cases failed
      exact .inl ⟨rfl, .inl huge⟩
    · rintro (⟨rfl, -⟩ | ⟨-, infinity, -⟩)
      · rfl
      · exact absurd infinity whole
  rcases toDouble_cases y with ⟨right, huge⟩ | ⟨b, right, small'⟩
  · rw [left, right]
    constructor
    · intro failed
      cases failed
      exact .inl ⟨rfl, .inr huge⟩
    · rintro (⟨rfl, -⟩ | ⟨-, -, -, converts⟩)
      · rfl
      · exact absurd huge converts
  rw [left, right]
  change (if (a.remainder b).isNaN && !a.isNaN && !b.isNaN then Except.error Fault.domain
    else Except.ok (double (a.remainder b))) = _ ↔ _
  split
  · rename_i lost
    obtain ⟨infinity, defined⟩ := (remainder_lost_iff left right nonzero).mp lost
    simp [small, small', infinity, defined, eq_comm]
  · rename_i kept
    refine iff_of_false (fun failed => by cases failed) ?_
    rintro (⟨-, huge | huge⟩ | ⟨-, infinity, defined, -⟩)
    · exact small huge
    · exact small' huge
    · exact kept ((remainder_lost_iff left right nonzero).mpr ⟨infinity, defined⟩)

end Number

inductive BinaryOperator.Fails : BinaryOperator → Number → Number → Fault → Prop where
  /-- A huge integer is added to, subtracted from or multiplied with a floating-point number, or the
  other way round. -/
  | unconvertible {operator : BinaryOperator} {x y : Number}
      (plain : operator = .add ∨ operator = .sub ∨ operator = .mul) (mixed : x.Unconvertible y) :
      Fails operator x y .overflow
  | quotientByZero {x y : Number} (zero : y.isZero = true) (huge : x.IsHuge) :
      Fails .div x y .overflow
  | quotient {x y : Number} (nonzero : y.isZero = false)
      (large : x.Unconvertible y ∨ x.ExceedsRange y) : Fails .div x y .overflow
  | remainder {x y : Number} (nonzero : y.isZero = false) (huge : x.IsHuge ∨ y.IsHuge) :
      Fails .mod x y .overflow
  | remainderOfInfinity {negative : Bool} {y : Number} (nonzero : y.isZero = false)
      (defined : y.isNaN = false) (converts : ¬y.IsHuge) :
      Fails .mod (.double (.infinite negative)) y .domain

namespace Value

theorem arithmetic_of_toNumber {a b : Value} {x y : Number} (left : a.toNumber = .ok x)
    (right : b.toNumber = .ok y) (operation : Number → Number → Except Fault Number) :
    arithmetic operation a b = do return .number (← operation x y) := by
  simp only [arithmetic, left, right]
  rfl

theorem isZero_of_toNumber {a : Value} {x : Number} (number : a.toNumber = .ok x) :
    a.isZero = x.isZero := by
  cases a with
  | number y =>
    cases number
    rfl
  | undefined mark =>
    cases number
    rfl
  | _ => cases number

theorem bind_pure_eq_error_iff {α β ε : Type} {x : Except ε α} {next : α → β} {error : ε} :
    (do return next (← x)) = Except.error error ↔ x = .error error := by
  rw [bind_eq_error_iff]
  exact or_iff_left fun ⟨_, _, failed⟩ => by cases failed

theorem plain_eq_error_iff {operator : BinaryOperator} {a b : Value} {x y : Number} {fault : Fault}
    {ints : Int → Int → Int} {doubles : Double → Double → Double} (left : a.toNumber = .ok x)
    (right : b.toNumber = .ok y) (plain : operator = .add ∨ operator = .sub ∨ operator = .mul) :
    arithmetic (Number.combine ints doubles) a b = .error fault ↔ operator.Fails x y fault := by
  rw [arithmetic_of_toNumber left right, bind_pure_eq_error_iff, Number.combine_eq_error_iff]
  constructor
  · rintro ⟨rfl, mixed⟩
    exact .unconvertible plain mixed
  · intro fails
    cases fails with
    | unconvertible _ mixed => exact ⟨rfl, mixed⟩
    | _ => simp at plain

theorem div_eq_error_iff {a b : Value} {x y : Number} {fault : Fault} (left : a.toNumber = .ok x)
    (right : b.toNumber = .ok y) :
    a.div b = .error fault ↔ BinaryOperator.Fails .div x y fault := by
  simp only [div, left, right]
  change (do
      let quotient ← x.div y
      return if b.isZero && quotient.isNaN then nan else .number quotient) = _ ↔ _
  rw [bind_pure_eq_error_iff, Number.div_eq_error_iff]
  constructor
  · rintro ⟨rfl, large⟩
    cases zero : y.isZero with
    | true => exact .quotientByZero zero (by simpa [zero] using large)
    | false => exact .quotient zero (by simpa [zero] using large)
  · intro fails
    cases fails with
    | unconvertible plain _ => simp at plain
    | quotientByZero zero huge => simp [zero, huge]
    | quotient nonzero large => simp [nonzero, large]

theorem mod_eq_error_iff {a b : Value} {x y : Number} {fault : Fault} (left : a.toNumber = .ok x)
    (right : b.toNumber = .ok y) :
    a.mod b = .error fault ↔ BinaryOperator.Fails .mod x y fault := by
  simp only [mod, left, right, isZero_of_toNumber right]
  cases nonzero : y.isZero with
  | true =>
    refine iff_of_false (fun failed => by cases failed) fun fails => ?_
    cases fails with
    | unconvertible plain _ => simp at plain
    | remainder regular _ => simp [nonzero] at regular
    | remainderOfInfinity regular _ _ => simp [nonzero] at regular
  | false =>
    have fails_iff : BinaryOperator.Fails .mod x y fault ↔ x.mod y = .error fault := by
      rw [Number.mod_eq_error_iff nonzero]
      constructor
      · intro fails
        cases fails with
        | unconvertible plain _ => simp at plain
        | remainder _ huge => exact .inl ⟨rfl, huge⟩
        | remainderOfInfinity _ defined converts => exact .inr ⟨rfl, ⟨_, rfl⟩, defined, converts⟩
      · rintro (⟨rfl, huge⟩ | ⟨rfl, ⟨negative, rfl⟩, defined, converts⟩)
        · exact .remainder nonzero huge
        · exact .remainderOfInfinity nonzero defined converts
    rw [fails_iff]
    change (do let _ ← x.toDouble; return number (← x.mod y)) = _ ↔ _
    rw [bind_eq_error_iff]
    constructor
    · rintro (converted | ⟨_, _, failed⟩)
      · obtain ⟨rfl, huge⟩ := Number.toDouble_eq_error_iff.mp converted
        exact (Number.mod_eq_error_iff nonzero).mpr (.inl ⟨rfl, .inl huge⟩)
      · exact bind_pure_eq_error_iff.mp failed
    · intro failed
      rcases Number.toDouble_cases x with ⟨converted, huge⟩ | ⟨value, converted, _⟩
      · have overflow : x.mod y = .error .overflow :=
          (Number.mod_eq_error_iff nonzero).mpr (.inl ⟨rfl, .inl huge⟩)
        rw [failed] at overflow
        cases overflow
        exact .inl converted
      · exact .inr ⟨value, converted, bind_pure_eq_error_iff.mpr failed⟩

theorem mod_of_isZero {a b : Value} {y : Number} (right : b.toNumber = .ok y)
    (zero : y.isZero = true) : a.mod b = .ok nan := by
  rw [mod, isZero_of_toNumber right, if_pos zero]
  rfl

theorem div_of_isZero {a b : Value} {x y : Number} (left : a.toNumber = .ok x)
    (right : b.toNumber = .ok y) (zero : y.isZero = true) (small : ¬x.IsHuge) :
    ∃ value result, a.div b = .ok value ∧ value.toNumber = .ok (.double result) ∧
      result.isFinite = false := by
  obtain ⟨result, divided, infinite⟩ := Number.div_of_isZero zero small
  by_cases undefined : (b.isZero && (Number.double result).isNaN) = true
  · refine ⟨nan, .nan, ?_, rfl, rfl⟩
    rw [div, left, right]
    change (do
        let quotient ← x.div y
        return if b.isZero && quotient.isNaN then nan else .number quotient) = _
    rw [divided]
    exact congrArg Except.ok (if_pos undefined)
  · refine ⟨.number (.double result), result, ?_, rfl, infinite⟩
    rw [div, left, right]
    change (do
        let quotient ← x.div y
        return if b.isZero && quotient.isNaN then nan else .number quotient) = _
    rw [divided]
    exact congrArg Except.ok (if_neg undefined)

theorem pow_ne_error {a b : Value} {x y : Number} (left : a.toNumber = .ok x)
    (right : b.toNumber = .ok y) (fault : Fault) : a.pow b ≠ .error fault := by
  intro failed
  unfold pow at failed
  rcases bind_eq_error_iff.mp failed with unread | ⟨base, -, failed⟩
  · rw [left] at unread
    cases unread
  split at failed
  · cases failed
  rcases bind_eq_error_iff.mp failed with unread | ⟨exponent, -, failed⟩
  · rw [right] at unread
    cases unread
  · cases failed

theorem compare_of_toNumber {a b : Value} {x y : Number} (left : a.toNumber = .ok x)
    (right : b.toNumber = .ok y) (order : Number → Number → Bool) :
    a.compare order b = .ok (bool (order x y)) := by
  simp only [compare, left, right]
  rfl

end Value

/-- An operator fails exactly for the numbers that it has no result for. -/
theorem Expr.applyArithmetic_eq_error_iff {operator : BinaryOperator} {a b : Value} {x y : Number}
    {fault : Fault} (left : a.toNumber = .ok x) (right : b.toNumber = .ok y) :
    applyArithmetic operator a b = .error fault ↔ operator.Fails x y fault := by
  have total : ∀ {operator : BinaryOperator} {value : Value}, operator ∉
        [.add, .sub, .mul, .div, .mod] →
      ((Except.ok value : Except Fault Value) = .error fault ↔ operator.Fails x y fault) := by
    intro operator value total
    refine iff_of_false (fun failed => nomatch failed) fun fails => ?_
    cases fails with
    | unconvertible plain _ => rcases plain with rfl | rfl | rfl <;> simp at total
    | _ => simp at total
  cases operator with
  | or | and | eq | ne => exact total (by decide)
  | gt | lt | ge | le =>
    simp only [applyArithmetic, Value.compare_of_toNumber left right]
    exact total (by decide)
  | add | sub | mul => exact Value.plain_eq_error_iff left right (by decide)
  | div => exact Value.div_eq_error_iff left right
  | mod => exact Value.mod_eq_error_iff left right
  | pow =>
    refine iff_of_false (Value.pow_ne_error left right fault) fun fails => ?_
    cases fails with
    | unconvertible plain _ => simp at plain

end IndicatorFormula
