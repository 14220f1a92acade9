import IndicatorFormula.Proofs.Expression.Lexemes

/-! Literals of numbers.

The text of every magnitude is a literal that is read as that magnitude. A literal is numeric
characters and an exponent, in which no name begins. -/

set_option autoImplicit false
namespace IndicatorFormula.Lexer

def IsExponent (text : Text) : Prop :=
  splitExponent text = (text, [])

def IsLiteral (text : Text) : Prop :=
  ∃ numeric exponent, text = numeric ++ exponent ∧ (∀ c ∈ numeric, isNumeric c = true) ∧
    IsExponent exponent

theorem isExponent_nil : IsExponent [] :=
  rfl

theorem IsExponent.parts {text : Text} (exponent : IsExponent text) (some : text ≠ []) :
    ∃ mark sign digits, text = mark :: (sign ++ digits) ∧ (mark = 'e' ∨ mark = 'E') ∧
      (sign = [] ∨ sign = ['+'] ∨ sign = ['-']) ∧ digits ≠ [] ∧
      ∀ c ∈ digits, Text.isDigit c = true := by
  cases text with
  | nil => exact absurd rfl some
  | cons mark rest =>
    simp only [IsExponent, splitExponent] at exponent
    split at exponent
    · rename_i marked
      obtain ⟨lead, tail⟩ := Prod.mk.inj exponent
      -- An exponent that is the whole text leaves nothing behind its digits.
      have digits : ∀ c ∈ (splitSign rest).2, Text.isDigit c = true :=
        List.dropWhile_eq_nil_iff.mp tail
      refine ⟨mark, (splitSign rest).1, (splitSign rest).2, ?_, ?_, ?_, ?_, digits⟩
      · rw [splitSign_append]
      · simp only [Bool.and_eq_true, Bool.or_eq_true, decide_eq_true_eq] at marked
        exact marked.1
      · unfold splitSign
        split <;> simp
      · intro none
        simp [none] at marked
    · cases exponent

theorem splitSign_of_parts {sign digits : Text} (signed : sign = [] ∨ sign = ['+'] ∨ sign = ['-'])
    (some : digits ≠ []) (each : ∀ c ∈ digits, Text.isDigit c = true) :
    splitSign (sign ++ digits) = (sign, digits) := by
  -- Without a sign the first digit must not be taken for one.
  rcases signed with rfl | rfl | rfl
  · cases digits with
    | nil => exact absurd rfl some
    | cons c digits =>
      have digit := each c List.mem_cons_self
      refine splitSign_of_unsigned ?_ ?_ digits <;> rintro rfl <;> exact absurd digit (by decide)
  · rfl
  · rfl

theorem isExponent_of_parts {mark : Char} (sign : Text) {digits : Text}
    (marked : mark = 'e' ∨ mark = 'E') (signed : sign = [] ∨ sign = ['+'] ∨ sign = ['-'])
    (some : digits ≠ []) (each : ∀ c ∈ digits, Text.isDigit c = true) :
    IsExponent (mark :: (sign ++ digits)) := by
  have split := splitSign_of_parts signed some each
  have head : digits.head?.any Text.isDigit = true := by
    cases digits with
    | nil => exact absurd rfl some
    | cons c digits => exact each c List.mem_cons_self
  have marked : (mark = 'e' || mark = 'E') = true := by
    rcases marked with rfl | rfl <;> rfl
  simp only [IsExponent, splitExponent, split, head, marked, Bool.and_self, ↓reduceIte]
  rw [List.takeWhile_eq_self_iff.mpr each, List.dropWhile_eq_nil_iff.mpr each]
  rfl

theorem IsLiteral.forall {literal : Text} {holds : Char → Prop} (isLiteral : IsLiteral literal)
    (numeric : ∀ c, isNumeric c = true → holds c) (marks : ∀ c ∈ ['e', 'E', '+', '-'], holds c) :
    ∀ c ∈ literal, holds c := by
  obtain ⟨whole, exponent, rfl, each, isExponent⟩ := isLiteral
  intro c member
  rcases List.mem_append.mp member with member | member
  · exact numeric c (each c member)
  · obtain ⟨mark, sign, digits, rfl, marked, signed, -, isDigit⟩ :=
      isExponent.parts (List.ne_nil_of_mem member)
    rcases List.mem_cons.mp member with rfl | member
    · rcases marked with rfl | rfl <;> exact marks _ (by decide)
    rcases List.mem_append.mp member with member | member
    · rcases signed with rfl | rfl | rfl
      · exact absurd member List.not_mem_nil
      · exact List.mem_singleton.mp member ▸ marks _ (by decide)
      · exact List.mem_singleton.mp member ▸ marks _ (by decide)
    · exact numeric c (by simp [isNumeric, isDigit c member])

theorem isNumeric_of_isExponent {text : Text} (exponent : IsExponent text) :
    ∀ c ∈ text.head?, isNumeric c = false := by
  intro c found
  have some : text ≠ [] := by
    rintro rfl
    cases found
  obtain ⟨mark, sign, digits, rfl, marked, -⟩ := exponent.parts some
  cases found
  rcases marked with rfl | rfl <;> decide

theorem splitNumber_of_parts {c : Char} {numeric exponent : Text}
    (each : ∀ d ∈ numeric, isNumeric d = true) (isExponent : IsExponent exponent) :
    splitNumber c (numeric ++ exponent) = (c :: (numeric ++ exponent), []) := by
  obtain ⟨taken, dropped⟩ := takeWhile_of_head (isNumeric_of_isExponent isExponent)
  unfold IsExponent at isExponent
  simp only [splitNumber, List.takeWhile_append_of_pos each, List.dropWhile_append_of_pos each,
    taken, dropped, isExponent, List.append_nil, List.cons_append]

theorem isDigit_of_decimal {text : Text} (decimal : text.IsDecimal) :
    ∀ c ∈ text, Text.isDigit c = true := by
  intro c member
  simp [Text.isDigit, Text.decimalValue?_of_isDigit (decimal c member)]

theorem isNumeric_of_decimal {text : Text} (decimal : text.IsDecimal) :
    ∀ c ∈ text, isNumeric c = true := by
  intro c member
  simp [isNumeric, isDigit_of_decimal decimal c member]

theorem isNumber_of_parts {c : Char} {numeric exponent : Text} {decimal : Decimal}
    (digit : Text.isDigit c = true) (each : ∀ d ∈ numeric, isNumeric d = true)
    (isExponent : IsExponent exponent)
    (read : Decimal.read? (c :: (numeric ++ exponent)) = some decimal) :
    IsNumber (c :: (numeric ++ exponent)) (decimal.toDouble false) :=
  .intro (by simp [startsNumber, digit]) (splitNumber_of_parts each isExponent) read

theorem isNumeric_of_startsNumber {c : Char} {rest : Text} (starts : startsNumber c rest = true) :
    isNumeric c = true := by
  unfold startsNumber at starts
  rcases Bool.or_eq_true_iff.mp starts with digit | point
  · simp [isNumeric, digit]
  · simp [isNumeric, (Bool.and_eq_true_iff.mp point).1]

theorem IsNumber.isLiteral {literal : Text} {value : Double} (number : IsNumber literal value) :
    IsLiteral literal := by
  cases number with
  | @intro c rest decimal starts whole read =>
    refine ⟨c :: rest.takeWhile isNumeric, rest.dropWhile isNumeric, ?_, ?_,
      splitExponent_of_splitNumber whole⟩
    · rw [List.cons_append, List.takeWhile_append_dropWhile]
    · intro d member
      rcases List.mem_cons.mp member with rfl | member
      · exact isNumeric_of_startsNumber starts
      · exact List.mem_takeWhile_imp member

theorem isNumeric_point {fraction : Text} (decimal : fraction.IsDecimal) :
    ∀ c ∈ '.' :: fraction, isNumeric c = true := by
  intro c member
  rcases List.mem_cons.mp member with rfl | member
  · rfl
  · exact isNumeric_of_decimal decimal c member

def IsWritten (text : Text) : Prop :=
  ∃ c numeric exponent, text = c :: (numeric ++ exponent) ∧ Text.isDigit c = true ∧
    (∀ d ∈ numeric, isNumeric d = true) ∧ IsExponent exponent

theorem isWritten_of_decimal {whole numeric exponent : Text} (decimal : whole.IsDecimal)
    (some : whole ≠ []) (each : ∀ c ∈ numeric, isNumeric c = true)
    (isExponent : IsExponent exponent) : IsWritten (whole ++ (numeric ++ exponent)) := by
  cases whole with
  | nil => exact absurd rfl some
  | cons c whole =>
    refine ⟨c, whole ++ numeric, exponent, by simp, isDigit_of_decimal decimal c List.mem_cons_self,
      ?_, isExponent⟩
    intro d member
    rcases List.mem_append.mp member with member | member
    · exact isNumeric_of_decimal decimal d (List.mem_cons_of_mem _ member)
    · exact each d member

theorem isExponent_exponentPart (layout : NumberLayout) (exponent : Int) :
    IsExponent (layout.exponentPart exponent) := by
  have digits := isDigit_of_decimal (layout.isDecimal_power exponent)
  have some := layout.power_ne_nil exponent
  unfold NumberLayout.exponentPart
  split
  · exact isExponent_of_parts ['-'] (.inl rfl) (by simp) some digits
  · exact isExponent_of_parts ['+'] (.inl rfl) (by simp) some digits

theorem isWritten_positional {digits : Text} (exponent : Int) (decimal : digits.IsDecimal)
    (some : digits ≠ []) : IsWritten (NumberLayout.positional digits exponent) := by
  have zeros := Text.isDecimal_zeros
  unfold NumberLayout.positional
  split
  · have written := isWritten_of_decimal (zeros 1) (by simp)
      (isNumeric_point ((zeros (-exponent - 1).toNat).append decimal)) isExponent_nil
    simpa using written
  -- Zeros fill up the places before the point, so that there is a digit before it in any case.
  · have leads : digits.take (exponent.toNat + 1) ++
          List.replicate (exponent.toNat + 1 - digits.length) '0' ≠ [] := by
      have := List.length_pos_iff.mpr some
      rw [← List.length_pos_iff, List.length_append, List.length_take, List.length_replicate]
      omega
    have fraction : Text.IsDecimal (if (digits.drop (exponent.toNat + 1)).isEmpty then ['0'] else
        digits.drop (exponent.toNat + 1)) := by
      split
      · exact zeros 1
      · exact decimal.drop _
    have written :=
      isWritten_of_decimal ((decimal.take _).append (zeros _)) leads (isNumeric_point fraction)
        isExponent_nil
    rwa [List.append_nil] at written

theorem isWritten_scientific (layout : NumberLayout) {digits : Text} (exponent : Int)
    (decimal : digits.IsDecimal) (some : digits ≠ []) :
    IsWritten (layout.scientific digits exponent) := by
  rw [NumberLayout.scientific_eq]
  refine isWritten_of_decimal (decimal.take 1) ?_ ?_ (isExponent_exponentPart layout exponent)
  · have := List.length_pos_iff.mpr some
    rw [← List.length_pos_iff, List.length_take]
    omega
  · split
    · exact fun _ member => absurd member List.not_mem_nil
    · exact isNumeric_point (decimal.drop 1)

theorem isWritten_magnitude (layout : NumberLayout) {m : Nat} (positive : 0 < m)
    (finite : m < finiteMagnitudes) : IsWritten (layout.magnitude m) := by
  have digits := NumberLayout.isDecimal_significant (Decimal.shortest m)
  have some := NumberLayout.significant_ne_nil (Decimal.shortest_spec positive finite).2.1
  rw [NumberLayout.magnitude_eq layout positive.ne']
  split
  · exact isWritten_positional _ digits some
  · exact isWritten_scientific layout _ digits some

def Stops (text : Text) : Prop :=
  ∃ digits mark rest, text = digits ++ mark :: rest ∧ digits ≠ [] ∧
    (∀ c ∈ digits, Text.isDigit c = true) ∧ (mark = '.' ∨ mark = 'e')

theorem stops_positional {digits : Text} (exponent : Int) (decimal : digits.IsDecimal)
    (some : digits ≠ []) : Stops (NumberLayout.positional digits exponent) := by
  have zeros := Text.isDecimal_zeros
  unfold NumberLayout.positional
  split
  · exact ⟨['0'], '.', _, rfl, by simp, isDigit_of_decimal (zeros 1), .inl rfl⟩
  · refine ⟨_, '.', _, rfl, ?_, isDigit_of_decimal ((decimal.take _).append (zeros _)), .inl rfl⟩
    have := List.length_pos_iff.mpr some
    rw [← List.length_pos_iff, List.length_append, List.length_take, List.length_replicate]
    omega

theorem stops_scientific (layout : NumberLayout) {digits : Text} (exponent : Int)
    (decimal : digits.IsDecimal) (some : digits ≠ []) :
    Stops (layout.scientific digits exponent) := by
  rw [NumberLayout.scientific_eq]
  have leads : digits.take 1 ≠ [] := by
    have := List.length_pos_iff.mpr some
    rw [← List.length_pos_iff, List.length_take]
    omega
  have each := isDigit_of_decimal (decimal.take 1)
  split
  · exact ⟨digits.take 1, 'e', _, rfl, leads, each, .inr rfl⟩
  · exact ⟨digits.take 1, '.', _, rfl, leads, each, .inl rfl⟩

theorem stops_magnitude (layout : NumberLayout) {m : Nat} (finite : m < finiteMagnitudes) :
    Stops (layout.magnitude m) := by
  rcases Nat.eq_zero_or_pos m with rfl | positive
  · exact ⟨['0'], '.', ['0'], rfl, by simp, by decide, .inl rfl⟩
  · have digits := NumberLayout.isDecimal_significant (Decimal.shortest m)
    have some := NumberLayout.significant_ne_nil (Decimal.shortest_spec positive finite).2.1
    rw [NumberLayout.magnitude_eq layout positive.ne']
    split
    · exact stops_positional _ digits some
    · exact stops_scientific layout _ digits some

/-- The text of a magnitude is a literal of its number. -/
theorem isNumber_magnitude (m : Fin finiteMagnitudes) :
    IsNumber (numberLayout.magnitude m) (.finite false m) := by
  rcases Nat.eq_zero_or_pos m.val with zero | positive
  -- Zero is written apart from all other magnitudes.
  · have same : m = ⟨0, by decide⟩ := Fin.ext zero
    subst same
    have each : ∀ c ∈ ['.', '0'], isNumeric c = true := by decide
    exact isNumber_of_parts (c := '0') (by decide) each isExponent_nil rfl
  · obtain ⟨c, numeric, exponent, shape, digit, each, isExponent⟩ :=
      isWritten_magnitude numberLayout positive m.isLt
    obtain ⟨decimal, read, value⟩ := NumberLayout.toDouble_of_rereads positive m.isLt
      (NumberLayout.rereads_magnitude numberLayout positive m.isLt)
    rw [Double.ofMagnitude, dif_pos m.isLt] at value
    rw [shape] at read ⊢
    rw [← value]
    exact isNumber_of_parts digit each isExponent read

theorem isNumber_ofNat (n : Nat) : IsNumber (Text.ofNat n) (.ofInt n) := by
  have some : Text.ofNat n ≠ [] := List.length_pos_iff.mp (Decimal.length_ofNat_pos n)
  have read : Decimal.read? (Text.ofNat n) = .some ⟨n, 0⟩ := by
    have whole := Decimal.read?_whole [] (Text.isDecimal_ofNat n) some fun c found => nomatch found
    rwa [List.append_nil, Decimal.ofDigitChars_ofNat] at whole
  -- Both are the magnitude nearest to as many ones.
  have value : Decimal.toDouble false ⟨n, 0⟩ = .ofInt n := by
    rcases Nat.eq_zero_or_pos n with rfl | positive
    · decide
    · have near : ¬ (0 + (Nat.toDigits 10 n).length < (-400 : Int)) := by omega
      have sign : decide ((n : Int) < 0) = false := by simp
      simp only [Decimal.toDouble, positive.ne', near, Decimal.magnitude, Double.ofInt,
        Double.ofRatio, Double.ofUnits, sign]
      simp
  obtain ⟨c, numeric, exponent, shape, digit, each, isExponent⟩ :=
    isWritten_of_decimal (Text.isDecimal_ofNat n)
      some (fun _ member => absurd member List.not_mem_nil) isExponent_nil
  rw [List.append_nil, List.append_nil] at shape
  rw [← value, shape]
  exact isNumber_of_parts digit each isExponent (shape ▸ read)

end IndicatorFormula.Lexer
