import IndicatorFormula.Proofs.Substitution.Leniency
import IndicatorFormula.Proofs.Substitution.Operands

/-! Literals of numbers, read as expressions.

A finite number is read back from its literal, also in the parentheses of a negative one. Infinities
and undefined numbers are written as words, though, and a word is read as a name. -/

set_option autoImplicit false
namespace IndicatorFormula

/-- The mistake that the literal of a number is read as: the word of one that is not finite is the
name of nothing. -/
def Double.misreading? : Double → Option Defect
  | .nan => some ⟨.unknownVariable "nan".toList, some 0⟩
  | .infinite false => some ⟨.unknownVariable "inf".toList, some 0⟩
  -- Parentheses and the sign come before the word.
  | .infinite true => some ⟨.unknownVariable "inf".toList, some 2⟩
  | .finite .. => none

theorem Double.isSome_misreading? (value : Double) :
    value.misreading?.isSome = !value.isFinite := by
  rcases value with - | (_ | _) | _ <;> rfl

section Calculation

variable {settings : Settings} {strict allowAggregates : Bool} {text : Text}

theorem calculate_of_double {value : Double}
    (evaluated : evaluate (allowedFunctions allowAggregates) text = .ok (.double value)) :
    calculate settings strict allowAggregates text = pure value.finite? := by
  unfold calculate
  rw [evaluated]
  rfl

theorem calculate_of_defect {defect : Defect}
    (evaluated : evaluate (allowedFunctions allowAggregates) text = .error (.defect defect)) :
    (calculate settings true allowAggregates text).outcome =
      .error (.formula (.notWellFormed defect text)) := by
  unfold calculate
  rw [evaluated]
  rfl

theorem evaluate_of_tokens {functions : List Builtin} {tokens : List Token} {tree : Expr}
    (cut : Lexer.tokens text = .ok tokens) (parsed : Parser.parse tokens text.length = .ok tree) :
    evaluate functions text = tree.eval { functions } := by
  have whole : Expr.parse text = .ok tree := by
    rw [Expr.parse, cut]
    exact parsed
  rw [evaluate, whole]
  rfl

end Calculation

theorem Segment.evaluate_ofMagnitude (functions : List Builtin) (negative : Bool)
    (m : Fin finiteMagnitudes) :
    evaluate functions ((ofMagnitude negative m).flatMap text) =
      .ok (.double (.finite negative m)) := by
  have none : ∀ lead found tail, .reference lead found tail ∉ ofMagnitude negative m := by
    intro lead found tail
    cases negative <;> simp [ofMagnitude]
  have fits : Fits (.reference [] ⟨.days, []⟩ []) (ofMagnitude negative m) :=
    fits_ofMagnitude negative m
  have lexes := fits.regular.lexes none
  -- The sign of a negative number is applied to its magnitude.
  obtain ⟨tree, reads, value⟩ : ∃ tree : Expr, Parser.tree
          ((ofMagnitude negative m).flatMap lexemes) = .ok tree ∧
      tree.eval { functions } = .ok (.double (.finite negative m)) := by
    cases negative with
    | false => exact ⟨.number (.finite false m), rfl, rfl⟩
    | true => exact ⟨.unary .minus 0 (.number (.finite false m)), rfl, rfl⟩
  have same : (evaluate functions ((ofMagnitude negative m).flatMap text)).mapError
        Breakdown.unplaced = .ok (.double (.finite negative m)) :=
    (evaluate_of_lexes lexes reads).trans value
  cases evaluated : evaluate functions ((ofMagnitude negative m).flatMap text) with
  | ok result =>
    rw [evaluated] at same
    exact same
  | error breakdown =>
    rw [evaluated] at same
    cases same

/-- The word for a number that is not finite is read as a name without a value. -/
theorem evaluate_misreading {value : Double} {defect : Defect}
    (misread : value.misreading? = some defect) :
    ∃ text, (.double value : Number).literal = .ok text ∧
      ∀ functions, evaluate functions text = .error (.defect defect) := by
  rcases value with - | (_ | _) | ⟨negative, m⟩
  · cases misread
    refine ⟨"nan".toList, by decide, ?_⟩
    have cut : Lexer.tokens "nan".toList = .ok [⟨.identifier "nan".toList, 0⟩] := by decide +kernel
    exact fun functions => evaluate_of_tokens cut rfl
  · cases misread
    refine ⟨"inf".toList, by decide, ?_⟩
    have cut : Lexer.tokens "inf".toList = .ok [⟨.identifier "inf".toList, 0⟩] := by decide +kernel
    exact fun functions => evaluate_of_tokens cut rfl
  · cases misread
    refine ⟨"(-inf)".toList, by decide, ?_⟩
    have cut : Lexer.tokens "(-inf)".toList =
        .ok [⟨.symbol (.opening .round), 0⟩, ⟨.symbol (.operator .sub), 1⟩,
          ⟨.identifier "inf".toList, 2⟩, ⟨.symbol (.closing .round), 5⟩] := by
      decide +kernel
    exact fun functions => evaluate_of_tokens cut rfl
  · cases misread

theorem Number.literal_of_toDouble {x : Number} {value : Double}
    (converted : x.toDouble = .ok value) : x.literal = (.double value : Number).literal := by
  unfold literal
  rw [converted]
  rfl

/-- Every number that has a floating-point number can be written. If that is finite then it is what
the literal is calculated to, under all settings, strictly or not, down to the sign of a zero. If
not then strict calculation refuses the literal for a name without a value, and lenient calculation
gives zero. -/
theorem calculate_literal {x : Number} {value : Double} (converted : x.toDouble = .ok value) :
    ∃ text, x.literal = .ok text ∧
      (value.isFinite = true →
        ∀ settings strict allowAggregates, calculate settings strict allowAggregates text =
          pure (some value)) ∧
      (value.isFinite = false →
        ∃ defect, value.misreading? = some defect ∧
          ∀ settings allowAggregates, (calculate settings true allowAggregates text).outcome =
              .error (.formula (.notWellFormed defect text)) ∧
            (calculate settings false allowAggregates text).outcome =
              .ok (some (.zero false))) := by
  cases finite : value.isFinite with
  | true =>
    obtain ⟨negative, m, rfl⟩ : ∃ negative m, value = .finite negative m := by
      cases value with
      | finite negative m => exact ⟨negative, m, rfl⟩
      | nan | infinite => cases finite
    refine ⟨_, Segment.literal_eq converted, fun _ settings strict allowAggregates => ?_, nofun⟩
    exact calculate_of_double (Segment.evaluate_ofMagnitude _ negative m)
  | false =>
    have misread := value.isSome_misreading?
    rw [finite] at misread
    obtain ⟨defect, misread⟩ := Option.isSome_iff_exists.mp misread
    obtain ⟨text, written, evaluated⟩ := evaluate_misreading misread
    refine ⟨text, (Number.literal_of_toDouble converted).trans written, nofun,
      fun _ => ⟨defect, misread, ?_⟩⟩
    intro settings allowAggregates
    have strict : (calculate settings true allowAggregates text).outcome =
        .error (.formula (.notWellFormed defect text)) :=
      calculate_of_defect (evaluated _)
    exact ⟨strict, by rw [outcome_calculate, strict]⟩

theorem calculate_literal_negative :
    (.int (-3) : Number).literal = .ok "(-3.0)".toList ∧
      calculate {} true true "(-3.0)".toList = pure (some (.ofInt (-3))) := by
  have converted : (.int (-3) : Number).toDouble = .ok (.ofInt (-3)) := by decide +kernel
  have literal : (.int (-3) : Number).literal = .ok "(-3.0)".toList := by decide +kernel
  obtain ⟨text, written, finite, -⟩ := calculate_literal converted
  cases literal.symm.trans written
  exact ⟨literal, finite (by decide +kernel) {} true true⟩

/-- Infinity is not calculated to none. -/
theorem calculate_literal_infinite :
    ¬ ∀ (x : Number) (value : Double) (text : Text), x.toDouble = .ok value → x.literal = .ok text →
      (calculate {} true true text).outcome = .ok value.finite? := by
  intro readsBack
  have refused : (calculate {} true true "inf".toList).outcome ≠
      .ok (Double.infinite false).finite? := by
    decide +kernel
  exact refused
    (readsBack (.double (.infinite false)) (.infinite false) "inf".toList rfl (by decide +kernel))

end IndicatorFormula
