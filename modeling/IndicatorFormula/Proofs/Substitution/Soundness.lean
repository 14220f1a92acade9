import IndicatorFormula.Proofs.Substitution.Clearing
import IndicatorFormula.Proofs.Substitution.Operands

/-! Valid formulas are well-formed with all values.

A formula is validated with one number for all references. With other numbers it is well-formed,
too, if its references stand alone, its tests ask for items only, and no value decides whether there
is a list where a number should be. -/

set_option autoImplicit false
namespace IndicatorFormula

/-- Whether it is known without any values where there are lists in a formula. It is not if a
condition chooses between a number and a list, or if a list is among the arguments of a function
that may have no value for the other arguments. -/
def isDefinite (formula : Text) : Bool :=
  match Expr.parse (placeholderText formula) with
  | .ok tree => tree.shape?.isSome
  | .error _ => false

def Piece.Parted : Piece → Piece → Prop
  | .plain c, .reference _ => Text.isWord c = false
  | .reference _, .plain c => Text.isWord c = false ∧ c ≠ '.'
  | _, _ => True

instance (first second : Piece) : Decidable (first.Parted second) :=
  match first, second with
  | .plain c, .reference _ => inferInstanceAs (Decidable (Text.isWord c = false))
  | .reference _, .plain c => inferInstanceAs (Decidable (Text.isWord c = false ∧ c ≠ '.'))
  | .plain _, .plain _ => .isTrue trivial
  | .reference _, .reference _ => .isTrue trivial

/-- No reference of a formula touches a word or a number. -/
def ReferencesAlone (formula : Text) : Prop :=
  (Piece.ofText formula).IsChain Piece.Parted

instance (formula : Text) : Decidable (ReferencesAlone formula) :=
  inferInstanceAs (Decidable ((Piece.ofText formula).IsChain Piece.Parted))

open Segment (text lexemes Regular Alone filled heldLexemes)

namespace Segment

variable {kept : Text → Prop} {functions : List Builtin} {numbers : Supply}
  {segments : List Segment}

theorem isWord_of_literal {c : Char} {rest : Text} (literal : Lexer.IsLiteral (c :: rest)) :
    Text.isWord c = true ∨ c = '.' := by
  obtain ⟨numeric, exponent, same, each, isExponent⟩ := literal
  cases numeric with
  | nil =>
    have some : exponent ≠ [] := by
      rintro rfl
      cases same
    obtain ⟨mark, sign, digits, rfl, marked, -⟩ := isExponent.parts some
    cases same
    rcases marked with rfl | rfl <;> exact .inl (by decide)
  | cons d numeric =>
    cases same
    have numeric := each c List.mem_cons_self
    unfold Lexer.isNumeric at numeric
    rcases Bool.or_eq_true_iff.mp numeric with digit | point
    · exact .inl (Lexer.isWord_of_isDigit digit)
    · exact .inr (beq_iff_eq.mp point)

theorem Regular.alone (regular : Regular segments)
    (alone : ReferencesAlone (segments.flatMap text)) : Alone segments := by
  intro lead found tail member
  rw [ReferencesAlone, regular.ofText] at alone
  obtain ⟨before, behind, rfl⟩ := List.append_of_mem member
  rw [List.flatMap_append, List.flatMap_cons] at alone
  obtain ⟨-, within, between⟩ := List.isChain_append.mp alone.right_of_append.left_of_append
  -- What stands beside the reference within its segment is a digit or goes on in a literal.
  cases regular.formed _ member with
  | reference legible digits fresh literal =>
  constructor
  · cases last : lead.getLast? with
    | none => exact List.getLast?_eq_none_iff.mp last
    | some c =>
      have parted : Text.isWord c = false :=
        between (.plain c) (by simp [last]) (.reference found) rfl
      rw [Lexer.isWord_of_isDigit (digits c (List.mem_of_getLast? last))] at parted
      cases parted
  · cases tail with
    | nil => rfl
    | cons c tail =>
      obtain ⟨notWord, notPoint⟩ : Text.isWord c = false ∧ c ≠ '.' :=
        (List.isChain_cons_cons.mp within).1
      rcases isWord_of_literal literal with word | point
      · rw [word] at notWord
        cases notWord
      · exact absurd point notPoint

/-- A valid formula of definite shape is well-formed with other operands. -/
theorem Valid.evaluates (valid : Valid functions segments)
    (definite : isDefinite (segments.flatMap text) = true)
    (plain : ∀ name, kept name → ¬ IsSampled name) {filled : Text} {others : List Lexeme}
    (lexes : Lexer.Lexes filled others)
    (exchanges : ∀ tree, Parser.tree (heldLexemes segments) = .ok tree →
      ∃ other, Parser.tree others = .ok other ∧ tree.Exchanges kept other) :
    Evaluates (fun value => value.isList = false) (evaluate Builtin.all filled) := by
  obtain ⟨tree, value, reads, evaluated, single⟩ := valid.value
  obtain ⟨placed, parsed, same⟩ := Expr.parse_of_lexes (valid.regular.lexes_held valid.held) reads
  -- The shape that is known is that of the value with placeholders, so it is no list.
  unfold isDefinite at definite
  simp only [parsed] at definite
  rw [← Expr.shape?_unplaced, same] at definite
  obtain ⟨shape, shaped⟩ := Option.isSome_iff_exists.mp definite
  -- The other lexemes have a tree, and its value is of that shape.
  obtain ⟨other, reads', exchange⟩ := exchanges tree reads
  obtain ⟨list, evaluates⟩ := exchange.keeps plain shaped evaluated
  have unplaced : (evaluate Builtin.all filled).mapError Breakdown.unplaced = other.eval {} :=
    evaluate_of_lexes lexes reads'
  rw [← unplaced] at evaluates
  cases evaluated : evaluate Builtin.all filled with
  | error breakdown =>
    rw [evaluated] at evaluates
    obtain ⟨fault, failed⟩ := evaluates
    cases breakdown with
    | defect reason => cases failed
    | fault reason => exact ⟨reason, rfl⟩
  | ok value' =>
    rw [evaluated] at evaluates
    obtain ⟨-, kind⟩ := evaluates
    refine Value.isList_eq_false_iff.mpr ?_
    cases shape with
    | single => exact kind
    | list => cases (Value.isList_eq_false_iff.mp single).symm.trans (list rfl)

end Segment

theorem calculate_of_evaluates {expression : Text}
    (evaluates : Evaluates (fun value => value.isList = false) (evaluate Builtin.all expression))
    (settings : Settings) (strict : Bool) (error : FormulaError) :
    (calculate settings strict true expression).outcome ≠ .error (.formula error) := by
  have allowed : allowedFunctions true = Builtin.all := rfl
  unfold calculate
  rw [allowed]
  cases evaluated : evaluate Builtin.all expression with
  | error breakdown =>
    rw [evaluated] at evaluates
    obtain ⟨fault, rfl⟩ := evaluates
    exact nofun
  | ok value =>
    rw [evaluated] at evaluates
    have single : value.isList = false := evaluates
    simp only [single]
    cases value.toDouble with
    | error fault => exact nofun
    | ok result => exact nofun

theorem writtenText_filled {numbers : Supply} (finite : numbers.Finite) (pieces : List Piece) :
    writtenText numbers pieces =
      .ok (pieces.flatMap
        (Piece.filled fun reference => (Segment.ofReference numbers reference).flatMap text)) := by
  induction pieces with
  | nil => rfl
  | cons piece pieces ih =>
    -- Finite numbers can all be written.
    have own : piece.written numbers =
        .ok (piece.filled
          fun reference => (Segment.ofReference numbers reference).flatMap text) := by
      cases piece with
      | plain c => rfl
      | reference found => exact Segment.literalOrZero_eq finite found
    rw [writtenText_cons, own, ih]
    rfl

theorem Part.alone_tested {hasValue : Text → Bool} {parts : List Part}
    (alone : Alone (parts.flatMap Part.segments)) :
    Alone ((parts.flatMap (Part.tested hasValue)).map Segment.capitalized) := by
  intro lead found tail member
  obtain ⟨segment, member, same⟩ := List.mem_map.mp member
  obtain ⟨part, within, member⟩ := List.mem_flatMap.mp member
  refine alone lead found tail (List.mem_flatMap.mpr ⟨part, within, ?_⟩)
  have kept : segment = .reference lead found tail := by
    cases segment <;> first | cases same; rfl | cases same
  subst kept
  cases part with
  | plain segment => exact member
  | call function head argument bracket =>
    unfold Part.tested at member
    simp only at member
    split at member
    · cases List.mem_singleton.mp member
    · exact member

variable {catalog : Catalog} {formula : Text} {settings : Settings} {inputs : Inputs}

/-- A formula is well-formed if it is skipped or filled in with what is well-formed. -/
theorem formulaValue_of_filled {strict : Bool} {text : Text} {error : FormulaError}
    (filled : Returns (fun filling => filling.result = .skipped ∨ filling.result = .text text)
      (· ≠ .formula error) (fill settings inputs strict formula).outcome)
    (calculated : (calculate settings strict true text).outcome ≠ .error (.formula error)) :
    (formulaValue settings inputs strict formula).outcome ≠ .error (.formula error) := by
  rw [formulaValue_bind, Traced.outcome_bind]
  intro failed
  cases outcome : (fill settings inputs strict formula).outcome with
  | error failure =>
    rw [outcome] at filled failed
    exact filled (Except.error.inj failed)
  | ok filling =>
    rw [outcome] at filled failed
    change Traced.outcome (if filling.result = .skipped then _ else _) = _ at failed
    rcases filled with skipped | result
    · rw [if_pos skipped] at failed
      cases failed
    · rw [result, if_neg nofun, calculateFilling, result, Traced.outcome_bind] at failed
      rcases bind_eq_error_iff.mp failed with failed | ⟨value, -, failed⟩
      · exact calculated failed
      -- What a strategy decides on is a value, and not whether the formula is well-formed.
      · exact decide_ne_formula _ _ _ _ _ _ _ failed

/-- A valid formula with finite numbers is well-formed when it is filled in, if its references stand
alone, its tests ask for items only, and it is definite. -/
theorem formulaValue_wellFormed (valid : validateRule catalog formula = .ok .valid)
    (alone : ReferencesAlone formula) (plainly : TestsPlainly formula)
    (definite : isDefinite formula = true) (finite : inputs.Finite)
    (unsampled : inputs.samples = none) (never : settings.strategy inputs.strategy = .ok .neverSkip)
    (error : FormulaError) :
    (formulaValue settings inputs true formula).outcome ≠ .error (.formula error) := by
  have accepted := accepted_of_validateRule valid
  have nonempty : formula.isEmpty = false := by simpa using accepted.value.1
  have direct := fillUnder_direct accepted plainly unsampled true
  have finite := Supply.finite_of_inputs finite
  clear valid
  obtain ⟨segments, rfl, valid⟩ := accepted.segments
  obtain ⟨parts, rfl, cut, prepared⟩ := valid.prepared
  -- The formula is filled in with these segments.
  have tested : Regular
      (parts.flatMap (Part.tested fun key => (inputs.supply.values.lookup key).isSome)) :=
    prepared.regular.replace fun part _ => ⟨part.segments_ne_nil, part.replaces_tested _⟩
  have regular := tested.capitalized.flatMap fun segment member =>
    Segment.fits_filled finite (tested.capitalized.formed segment member)
  rw [directText] at direct
  simp only [prepared.pieces, Part.flatMap_testPiece, tested.capitalizeCalls,
    tested.capitalized.ofText, writtenText_filled finite,
    Segment.flatMap_filled (Part.alone_tested (valid.regular.alone alone))] at direct
  -- They differ from the ones with placeholders in operands only.
  have named : Segment.Named (fun name => ¬ IsSampled name) (parts.flatMap Part.segments) :=
    fun function head member => by
    refine ⟨valid.name_capitalized member, ?_⟩
    have scalar : ∀ function ∈ Builtin.scalars, ¬ IsSampled function.name := by decide +kernel
    exact scalar function (valid.allowed function head member)
  have evaluates := valid.evaluates definite (fun _ plain => plain)
    (regular.lexes fun _ _ _ => Segment.reference_not_mem_filled _) fun tree reads =>
      Parser.tree_exchanges (exchange_tested not_isSampled_truthLiteral finite cut named) reads
  have calculated := calculate_of_evaluates evaluates settings true error
  refine formulaValue_of_filled ?_ calculated
  rw [fill, nonempty, never]
  change Returns _ _ (fillUnder .neverSkip inputs true _).outcome
  cases filled : (fillUnder .neverSkip inputs true
    ((parts.flatMap Part.segments).flatMap text)).outcome with
  | error failure =>
    rw [filled] at direct
    cases direct
  | ok filling =>
    rw [filled] at direct
    exact .inr (Except.ok.inj direct)

theorem formulaValue_wellFormed_negative :
    validateRule { dataElements := [⟨['a'], ['A']⟩, ⟨['b'], ['B']⟩] }
          "IF(isNull(#{b}), 5 -#{a}, #{b} * [days])".toList = .ok .valid ∧
      ∀ error, (formulaValue {} { values := [(.text ['a'], some (.int (-3)))] } true
          "IF(isNull(#{b}), 5 -#{a}, #{b} * [days])".toList).outcome ≠ .error (.formula error) := by
  have valid : validateRule { dataElements := [⟨['a'], ['A']⟩, ⟨['b'], ['B']⟩] }
      "IF(isNull(#{b}), 5 -#{a}, #{b} * [days])".toList = .ok .valid := by decide +kernel
  refine ⟨valid,
    formulaValue_wellFormed valid (by decide +kernel) (by decide +kernel) (by decide +kernel) ?_ rfl
      (by decide +kernel)⟩
  exact ⟨by decide +kernel, nofun, nofun, nofun⟩

/-- A test that asks for more than an item takes all of it out of the rest of the formula, and an
operator with it. -/
theorem formulaValue_unexpected_zero :
    validateRule { dataElements := [⟨['a'], ['A']⟩] } "IF(isNull(-#{a}), 5 -#{a}, 1)".toList =
        .ok .valid ∧
      (filledText {} {} "IF(isNull(-#{a}), 5 -#{a}, 1)".toList).outcome =
        .ok (some "IF(true, 5 0, 1)".toList) ∧
      (formulaValue {} {} true "IF(isNull(-#{a}), 5 -#{a}, 1)".toList).outcome =
        .error (.formula (.notWellFormed ⟨.unclosed .round (some (.number (.zero false))), some 11⟩
          "IF(true, 5 0, 1)".toList)) := by
  decide +kernel

end IndicatorFormula
