import IndicatorFormula.Proofs.Formula.Segment
import IndicatorFormula.Proofs.Substitution.Supply

/-! Filling in formulas segment by segment.

The passes leave the segments of a formula as they are, except that references become numbers. One
that is negative becomes four segments, since parentheses stand around it. -/

set_option autoImplicit false
namespace IndicatorFormula

namespace Segment

def ofMagnitude (negative : Bool) (m : Fin finiteMagnitudes) : List Segment :=
  if negative then
    [.symbol (.opening .round), .symbol (.operator .sub),
      .number (numberLayout.magnitude m) (.finite false m), .symbol (.closing .round)]
  else [.number (numberLayout.magnitude m) (.finite false m)]

def ofReference (numbers : Supply) (reference : Reference) : List Segment :=
  match numbers.number? reference with
  | none => [.number missingLiteral (.zero false)]
  | some x =>
    match x.toDouble with
    | .ok (.finite negative m) => ofMagnitude negative m
    | _ => []

theorem literal_eq {x : Number} {negative : Bool} {m : Fin finiteMagnitudes}
    (value : x.toDouble = .ok (.finite negative m)) :
    x.literal = .ok ((ofMagnitude negative m).flatMap text) := by
  have positive : (numberLayout.magnitude m).head? ≠ some '-' := by
    have number := Lexer.isNumber_magnitude m
    generalize numberLayout.magnitude m = literal at number
    generalize Double.finite false m = value at number
    cases number with
    | @intro c rest decimal starts whole read =>
      rintro ⟨⟩
      exact absurd (Lexer.isNumeric_of_startsNumber starts) (by decide)
  unfold Number.literal ofMagnitude
  rw [value]
  cases negative with
  | false =>
    change Except.ok (if (numberLayout.magnitude m).head? = some '-' then _ else _) = _
    rw [if_neg positive]
    simp [text, Double.write, NumberLayout.write]
  | true =>
    change Except.ok (if ('-' :: numberLayout.magnitude m).head? = some '-' then _ else _) = _
    rw [if_pos rfl]
    simp [text, Symbol.text, Double.write, NumberLayout.write]

theorem literalOrZero_eq {numbers : Supply} (finite : numbers.Finite) (reference : Reference) :
    literalOrZero (numbers.number? reference) =
      .ok ((ofReference numbers reference).flatMap text) := by
  unfold ofReference literalOrZero
  split
  · rename_i x found
    obtain ⟨negative, m, value⟩ := finite reference x found
    simp only [found, value, literal_eq value]
  · rename_i none
    simp [none, text]

def filled (numbers : Supply) : Segment → List Segment
  | .reference _ found _ => ofReference numbers found
  | segment => [segment]

theorem regular_negative (m : Fin finiteMagnitudes) : Regular (ofMagnitude true m) := by
  refine ⟨fun segment member => ?_, ?_⟩
  · simp only [ofMagnitude, ↓reduceIte, List.mem_cons, List.not_mem_nil, or_false] at member
    rcases member with rfl | rfl | rfl | rfl
    · exact .symbol _
    · exact .symbol _
    · exact .number (Lexer.isNumber_magnitude m)
    · exact .symbol _
  -- A bracket, a sign, the number and a bracket follow each other, and none goes on in the next.
  · have sign : Apart (.symbol (.opening .round)) (.symbol (.operator .sub)) := by
      refine ⟨fun _ => rfl, ?_⟩
      rintro sign other ⟨⟩ - c ⟨⟩ d -
      rfl
    have operand : Apart (.symbol (.operator .sub))
        (.number (numberLayout.magnitude m) (.finite false m)) :=
      ⟨(fun impossible => nomatch impossible), fun _ _ _ impossible => nomatch impossible⟩
    have closing : Apart (.number (numberLayout.magnitude m) (.finite false m))
        (.symbol (.closing .round)) :=
      ⟨fun _ => rfl, fun _ _ impossible => nomatch impossible⟩
    exact .cons_cons sign (.cons_cons operand (.cons_cons closing (.singleton _)))

theorem fits_ofMagnitude {lead : Text} {reference : Reference} {tail : Text} (negative : Bool)
    (m : Fin finiteMagnitudes) :
    Fits (.reference lead reference tail) (ofMagnitude negative m) := by
  cases negative with
  | false =>
    exact fits_single (.number (Lexer.isNumber_magnitude m))
      (fun _ impossible => nomatch impossible) (fun _ => rfl) fun _ => rfl
  | true =>
    exact fits_group
      [.symbol (.operator .sub), .number (numberLayout.magnitude m) (.finite false m)] rfl
      (regular_negative m)

theorem isNumber_missingLiteral : Lexer.IsNumber missingLiteral (.zero false) :=
  Lexer.isNumber_of_parts (c := '0') (by decide) (fun _ member => absurd member List.not_mem_nil)
    Lexer.isExponent_nil rfl

theorem fits_filled {numbers : Supply} (finite : numbers.Finite) {segment : Segment}
    (formed : segment.Formed) : Fits segment (segment.filled numbers) := by
  cases segment with
  | reference lead found tail =>
    rw [filled, ofReference]
    cases supplied : numbers.number? found with
    | none =>
      exact fits_single (.number isNumber_missingLiteral) (fun _ impossible => nomatch impossible)
        (fun _ => rfl) fun _ => rfl
    | some x =>
      obtain ⟨negative, m, value⟩ := finite found x supplied
      simp only [value]
      exact fits_ofMagnitude negative m
  | _ => exact fits_self formed

theorem reference_not_mem_filled {numbers : Supply} {lead : Text} {found : Reference} {tail : Text}
    (segments : List Segment) : .reference lead found tail ∉ segments.flatMap (filled numbers) := by
  have magnitude : ∀ negative m, .reference lead found tail ∉ ofMagnitude negative m := by
    intro negative m
    cases negative <;> simp [ofMagnitude]
  intro member
  obtain ⟨segment, -, member⟩ := List.mem_flatMap.mp member
  cases segment with
  | reference lead' other tail' =>
    rw [filled, ofReference] at member
    split at member
    · simp at member
    · split at member
      · exact magnitude _ _ member
      · exact absurd member List.not_mem_nil
  | _ => simp [filled] at member

end Segment

variable {numbers : Supply}

def Piece.filled (literal : Reference → Text) : Piece → Text
  | .plain c => [c]
  | .reference found => literal found

theorem Piece.filled_text : Piece.filled Reference.text = Piece.text := by
  funext piece
  cases piece <;> rfl

theorem Piece.mapM_filled {ε : Type} {step : Piece → Except ε Text} {literal : Reference → Text}
    {pieces : List Piece} (plain : ∀ c, step (.plain c) = .ok [c])
    (literals : ∀ reference, .reference reference ∈ pieces →
      step (.reference reference) = .ok (literal reference)) :
    pieces.mapM step = .ok (pieces.map (filled literal)) := by
  induction pieces with
  | nil => rfl
  | cons piece pieces ih =>
    have own : step piece = .ok (piece.filled literal) := by
      cases piece with
      | plain c => exact plain c
      | reference found => exact literals found List.mem_cons_self
    rw [List.mapM_cons, own, ih fun found member => literals found (List.mem_cons_of_mem _ member)]
    rfl

theorem fillPieces_eq {literal : Reference → Text} (pieces : List Piece)
    (literals : ∀ reference, .reference reference ∈ pieces →
      literalOrZero (numbers.number? reference) = .ok (literal reference)) :
    ∃ filling, fillPieces numbers false pieces = .ok filling ∧
      filling.result = .text (pieces.flatMap (Piece.filled literal)) := by
  induction pieces with
  | nil => exact ⟨_, rfl, rfl⟩
  | cons piece pieces ih =>
    obtain ⟨filling, filled, result⟩ :=
      ih fun reference member => literals reference (List.mem_cons_of_mem _ member)
    cases piece with
    | plain c =>
      refine ⟨filling.prepend [c], ?_, ?_⟩
      · rw [fillPieces, filled]
        rfl
      · simp [Filling.prepend, result, Piece.filled]
    | reference found =>
      have own := literals found List.mem_cons_self
      -- Items are counted on top, which leaves the text as it is.
      have prepended : (filling.prepend (literal found)).result =
          .text ((Piece.reference found :: pieces).flatMap (Piece.filled literal)) := by
        simp [Filling.prepend, result, Piece.filled]
      rw [fillPieces]
      split
      · refine ⟨(filling.prepend (literal found)).count (numbers.number? found).isSome, ?_,
          prepended⟩
        rw [Bool.and_false, if_neg Bool.false_ne_true, own, filled]
        rfl
      · refine ⟨filling.prepend (literal found), ?_, prepended⟩
        rw [own, filled]
        rfl

theorem passOverUnclosed_plain (strict : Bool) (formula text : Text) (position : Nat) :
    passOverUnclosed strict formula position (text.map .plain) = pure () := by
  induction text generalizing position with
  | nil => rfl
  | cons c text ih =>
    exact ih _

theorem samplePieces_plain (samples : Option Samples) (skipsMissing strict : Bool)
    (formula text : Text) (position : Nat) :
    samplePieces samples skipsMissing strict formula position (text.map .plain) =
      pure (some text) := by
  induction text generalizing position with
  | nil => rfl
  | cons c text ih =>
    have nothing := passOverUnclosed_plain strict formula [c] position
    rw [List.map_cons, samplePieces]
    simp only [List.map_cons, List.map_nil] at nothing
    simp only [nothing, ih, lacksSamples, samplePiece, Except.mapError, Bool.and_false,
      Bool.false_eq_true, ↓reduceIte]
    rfl

theorem substituteSamples_plain {formula : Text} (samples : Option Samples) (strategy : Strategy)
    (strict : Bool) (plain : CallPiece.ofText aggregateFunctions formula = formula.map .plain) :
    substituteSamples formula samples strategy strict = pure (some formula) := by
  rw [substituteSamples, plain, samplePieces_plain]

theorem substituteNullTests_plain {formula : Text} (hasValue : Text → Bool) (strict : Bool)
    (plain : CallPiece.ofText nullTest formula = formula.map .plain) :
    substituteNullTests formula hasValue strict = pure formula := by
  have missing : (formula.map CallPiece.plain).filterMap (missingArgument? hasValue) = [] := by
    simp [List.filterMap_eq_nil_iff, missingArgument?]
  have same : (formula.map CallPiece.plain).flatMap (testPiece hasValue) = formula := by
    simp [List.flatMap_map, testPiece, CallPiece.text]
  rw [substituteNullTests, plain]
  simp only [passOverUnclosed_plain, pure_bind, missing, same]
  rfl

theorem fill_of_tested {settings : Settings} {inputs : Inputs} {strict : Bool}
    {formula tested : Text} {literal : Reference → Text} (some : formula ≠ [])
    (never : settings.strategy inputs.strategy = .ok .neverSkip)
    (scalar : CallPiece.ofText aggregateFunctions formula = formula.map .plain)
    (tests : substituteNullTests formula (fun key => (inputs.supply.values.lookup key).isSome)
        strict = pure tested)
    (literals : ∀ reference, literalOrZero (inputs.supply.number? reference) =
      .ok (literal reference)) :
    ∃ filling, fill settings inputs strict formula = pure filling ∧
      filling.result =
        .text ((Piece.ofText (capitalizeCalls tested)).flatMap (Piece.filled literal)) := by
  obtain ⟨filling, filled, result⟩ :=
    fillPieces_eq (Piece.ofText (capitalizeCalls tested)) fun reference _ =>
    literals reference
  refine ⟨filling, ?_, result⟩
  have nonempty : formula.isEmpty = false := by simp [some]
  -- Nothing asks for samples, and the strategy does not ask for values.
  have skips : decide (Strategy.neverSkip = Strategy.skipIfAnyMissing) = false := rfl
  unfold fill
  rw [nonempty, never]
  change fillUnder .neverSkip inputs strict formula = _
  unfold fillUnder
  simp only [substituteSamples_plain _ _ strict scalar, pure_bind, tests, skips, filled]
  rfl

namespace Segment

/-- Every reference stands by itself, not within a number. -/
def Alone (segments : List Segment) : Prop :=
  ∀ lead found tail, .reference lead found tail ∈ segments → lead = [] ∧ tail = []

/-- Where references stand alone, their texts are replaced segment by segment. -/
theorem flatMap_replaced {literal : Reference → Text} {change : Segment → List Segment}
    {segments : List Segment} (alone : Alone segments)
    (references : ∀ found, (change (.reference [] found [])).flatMap text = literal found)
    (others : ∀ segment, (∀ lead found tail, segment ≠ .reference lead found tail) →
      change segment = [segment]) :
    (segments.flatMap pieces).flatMap (Piece.filled literal) =
      (segments.flatMap change).flatMap text := by
  rw [List.flatMap_assoc, List.flatMap_assoc]
  refine List.flatMap_congr fun segment member => ?_
  have plain (text : Text) : (text.map Piece.plain).flatMap (Piece.filled literal) = text := by
    simp [List.flatMap_map, Piece.filled]
  cases shape : segment with
  | reference lead found tail =>
    obtain ⟨rfl, rfl⟩ := alone _ _ _ (shape ▸ member)
    simp [pieces, Piece.filled, references]
  | _ =>
    rw [← shape, others segment (by simp [shape])]
    simpa [shape, pieces] using plain _

theorem flatMap_filled {numbers : Supply} {segments : List Segment} (alone : Alone segments) :
    (segments.flatMap pieces).flatMap
        (Piece.filled fun reference => (ofReference numbers reference).flatMap text) =
      (segments.flatMap (filled numbers)).flatMap text := by
  refine flatMap_replaced alone (fun _ => rfl) fun segment other => ?_
  cases segment with
  | reference lead found tail => exact absurd rfl (other lead found tail)
  | _ => rfl

end Segment
end IndicatorFormula
