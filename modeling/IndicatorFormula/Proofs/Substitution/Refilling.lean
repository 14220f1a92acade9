import IndicatorFormula.Proofs.Substitution.Brackets
import IndicatorFormula.Proofs.Substitution.Names

/-! Filling in what has been filled in.

A valid formula that is not skipped is filled in to a text without references, in which nothing is
left to be replaced. Filled in again it stays as it is, but for the names of functions that only
came about when its references were replaced. -/

set_option autoImplicit false
namespace IndicatorFormula

namespace CallPiece

variable {functions : List Builtin} {afterWord : Bool} {text : Text}

theorem endsWord_ofHead (head : CallHead) (behind : Text) (afterWord : Bool) :
    (ofHead head behind).1.text.endsWord afterWord = false := by
  unfold ofHead
  split
  · rename_i argument closer rest split
    rw [CallPiece.text, Text.endsWord_append]
    have closes := (closed_of_splitClosing? split).2
    by_contra word
    rw [Text.stays_of_isWord (Bool.eq_true_of_not_eq_false word)] at closes
    cases closes
  · exact Segment.endsWord_head head

theorem sameButCapitals (piece : CallPiece) : SameButCapitals piece.text piece.capitalText := by
  cases piece with
  | call head argument closer =>
    exact (head.sameButCapitals.append (.refl argument)).append (.refl [closer])
  | _ => exact .refl _

theorem sameButCapitals_ofText (functions : List Builtin) (text : Text) :
    SameButCapitals text ((ofText functions text).flatMap capitalText) := by
  have each : ∀ pieces : List CallPiece, SameButCapitals (pieces.flatMap CallPiece.text)
      (pieces.flatMap capitalText) := by
    intro pieces
    induction pieces with
    | nil => exact .nil
    | cons piece pieces ih => exact piece.sameButCapitals.append ih
  have same := each (ofText functions text)
  rwa [text_ofText] at same

theorem flatMap_capitalText (inCapitals : InCapitals afterWord text) :
    (ofTextFrom functions afterWord text).flatMap capitalText = text := by
  fun_induction ofTextFrom functions afterWord text with
  | case1 => rfl
  | case2 afterWord c rest head behind read ih =>
    obtain ⟨rfl, ⟨function, -, calls⟩, whole⟩ := CallHead.read?_eq_some_iff.mp read
    rw [whole] at inCapitals ⊢
    have own : (ofHead head behind).1.capitalText = (ofHead head behind).1.text := by
      unfold ofHead
      split
      · rw [capitalText, inCapitals.capitalized_eq calls, CallPiece.text]
      · rfl
    rw [eq_of_ofHead] at inCapitals ⊢
    have later := inCapitals.drop
    rw [endsWord_ofHead] at later
    rw [List.flatMap_cons, own, ih later]
  | case3 afterWord c rest none ih =>
    rw [List.flatMap_cons, ih inCapitals.2]
    rfl

end CallPiece

theorem substituteNullTests_untested {formula : Text}
    (closed : ∀ head, .unclosed head ∉ CallPiece.ofText nullTest formula)
    (untested : ∀ head argument closer, .call head argument closer ∈
        CallPiece.ofText nullTest formula → testedReference? argument = none)
    (hasValue : Text → Bool) (strict : Bool) :
    substituteNullTests formula hasValue strict = pure formula := by
  have each : ∀ piece ∈ CallPiece.ofText nullTest formula, testPiece hasValue piece = piece.text ∧
      missingArgument? hasValue piece = none := by
    intro piece member
    cases piece with
    | call head argument closer =>
      simp [testPiece, missingArgument?, untested head argument closer member]
    | _ => exact ⟨rfl, rfl⟩
  have missing : (CallPiece.ofText nullTest formula).filterMap (missingArgument? hasValue) = [] :=
    List.filterMap_eq_nil_iff.mpr fun piece member => (each piece member).2
  have same : (CallPiece.ofText nullTest formula).flatMap (testPiece hasValue) = formula := by
    rw [List.flatMap_congr fun piece member => (each piece member).1, CallPiece.text_ofText]
  rw [substituteNullTests]
  simp only [passOverUnclosed_closed strict formula 0 closed, pure_bind, missing, same]
  rfl

theorem fillPieces_plain (numbers : Supply) (skipsAny : Bool) (text : Text) :
    fillPieces numbers skipsAny (text.map .plain) = .ok { result := .text text } := by
  induction text with
  | nil => rfl
  | cons c text ih =>
    rw [List.map_cons, fillPieces, ih]
    rfl

theorem Piece.ofText_of_references {text : Text} (none : IndicatorFormula.references text = []) :
    Piece.ofText text = text.map .plain := by
  have pieces := Piece.ofTextFrom_append (silent_of_references none)
  rwa [List.append_nil, Piece.ofTextFrom, List.append_nil] at pieces

theorem Piece.filled_ne_nil {literal : Reference → Text} {text : Text}
    (literals : ∀ reference, literal reference ≠ []) (some : text ≠ []) :
    (Piece.ofText text).flatMap (Piece.filled literal) ≠ [] := by
  intro none
  have pieces : Piece.ofText text = [] := by
    refine List.eq_nil_iff_forall_not_mem.mpr fun piece member => ?_
    have own := List.flatMap_eq_nil_iff.mp none piece member
    cases piece with
    | plain c => cases own
    | reference found => exact literals found own
  exact some (Piece.eq_of_ofText pieces)

theorem Bare.fillUnder {text : Text} (bare : Bare text)
    (closed : depth? Text.nesting 0 text = some 0) {inputs : Inputs} (none : inputs.samples = none)
    (strategy : Strategy) (strict : Bool) :
    fillUnder strategy inputs strict text =
      pure { result :=
        .text (capitalizeCalls
          ((CallPiece.ofText aggregateFunctions text).flatMap CallPiece.capitalText)) } := by
  have sampled :=
    substituteSamples_closed (fun head => CallPiece.not_mem_ofText closed) strategy strict
  have same := CallPiece.sameButCapitals_ofText aggregateFunctions text
  -- The brackets close as they did, so no test is left open, and tests have no items.
  have closed' : depth? Text.nesting 0
        ((CallPiece.ofText aggregateFunctions text).flatMap CallPiece.capitalText) = some 0 := by
    have alike :=
      nestedAlike_samplePieces (fun piece member => CallPiece.formed_of_mem_ofTextFrom member)
        (show (substituteSamples text .none strategy strict).outcome =
          .ok (some _) by rw [sampled]; rfl) 0
    rwa [CallPiece.text_ofTextFrom, closed] at alike
  generalize (CallPiece.ofText aggregateFunctions text).flatMap CallPiece.capitalText =
    capital at sampled same closed'
  have bare' := bare.capitals same
  have untested : ∀ head argument closer, .call head argument closer ∈
        CallPiece.ofText nullTest capital → testedReference? argument = Option.none := by
    intro head argument closer member
    obtain ⟨before, behind, pieces⟩ := List.append_of_mem member
    have whole := CallPiece.text_ofText nullTest capital
    rw [pieces] at whole
    have whole : capital =
        (before.flatMap CallPiece.text ++ head.text) ++
          (argument ++ closer :: behind.flatMap CallPiece.text) := by
      rw [← whole]
      simp [CallPiece.text]
    rw [whole] at bare'
    rw [testedReference?, bare'.part.references]
    rfl
  have tests := substituteNullTests_untested (fun head => CallPiece.not_mem_ofText closed') untested
    (fun key => (inputs.supply.values.lookup key).isSome) strict
  have plain := Piece.ofText_of_references
    (bare'.capitals (sameButCapitals_capitalizeCallsFrom false capital)).references
  rw [IndicatorFormula.fillUnder_eq, none, sampled, pure_bind]
  simp only [fillSampled, tests, pure_bind]
  rw [show Piece.ofText (capitalizeCalls capital) = _ from plain, fillPieces_plain]
  cases strategy <;> rfl

theorem fillPieces_finite {numbers : Supply} (finite : numbers.Finite) (skipsAny : Bool)
    (pieces : List Piece) :
    ∃ filling, fillPieces numbers skipsAny pieces = .ok filling ∧
      ∀ filled, filling.result = .text filled →
        filled =
          pieces.flatMap (Piece.filled
            fun reference => (Segment.ofReference numbers reference).flatMap Segment.text) := by
  obtain ⟨filling, fills, result⟩ :=
    fillPieces_eq pieces fun reference _ => Segment.literalOrZero_eq finite reference
  have all : ∀ filled, filling.result = .text filled →
      filled = pieces.flatMap (Piece.filled fun reference =>
      (Segment.ofReference numbers reference).flatMap Segment.text) := fun filled same => by
    rw [result] at same
    cases same
    rfl
  cases skipsAny with
  | false => exact ⟨filling, fills, all⟩
  | true =>
    rcases fillPieces_endsOrCovers numbers pieces with ⟨ended, ends, skipped⟩ | ⟨same, -⟩
    · refine ⟨ended, ends, fun filled impossible => ?_⟩
      rw [skipped] at impossible
      cases impossible
    · exact ⟨filling, by rw [same, fills], all⟩

open Segment (text nesting Regular Alternates heldLexemes)

variable {catalog : Catalog} {allowAggregates : Bool} {formula : Text}

theorem Accepted.closed (accepted : Accepted catalog allowAggregates formula) :
    depth? Text.nesting 0 formula = some 0 := by
  obtain ⟨segments, rfl, valid⟩ := accepted.segments
  exact Segment.Balanced.text valid.regular.formed valid.balanced 0

theorem Accepted.sampled (accepted : Accepted catalog allowAggregates formula)
    {samples : Option Samples} (finite : ∀ table ∈ samples, table.Finite) (strategy : Strategy)
    (strict : Bool) :
    substituteSamples formula samples strategy strict = pure none ∨
      ∃ row next, row ≠ [] ∧ Regular row ∧ Balanced nesting row ∧ Alternates .pending row next ∧
        substituteSamples formula samples strategy strict = pure (some (row.flatMap text)) := by
  have nonempty := accepted.value.1
  obtain ⟨segments, rfl, valid⟩ := accepted.segments
  obtain ⟨tree, value, reads, -⟩ := valid.value
  obtain ⟨next, alternates⟩ := Parser.behind?_of_tree reads
  have alternates : Alternates .pending segments next := alternates
  have begun : segments ≠ [] := by
    rintro rfl
    exact nonempty rfl
  cases samples with
  | none =>
    obtain ⟨others, regular, balanced, capitals, sampled⟩ :=
      substituteSamples_none valid.regular valid.balanced
    refine .inr ⟨others, next, ?_, regular, balanced, ?_, sampled strategy strict⟩
    · rintro rfl
      exact begun (List.map_eq_nil_iff.mp capitals.symm)
    · rwa [Alternates, Segment.heldLexemes_congr capitals]
  | some table =>
    obtain ⟨parts, rfl, cut, pieces⟩ := valid.regular.parts aggregateFunctions valid.balanced
    have sampled := substituteSamples_unless pieces (finite table rfl)
      (fun _ _ _ _ member => Part.head_argument valid member) strategy strict
    split at sampled
    · exact .inl sampled
    · refine .inr ⟨_, next, ?_, Part.regular_flatMap_sampled valid.regular (finite table rfl),
        Part.balanced_flatMap_sampled valid.balanced cut (finite table rfl), ?_, sampled⟩
      · have some : parts ≠ [] := by
          rintro rfl
          exact begun rfl
        obtain ⟨part, others, rfl⟩ := List.exists_cons_of_ne_nil some
        simp [Part.segments_ne_nil]
      · rw [List.flatMap_map]
        exact alternates.replace fun part _ _ _ => Part.alternates_sampled (finite table rfl)

theorem Prepared.rewritten_ne_nil {parts : List Part}
    (regular : Regular (parts.flatMap Part.segments)) (some : parts ≠ []) (hasValue : Text → Bool) :
    Prepared.rewritten parts hasValue ≠ [] := by
  have tested : (parts.flatMap (Part.tested hasValue)).flatMap text ≠ [] := by
    obtain ⟨part, parts, rfl⟩ := List.exists_cons_of_ne_nil some
    have replaces :=
      part.replaces_tested hasValue (Part.regular_segments regular List.mem_cons_self)
    obtain ⟨segment, segments, shape⟩ := List.exists_cons_of_ne_nil replaces.some
    obtain ⟨c, rest, starts, -⟩ := (replaces.regular.formed segment (by simp [shape])).head
    simp [shape, starts]
  have replaced : replaceAll (parts.filterMap (Part.missingArgument? hasValue))
      ((parts.flatMap (Part.tested hasValue)).flatMap text) ≠ [] :=
    @replaceAll_preserves (· ≠ []) _ (fun _ member => ⟨(Part.breaks_missing regular member).ne_nil,
      fun _ _ _ => by simp [missingLiteral]⟩) _ tested
  intro none
  have same :=
    sameButCapitals_capitalizeCallsFrom false (replaceAll
      (parts.filterMap (Part.missingArgument? hasValue))
      ((parts.flatMap (Part.tested hasValue)).flatMap text))
  rw [show capitalizeCallsFrom false _ = [] from none] at same
  exact replaced (List.forall₂_nil_right_iff.mp same)

/-- A valid formula is skipped for want of samples, or the passes leave a sealed text with names in
capitals, in which its references are replaced. -/
theorem Accepted.fillUnder_eq (accepted : Accepted catalog allowAggregates formula)
    {inputs : Inputs} (finite : ∀ table ∈ inputs.samples, table.Finite) (strategy : Strategy)
    (strict : Bool) :
    fillUnder strategy inputs strict formula = pure { result := .skipped } ∨
      ∃ tested, tested ≠ [] ∧ Sealed tested ∧ Unnamed tested ∧ InCapitals false tested ∧
        fillUnder strategy inputs strict formula =
          Traced.ofExcept ((fillPieces inputs.supply (strategy = .skipIfAnyMissing)
              (Piece.ofText tested)).mapError .fault) >>= fun filling =>
          pure (if strategy = .skipIfAllMissing then filling.skipIfAllMissing else filling) := by
  rw [IndicatorFormula.fillUnder_eq]
  rcases accepted.sampled finite strategy strict
    with skipped | ⟨row, next, some, regular, balanced, alternates, sampled⟩
  · rw [skipped]
    exact .inl rfl
  · obtain ⟨parts, rfl, cut, pieces⟩ := regular.parts nullTest balanced
    have begun : parts ≠ [] := by
      rintro rfl
      exact some rfl
    obtain ⟨isSealed, unnamed⟩ := sealed_rewritten regular cut alternates
      fun key => (inputs.supply.values.lookup key).isSome
    refine .inr ⟨_, Prepared.rewritten_ne_nil regular begun _, isSealed, unnamed,
      inCapitals_capitalizeCallsFrom _ _, ?_⟩
    rw [sampled, pure_bind]
    simp only [fillSampled, substituteNullTests_parts pieces, pure_bind]
    rfl

variable {settings : Settings} {inputs : Inputs} {strategy : Strategy}

/-- A valid formula is filled in with finite numbers, and unless it is skipped, no reference is left
in what it is filled in to. Filled in again without samples, in whatever circumstances, the text
stays as it is but for the capitals of function names: no item is found in it, and it is not
skipped. It stays wholly as it is if the number of days has no sign. -/
theorem fill_fill
    (valid : validateRule catalog formula = .ok .valid ∨
      validatePredictor catalog formula = .ok .valid) (finite : inputs.Finite)
    (samples : ∀ table ∈ inputs.samples, table.Finite)
    (named : settings.strategy inputs.strategy = .ok strategy) (strict : Bool) :
    ∃ filling, fill settings inputs strict formula = pure filling ∧
      ∀ filled, filling.result = .text filled →
        references filled = [] ∧
          ∀ (settings' : Settings) (others : Inputs) (strict' : Bool) (strategy' : Strategy),
            others.samples = none → settings'.strategy others.strategy = .ok strategy' →
              ∃ again, fill settings' others strict' filled = pure { result := .text again } ∧
                SameButCapitals filled again ∧
                ((∀ x ∈ inputs.days, x.IsUnsigned) → again = filled) := by
  obtain ⟨allowAggregates, accepted⟩ := exists_accepted valid
  rw [fill_eq_fillUnder accepted.value.1 named]
  have numbers := Supply.finite_of_inputs finite
  rcases accepted.fillUnder_eq samples strategy strict
    with skipped | ⟨tested, begun, isSealed, unnamed, inCapitals, whole⟩
  · exact ⟨_, skipped, nofun⟩
  obtain ⟨found, fills, all⟩ :=
    fillPieces_finite numbers (strategy = .skipIfAnyMissing) (Piece.ofText tested)
  rw [fills] at whole
  refine ⟨_, whole, fun filled result => ?_⟩
  have closed : depth? Text.nesting 0 filled = some 0 := by
    rw [nestedAlike_fillUnder (by rw [whole]; rfl) result, accepted.closed]
  obtain rfl := all filled (Filling.text_of_skipping result)
  have inert := inert_ofReference numbers
  have bare := isSealed.bare inert
  refine ⟨bare.references, fun settings' others strict' strategy' none named' => ?_⟩
  rw [fill_eq_fillUnder (Piece.filled_ne_nil (fun reference => (inert reference).some) begun)
      named', bare.fillUnder closed none]
  refine ⟨_, rfl,
    (CallPiece.sameButCapitals_ofText _ _).trans (sameButCapitals_capitalizeCallsFrom false _),
    fun unsigned => ?_⟩
  have settled :=
    inCapitals.filled isSealed unnamed (fun reference => silent_ofReference numbers reference)
      (stops_days unsigned)
  rw [CallPiece.ofText, CallPiece.flatMap_capitalText settled]
  exact settled.capitalizeCallsFrom

theorem fill_fill_sampled :
    let inputs : Inputs :=
      { values := [(.text ['a'], some (.int (-2)))]
        days := some (.int 3)
        samples := some [("[days]".toList, [some (.int 1), none])] }
    let formula := "IF(isNull(#{b} + 1), sum([days]) - 2 * #{a}, #{b} + 1)".toList
    let filled := "IF(true, SUM([1.0]) - 2 * (-2.0), 0)".toList
    validatePredictor { dataElements := [⟨['a'], ['A']⟩, ⟨['b'], ['B']⟩] } formula = .ok .valid ∧
      fill {} inputs true formula = pure ⟨.text filled, 1, 1⟩ ∧ references filled = [] ∧
      fill {} {} true filled = pure ⟨.text filled, 0, 0⟩ := by
  intro inputs formula filled
  have valid : validatePredictor { dataElements := [⟨['a'], ['A']⟩, ⟨['b'], ['B']⟩] } formula =
      .ok .valid := by
    decide +kernel
  have written : (fill {} inputs true formula).outcome = .ok ⟨.text filled, 1, 1⟩ := by
    decide +kernel
  obtain ⟨filling, fills, each⟩ := @fill_fill _ _ {} inputs .neverSkip (.inr valid)
    ⟨by decide +kernel, nofun, nofun, by decide +kernel⟩ (by decide +kernel) rfl true
  obtain rfl : filling = ⟨.text filled, 1, 1⟩ := Traced.eq_of_pure fills written
  obtain ⟨bare, again⟩ := each filled rfl
  obtain ⟨text, refills, -, same⟩ := again {} {} true .neverSkip rfl rfl
  rw [same (by decide +kernel)] at refills
  exact ⟨valid, fills, bare, refills⟩

/-- Where the argument of one test ends with a name and the number of days is negative, replacing
the argument makes a head of the name, which is only capitalized when the text is filled in
again. -/
theorem fill_fill_negative_days :
    let formula :=
      "IF(isNull((#{a})) && isNull(00 * #{b} * 1), log10(#{a}) * #{b} * 1[days], 0)".toList
    validateRule { dataElements := [⟨['a'], ['A']⟩, ⟨['b'], ['B']⟩] } formula = .ok .valid ∧
      (fill {} { days := some (.int (-3)) } true formula).outcome =
        .ok { result := .text "IF(true && true, log10(-3.0), 0)".toList } ∧
      (fill {} {} true "IF(true && true, log10(-3.0), 0)".toList).outcome =
        .ok { result := .text "IF(true && true, LOG10(-3.0), 0)".toList } := by
  decide +kernel

end IndicatorFormula
