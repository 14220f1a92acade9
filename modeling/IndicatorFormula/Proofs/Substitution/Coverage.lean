import IndicatorFormula.Proofs.Formula.Braces
import IndicatorFormula.Proofs.Substitution.Passes
import IndicatorFormula.Proofs.Substitution.Skipping
import IndicatorFormula.Proofs.Substitution.Validation

/-! What a valid formula is filled in with.

The references that are extracted from a formula are read off as it is written, while it is filled
in after it has been rewritten by all passes. No pass makes a reference, so numbers are only looked
up that were extracted. -/

set_option autoImplicit false
namespace IndicatorFormula

namespace Segment

variable {segment : Segment} {segments : List Segment} {found : List Reference}

theorem ne_brace_of_isWord {c : Char} (word : Text.isWord c = true) : c ≠ '{' ∧ c ≠ '}' := by
  constructor <;> rintro rfl <;> exact absurd word (by decide)

theorem ne_brace_of_isNumeric {c : Char} (numeric : Lexer.isNumeric c = true) :
    c ≠ '{' ∧ c ≠ '}' := by
  constructor <;> rintro rfl <;> exact absurd numeric (by decide)

theorem ne_brace_of_literal {literal : Text} (isLiteral : Lexer.IsLiteral literal) :
    ∀ c ∈ literal, c ≠ '{' ∧ c ≠ '}' :=
  isLiteral.forall (fun _ => ne_brace_of_isNumeric) (by decide)

theorem Formed.ne_brace (formed : segment.Formed)
    (other : ∀ lead found tail, segment = .reference lead found tail → found.kind = .days) :
    ∀ c ∈ segment.text, c ≠ '{' ∧ c ≠ '}' := by
  cases formed with
  | @blank c blank =>
    intro d member
    rw [List.mem_singleton.mp member]
    exact ⟨Text.ne_of_isBlank blank (by decide), Text.ne_of_isBlank blank (by decide)⟩
  | boolean value => cases value <;> decide
  | call calls =>
    have braceless := calls.braceless.2
    intro c member
    exact ⟨fun same => braceless.opening (same ▸ member),
      fun same => braceless.closing (same ▸ member)⟩
  | number number => exact ne_brace_of_literal number.isLiteral
  | symbol sign =>
    cases sign with
    | opening bracket | closing bracket => cases bracket <;> decide
    | operator operator => cases operator <;> decide
    | _ => decide
  | reference legible digits fresh literal =>
    have days : ∀ c ∈ Reference.text ⟨.days, []⟩, c ≠ '{' ∧ c ≠ '}' := by decide
    intro c member
    rw [text, legible.eq_days (other _ _ _ rfl), List.mem_append, List.mem_append] at member
    rcases member with member | member | member
    · exact ne_brace_of_isWord (Lexer.isWord_of_isDigit (digits c member))
    · exact days c member
    · exact ne_brace_of_literal literal c member

theorem Formed.keyed (formed : segment.Formed)
    (known : ∀ lead reference tail, segment = .reference lead reference tail → reference ∈ found) :
    Keyed (KeyOf found) segment.text ∧ segment.text.head? ≠ some '{' := by
  have plain : ∀ {text : Text}, (∀ c ∈ text, c ≠ '{' ∧ c ≠ '}') →
      Keyed (KeyOf found) text ∧ text.head? ≠ some '{' :=
    fun each => ⟨keyed_of_plain fun member => (each _ member).1 rfl,
      fun head => (each _ (List.mem_of_head? head)).1 rfl⟩
  by_cases other : ∀ lead found tail, segment = .reference lead found tail → found.kind = .days
  · exact plain (formed.ne_brace other)
  · push Not at other
    obtain ⟨lead, reference, tail, rfl, -⟩ := other
    cases formed with
    | reference legible digits fresh literal =>
    have leads :=
      plain fun c member => ne_brace_of_isWord (Lexer.isWord_of_isDigit (digits c member))
    have tails := plain (ne_brace_of_literal literal)
    have whole := legible.head_ne_brace tail
    refine ⟨leads.1.append ((legible.keyed (known _ _ _ rfl)).append tails.1 tails.2) whole, ?_⟩
    cases lead with
    | nil => exact whole
    | cons c lead => exact leads.2

theorem Regular.keyed (regular : Regular segments)
    (known : ∀ lead reference tail, .reference lead reference tail ∈ segments → reference ∈ found) :
    Keyed (KeyOf found) (segments.flatMap text) := by
  induction segments with
  | nil => exact keyed_of_plain List.not_mem_nil
  | cons segment segments ih =>
    have here := (regular.head.1).keyed
      fun lead reference tail same => known lead reference tail (same ▸ List.mem_cons_self)
    refine here.1.append (ih regular.tail fun lead reference tail member =>
      known lead reference tail (List.mem_cons_of_mem _ member)) ?_
    cases segments with
    | nil => simp
    | cons next segments =>
      have there := (regular.tail.head.1).keyed fun lead reference tail same =>
        known lead reference tail (by rw [same]; simp)
      obtain ⟨c, rest, shape, -⟩ := regular.tail.head.1.head
      change ((next :: segments).flatMap text).head? ≠ _
      rw [List.flatMap_cons, List.head?_append_of_ne_nil _ (by simp [shape])]
      exact there.2

theorem exists_brace (formed : ∀ segment ∈ segments, segment.Formed) {lead : Text}
    {reference : Reference} {tail : Text} (member : .reference lead reference tail ∈ segments)
    (other : reference.kind ≠ .days) :
    ∃ before rest, segments.flatMap text = before ++ '{' :: rest ∧ '}' ∉ before := by
  induction segments with
  | nil => cases member
  | cons segment segments ih =>
    -- Segments without braces are passed over.
    by_cases plain : ∀ lead found tail, segment = .reference lead found tail → found.kind = .days
    · have within :=
        (List.mem_cons.mp member).resolve_left fun same => other (plain _ _ _ same.symm)
      obtain ⟨before, rest, whole, closing⟩ :=
        ih (fun other member => formed other (List.mem_cons_of_mem _ member)) within
      refine ⟨segment.text ++ before, rest, by rw [List.flatMap_cons, whole, List.append_assoc],
        fun found => ?_⟩
      have braceless := (formed segment List.mem_cons_self).ne_brace plain
      exact (List.mem_append.mp found).elim (fun found => (braceless _ found).2 rfl) closing
    · push Not at plain
      obtain ⟨lead', reference', tail', rfl, other'⟩ := plain
      cases formed _ List.mem_cons_self with
      | reference legible digits fresh literal =>
      obtain ⟨braced, -, shape⟩ := legible.shape other'
      refine ⟨lead' ++ reference'.kind.key,
        reference'.key ++ ['}'] ++ (tail' ++ segments.flatMap text), ?_, ?_⟩
      · rw [List.flatMap_cons, text, shape]
        simp
      · intro found
        rcases List.mem_append.mp found with found | found
        · exact (ne_brace_of_isWord (Lexer.isWord_of_isDigit (digits _ found))).2 rfl
        · revert found
          cases reference'.kind <;> decide

end Segment

theorem Text.trim_append {before rest : Text} {c : Char} (seen : isBlank c = false) :
    trim (before ++ c :: rest) =
      before.dropWhile isBlank ++ c :: (rest.reverse.dropWhile isBlank).reverse := by
  have front : (before ++ c :: rest).dropWhile isBlank = before.dropWhile isBlank ++ c :: rest := by
    rw [List.dropWhile_append]
    split
    · rename_i all
      rw [List.isEmpty_iff.mp all, List.dropWhile_cons_of_neg (by simp [seen])]
      rfl
    · rfl
  rw [trim, front, List.reverse_append, List.reverse_cons, List.append_assoc, List.dropWhile_append]
  split
  · rename_i all
    rw [List.isEmpty_iff.mp all, List.singleton_append, List.dropWhile_cons_of_neg (by simp [seen])]
    simp
  · simp

/-- The argument of a test with an item breaks keys. -/
theorem breaksKeys_trim {segments : List Segment} (formed : ∀ segment ∈ segments, segment.Formed)
    {lead : Text} {reference : Reference} {tail : Text}
    (member : .reference lead reference tail ∈ segments) (other : reference.kind ≠ .days) :
    BreaksKeys (Text.trim (segments.flatMap Segment.text)) := by
  obtain ⟨before, rest, whole, closing⟩ := Segment.exists_brace formed member other
  refine ⟨_, '{', _, by rw [whole, Text.trim_append (by decide)], fun found => ?_, by decide,
    by decide⟩
  exact closing ((List.dropWhile_sublist _).mem found)

theorem replaceAll_preserves {holds : Text → Prop} {arguments : List Text}
    (each : ∀ argument ∈ arguments, argument ≠ [] ∧ ∀ before behind,
      holds (before ++ (argument ++ behind)) → holds (before ++ (missingLiteral ++ behind)))
    {formula : Text} (start : holds formula) : holds (replaceAll arguments formula) := by
  induction arguments generalizing formula with
  | nil => exact start
  | cons argument arguments ih =>
    obtain ⟨⟨some, step⟩, others⟩ := List.forall_mem_cons.mp each
    have replaced : holds ([] ++ Text.replace argument missingLiteral formula) :=
      Text.replace_preserves some step start
    exact ih others replaced

theorem braceless_missingLiteral : Braceless missingLiteral :=
  ⟨by decide, by decide, [], '0', rfl, by decide⟩

theorem keyed_replaceAll {known : Char → Text → Prop} {arguments : List Text}
    (breaks : ∀ argument ∈ arguments, BreaksKeys argument) {formula : Text}
    (keyed : Keyed known formula) : Keyed known (replaceAll arguments formula) :=
  replaceAll_preserves (fun argument member => ⟨(breaks argument member).ne_nil, fun _ _ keyed =>
    keyed.replace (breaks argument member) braceless_missingLiteral⟩) keyed

/-- Both numbers are missing, or they are the same floating-point number. -/
def SameNumber (x y : Option Number) : Prop :=
  x.map Number.toDouble = y.map Number.toDouble

theorem SameNumber.isSome {x y : Option Number} (same : SameNumber x y) : x.isSome = y.isSome := by
  have found := congrArg Option.isSome same
  simpa using found

theorem SameNumber.literal {x y : Option Number} (same : SameNumber x y) :
    literalOrZero x = literalOrZero y := by
  cases x with
  | none =>
    cases y with
    | none => rfl
    | some y => cases same
  | some x =>
    cases y with
    | none => cases same
    | some y =>
      have same : x.toDouble = y.toDouble := Option.some.inj same
      simp only [literalOrZero, Number.literal, same]

theorem fillPieces_congr {numbers others : Supply} (skipsAny : Bool) {pieces : List Piece}
    (same : ∀ found, .reference found ∈ pieces →
      SameNumber (numbers.number? found) (others.number? found)) :
    fillPieces numbers skipsAny pieces = fillPieces others skipsAny pieces := by
  induction pieces with
  | nil => rfl
  | cons piece pieces ih =>
    have later := ih fun found member => same found (List.mem_cons_of_mem _ member)
    cases piece with
    | plain c => rw [fillPieces, fillPieces, later]
    | reference found =>
      have here := same found List.mem_cons_self
      have absent : (numbers.number? found).isNone = (others.number? found).isNone := by
        rw [← Option.not_isSome, here.isSome, Option.not_isSome]
      simp only [fillPieces, here.literal, absent, here.isSome, later]

def Supply.Written (numbers : Supply) : Prop :=
  ∀ reference, ∀ x ∈ numbers.number? reference, ∃ literal, x.literal = .ok literal

theorem Supply.literalOrZero_returns (numbers : Supply) (reference : Reference) :
    Returns (fun _ => True) (fun _ => ¬ numbers.Written)
      (literalOrZero (numbers.number? reference)) := by
  unfold literalOrZero
  split
  · rename_i x supplied
    cases literal : x.literal with
    | ok literal => trivial
    | error fault =>
      intro written
      obtain ⟨_, impossible⟩ := written reference x supplied
      rw [literal] at impossible
      cases impossible
  · trivial

theorem fillPieces_all {numbers : Supply} (skipsAny : Bool) {pieces : List Piece}
    (valued : ∀ found, .reference found ∈ pieces → found.isDimensional = true →
      (numbers.number? found).isSome) :
    Returns (fun filling => ¬ filling.Skipped ∧ filling.itemsFound = filling.valuesFound)
      (fun _ => ¬ numbers.Written) (fillPieces numbers skipsAny pieces) := by
  induction pieces with
  | nil => exact ⟨nofun, rfl⟩
  | cons piece pieces ih =>
    have later := ih fun found member => valued found (List.mem_cons_of_mem _ member)
    -- What comes before the rest neither skips nor counts.
    have prepended (lead : Text) (filling : Filling)
        (all : ¬ filling.Skipped ∧ filling.itemsFound = filling.valuesFound) :
        ¬ (filling.prepend lead).Skipped ∧
          (filling.prepend lead).itemsFound = (filling.prepend lead).valuesFound := by
      rw [Filling.prepend_itemsFound, Filling.prepend_valuesFound]
      exact ⟨fun skipped => all.1 (Filling.prepend_eq_skipped_iff.mp skipped), all.2⟩
    cases piece with
    | plain c => exact later.bind fun filling all => prepended [c] filling all
    | reference found =>
      have here := valued found List.mem_cons_self
      have written := numbers.literalOrZero_returns found
      simp only [fillPieces]
      split
      · rename_i dimensional
        rw [← Option.not_isSome, here dimensional]
        simp only [Bool.not_true, Bool.false_and, Bool.false_eq_true, ↓reduceIte]
        refine written.bind fun lead _ => later.bind fun filling all => ?_
        obtain ⟨kept, equal⟩ := prepended lead filling all
        exact ⟨kept, congrArg (· + 1) equal⟩
      · exact written.bind fun lead _ => later.bind fun filling all => prepended lead filling all

open Segment (text nesting Regular)

namespace Part

variable {parts : List Part} {function : Builtin} {head : CallHead} {argument : List Segment}
  {bracket : Bracket}

theorem argument_subset (member : .call function head argument bracket ∈ parts) :
    argument ⊆ parts.flatMap Part.segments := by
  intro segment within
  refine List.mem_flatMap.mpr ⟨_, member, ?_⟩
  simp [Part.segments, within]

theorem regular_segments {part : Part} (regular : Regular (parts.flatMap Part.segments))
    (member : part ∈ parts) : Regular part.segments := by
  obtain ⟨before, behind, rfl⟩ := List.append_of_mem member
  rw [List.flatMap_append, List.flatMap_cons] at regular
  exact regular.drop.take

theorem regular_argument (regular : Regular (parts.flatMap Part.segments))
    (member : .call function head argument bracket ∈ parts) : Regular argument :=
  (regular_segments regular member).tail.take

end Part

theorem Segment.Regular.tested_mem {argument : List Segment} (regular : Regular argument)
    {reference : Reference} (tested : testedReference? (argument.flatMap text) = some reference) :
    reference.isDimensional = true ∧ ∃ lead tail, .reference lead reference tail ∈ argument :=
  ⟨by simpa using List.find?_some tested,
    regular.mem_references.mp (List.mem_of_find?_eq_some tested)⟩

theorem Part.of_mem_missing {parts : List Part} {hasValue : Text → Bool}
    (regular : Regular (parts.flatMap Part.segments)) {replaced : Text}
    (member : replaced ∈ parts.filterMap (Part.missingArgument? hasValue)) :
    ∃ function head argument bracket reference, .call function head argument bracket ∈ parts ∧
      testedReference? (argument.flatMap text) = some reference ∧ reference.isDimensional = true ∧
      (∃ lead tail, .reference lead reference tail ∈ argument) ∧ hasValue reference.key = false ∧
      replaced = Text.trim (argument.flatMap text) := by
  obtain ⟨part, within, missing⟩ := List.mem_filterMap.mp member
  cases part with
  | plain segment => cases missing
  | call function head argument bracket =>
    unfold Part.missingArgument? at missing
    simp only at missing
    split at missing
    · rename_i reference asks
      split at missing <;> cases missing
      rename_i absent
      obtain ⟨dimensional, found⟩ := (Part.regular_argument regular within).tested_mem asks
      exact ⟨function, head, argument, bracket, reference, within, asks, dimensional, found,
        Bool.eq_false_iff.mpr absent, rfl⟩
    · cases missing

/-- What is replaced has a brace in it, so no key goes on into it. -/
theorem Part.breaks_missing {parts : List Part} {hasValue : Text → Bool}
    (regular : Regular (parts.flatMap Part.segments)) {replaced : Text}
    (member : replaced ∈ parts.filterMap (Part.missingArgument? hasValue)) :
    BreaksKeys replaced := by
  obtain ⟨function, head, argument, bracket, reference, within, -, dimensional, ⟨lead, tail, found⟩,
    -, rfl⟩ :=
    Part.of_mem_missing regular member
  exact breaksKeys_trim
    (fun segment member => regular.formed segment (Part.argument_subset within member)) found
    (Reference.kind_ne_days dimensional)

structure Prepared (formula : Text) (parts : List Part) : Prop where
  sampled : ∀ strategy strict, substituteSamples formula none strategy strict =
    pure (some ((parts.flatMap Part.segments).flatMap text))
  pieces : CallPiece.ofText nullTest ((parts.flatMap Part.segments).flatMap text) =
    parts.flatMap Part.pieces
  regular : Regular (parts.flatMap Part.segments)
  known : ∀ lead reference tail, .reference lead reference tail ∈ parts.flatMap Part.segments →
    reference ∈ references formula

theorem Prepared.of_capitals {segments : List Segment} {parts : List Part}
    (regular : Regular segments)
    (sampled : ∀ strategy strict, substituteSamples (segments.flatMap text) none strategy strict =
      pure (some ((parts.flatMap Part.segments).flatMap text)))
    (cut : ∀ part ∈ parts, part.Cut nullTest) (regular' : Regular (parts.flatMap Part.segments))
    (capitals : (parts.flatMap Part.segments).map Segment.capitalized =
      segments.map Segment.capitalized) : Prepared (segments.flatMap text) parts := by
  have pieces := Segment.ofTextFrom_parts cut regular' fun word => absurd word Bool.false_ne_true
  refine ⟨sampled, pieces, regular', fun lead reference tail member => ?_⟩
  -- Capitals are only in calls.
  have within : Segment.capitalized (.reference lead reference tail) ∈
      segments.map Segment.capitalized :=
    capitals ▸ List.mem_map_of_mem member
  obtain ⟨segment, found, same⟩ := List.mem_map.mp within
  cases segment <;> cases same
  exact regular.mem_references.mpr ⟨lead, tail, found⟩

theorem Accepted.prepared {catalog : Catalog} {allowAggregates : Bool} {formula : Text}
    (accepted : Accepted catalog allowAggregates formula) : ∃ parts, Prepared formula parts := by
  obtain ⟨segments, rfl, valid⟩ := accepted.segments
  obtain ⟨others, regular, balanced, capitals, sampled⟩ :=
    substituteSamples_none valid.regular valid.balanced
  obtain ⟨parts, rfl, cut⟩ := Segment.exists_parts nullTest (balanced 0)
  exact ⟨parts, .of_capitals valid.regular sampled cut regular capitals⟩

namespace Prepared

variable {formula : Text} {parts : List Part} {hasValue : Text → Bool}

/-- The formula behind all passes, when only some items have values. -/
def rewritten (parts : List Part) (hasValue : Text → Bool) : Text :=
  capitalizeCalls (replaceAll (parts.filterMap (Part.missingArgument? hasValue))
    ((parts.flatMap (Part.tested hasValue)).flatMap text))

theorem fillUnder_eq (prepared : Prepared formula parts) (strategy : Strategy) {inputs : Inputs}
    (none : inputs.samples = none) (strict : Bool) :
    fillUnder strategy inputs strict formula =
      Traced.ofExcept ((fillPieces inputs.supply (strategy = .skipIfAnyMissing)
          (Piece.ofText
            (rewritten parts fun key => (inputs.supply.values.lookup key).isSome))).mapError
        .fault) >>= fun filling =>
      pure (if strategy = .skipIfAllMissing then filling.skipIfAllMissing else filling) := by
  rw [IndicatorFormula.fillUnder_eq, none, prepared.sampled, pure_bind]
  simp only [fillSampled, substituteNullTests_parts prepared.pieces, pure_bind]
  rfl

theorem tested_mem (prepared : Prepared formula parts) {function : Builtin} {head : CallHead}
    {argument : List Segment} {bracket : Bracket}
    (member : .call function head argument bracket ∈ parts) {reference : Reference}
    (tested : testedReference? (argument.flatMap text) = some reference) :
    reference.isDimensional = true ∧ ∃ lead tail, .reference lead reference tail ∈ argument :=
  (Part.regular_argument prepared.regular member).tested_mem tested

theorem rewritten_congr (prepared : Prepared formula parts) {hasValue hasValue' : Text → Bool}
    (same : ∀ reference ∈ references formula, reference.isDimensional = true →
      hasValue reference.key = hasValue' reference.key) :
    rewritten parts hasValue = rewritten parts hasValue' := by
  have asked : ∀ part ∈ parts, Part.tested hasValue part = Part.tested hasValue' part ∧
      Part.missingArgument? hasValue part = Part.missingArgument? hasValue' part := by
    intro part member
    cases part with
    | plain segment => exact ⟨rfl, rfl⟩
    | call function head argument bracket =>
      cases tested : testedReference? (argument.flatMap text) with
      | none => simp [Part.tested, Part.missingArgument?, tested]
      | some reference =>
        obtain ⟨dimensional, lead, tail, found⟩ := prepared.tested_mem member tested
        have equal :=
          same reference (prepared.known _ _ _ (Part.argument_subset member found)) dimensional
        simp [Part.tested, Part.missingArgument?, tested, equal]
  rw [rewritten, rewritten, List.flatMap_congr fun part member => (asked part member).1,
    List.filterMap_congr fun part member => (asked part member).2]

/-- All references that are read behind the passes are those of the formula, but for how their keys
are cut. -/
theorem keyed (prepared : Prepared formula parts) (hasValue : Text → Bool) :
    Keyed (KeyOf (references formula)) (rewritten parts hasValue) := by
  have tested : Regular (parts.flatMap (Part.tested hasValue)) :=
    prepared.regular.replace fun part _ => ⟨part.segments_ne_nil, part.replaces_tested hasValue⟩
  have kept : Keyed (KeyOf (references formula))
      ((parts.flatMap (Part.tested hasValue)).flatMap text) := by
    refine tested.keyed fun lead reference tail member => prepared.known lead reference tail ?_
    obtain ⟨part, within, found⟩ := List.mem_flatMap.mp member
    refine List.mem_flatMap.mpr ⟨part, within, ?_⟩
    cases part with
    | plain segment => exact found
    | call function head argument bracket =>
      unfold Part.tested at found
      simp only at found
      split at found
      · cases List.mem_singleton.mp found
      · exact found
  change Keyed (KeyOf (references formula)) ([] ++ rewritten parts hasValue)
  exact Keyed.capitalizeCallsFrom
    (keyed_replaceAll (fun _ member => Part.breaks_missing prepared.regular member) kept) false

end Prepared

end IndicatorFormula
