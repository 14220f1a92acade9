import IndicatorFormula.Proofs.Substitution.Capitals
import IndicatorFormula.Proofs.Substitution.Filling

/-! What is counted when a formula is filled in.

The items of a formula are counted behind the passes over its calls, in another text than its own.
Where every test asks for one item only, these are the items that stand outside of tests in the
formula itself, without those that a test finds missing. -/

set_option autoImplicit false
namespace IndicatorFormula

def keptItems (numbers : Supply) (tested references : List Reference) : List Reference :=
  references.filter fun reference => reference.isDimensional &&
    !tested.any fun other => (numbers.number? other).isNone && other.text == reference.text

/-- The items of a formula that count: those outside of tests, without those that a test finds
missing. -/
def countedItems (numbers : Supply) (formula : Text) : List Reference :=
  keptItems numbers (testedItems formula) (outerReferences formula)

def Strategy.SkipsFor (numbers : Supply) (items : List Reference) : Strategy → Prop
  | .skipIfAnyMissing => ∃ item ∈ items, numbers.number? item = none
  | .skipIfAllMissing => items ≠ [] ∧ ∀ item ∈ items, numbers.number? item = none
  | .neverSkip => False

def valuedItems (numbers : Supply) (items : List Reference) : List Reference :=
  items.filter fun item => (numbers.number? item).isSome

variable {numbers : Supply}

theorem Supply.Finite.written (finite : numbers.Finite) : numbers.Written := by
  intro reference x supplied
  obtain ⟨negative, m, value⟩ := finite reference x supplied
  exact ⟨_, Segment.literal_eq value⟩

section Pieces

def Piece.items (pieces : List Piece) : List Reference :=
  (Piece.references pieces).filter Reference.isDimensional

/-- A filling is skipped for a reason, and counts some items otherwise. -/
structure Filling.Counts (numbers : Supply) (skips : Prop) (items : List Reference)
    (filling : Filling) : Prop where
  skipped : filling.Skipped ↔ skips
  found : ¬ filling.Skipped → filling.itemsFound = items.length
  valued : ¬ filling.Skipped → filling.valuesFound = (valuedItems numbers items).length

theorem Filling.Counts.prepend {skips : Prop} {items : List Reference} {filling : Filling}
    (counts : filling.Counts numbers skips items) (lead : Text) :
    (filling.prepend lead).Counts numbers skips items := by
  have same : (filling.prepend lead).Skipped ↔ filling.Skipped := Filling.prepend_eq_skipped_iff
  refine ⟨same.trans counts.skipped, fun kept => ?_, fun kept => ?_⟩
  · rw [Filling.prepend_itemsFound, counts.found fun skipped => kept (same.mpr skipped)]
  · rw [Filling.prepend_valuesFound, counts.valued fun skipped => kept (same.mpr skipped)]

theorem Filling.Counts.count {asked : Prop} {items : List Reference} {filling : Filling}
    {found : Reference}
    (counts : filling.Counts numbers (asked ∧ ∃ item ∈ items, numbers.number? item = none) items)
    (valued : asked → numbers.number? found ≠ none) :
    (filling.count (numbers.number? found).isSome).Counts numbers
      (asked ∧ ∃ item ∈ found :: items, numbers.number? item = none) (found :: items) := by
  have same : (filling.count (numbers.number? found).isSome).Skipped ↔ filling.Skipped := Iff.rfl
  refine ⟨same.trans (counts.skipped.trans ?_), fun kept => ?_, fun kept => ?_⟩
  · constructor
    · rintro ⟨asked, item, member, missing⟩
      exact ⟨asked, item, List.mem_cons_of_mem _ member, missing⟩
    · rintro ⟨asked, item, member, missing⟩
      rcases List.mem_cons.mp member with rfl | member
      · exact absurd missing (valued asked)
      · exact ⟨asked, item, member, missing⟩
  · exact congrArg (· + 1) (counts.found kept)
  · have later := counts.valued kept
    cases own : numbers.number? found with
    | none => simpa [Filling.count, valuedItems, own] using later
    | some x => simpa [Filling.count, valuedItems, own] using later

/-- Filling in counts the items among pieces, and is skipped for want of a value where this is asked
for. -/
theorem fillPieces_counts (numbers : Supply) (skipsAny : Bool) (pieces : List Piece) :
    Returns (Filling.Counts numbers
      (skipsAny = true ∧ ∃ item ∈ Piece.items pieces, numbers.number? item = none)
      (Piece.items pieces)) (fun _ => ¬ numbers.Written) (fillPieces numbers skipsAny pieces) := by
  induction pieces with
  | nil =>
    exact ⟨⟨nofun, fun impossible => absurd impossible.2 (by simp [Piece.items, Piece.references])⟩,
      fun _ => rfl, fun _ => rfl⟩
  | cons piece pieces ih =>
    cases piece with
    | plain c => exact ih.bind fun filling counts => counts.prepend [c]
    | reference found =>
      have written := numbers.literalOrZero_returns found
      simp only [fillPieces]
      split
      · rename_i dimensional
        have items : Piece.items (.reference found :: pieces) = found :: Piece.items pieces := by
          simp [Piece.items, Piece.references, dimensional]
        rw [items]
        split
        -- This item has no value, which is reason enough to skip.
        · rename_i missing
          simp only [Bool.and_eq_true, Option.isNone_iff_eq_none] at missing
          exact ⟨⟨fun _ => ⟨missing.2, found, List.mem_cons_self, missing.1⟩, fun _ => rfl⟩,
            fun kept => absurd rfl kept, fun kept => absurd rfl kept⟩
        · rename_i valued
          refine written.bind
            fun lead _ => ih.bind fun filling counts => (counts.prepend lead).count ?_
          rintro rfl missing
          simp [missing] at valued
      · rename_i other
        have items : Piece.items (.reference found :: pieces) = Piece.items pieces := by
          simp [Piece.items, Piece.references, other]
        rw [items]
        exact written.bind fun lead _ => ih.bind fun filling counts => counts.prepend lead

end Pieces

theorem Filling.Counts.decided {strategy : Strategy} {items : List Reference} {filling : Filling}
    (counts : filling.Counts numbers
      (decide (strategy = .skipIfAnyMissing) = true ∧ ∃ item ∈ items, numbers.number? item = none)
      items) :
    (if strategy = .skipIfAllMissing then filling.skipIfAllMissing else filling).Counts numbers
      (strategy.SkipsFor numbers items) items := by
  cases strategy with
  | skipIfAnyMissing =>
    exact ⟨counts.skipped.trans (and_iff_right rfl), counts.found, counts.valued⟩
  | neverSkip => exact ⟨counts.skipped.trans (iff_of_false nofun id), counts.found, counts.valued⟩
  | skipIfAllMissing =>
    have kept : ¬ filling.Skipped := fun skipped => nomatch (counts.skipped.mp skipped).1
    have found := counts.found kept
    have valued := counts.valued kept
    have none : filling.itemsFound ≠ 0 ∧ filling.valuesFound = 0 ↔
        items ≠ [] ∧ ∀ item ∈ items, numbers.number? item = none := by
      rw [found, valued, valuedItems, List.length_eq_zero_iff, List.filter_eq_nil_iff]
      simp
    rw [if_pos rfl, Filling.skipIfAllMissing]
    split
    · rename_i skips
      exact ⟨iff_of_true rfl (none.mp skips), fun other => absurd rfl other,
        fun other => absurd rfl other⟩
    · rename_i stays
      exact ⟨iff_of_false kept fun skips => stays (none.mpr skips), counts.found, counts.valued⟩

open Segment (text pieces Regular)

structure Counted (formula : Text) (parts : List Part) : Prop extends Plain formula parts where
  outer : parts.flatMap Part.outer = outerReferences formula
  asked : parts.filterMap Part.asked? = testedItems formula

theorem Accepted.counted {catalog : Catalog} {allowAggregates : Bool} {formula : Text}
    (accepted : Accepted catalog allowAggregates formula) (plainly : TestsPlainly formula) :
    ∃ parts, Counted formula parts := by
  obtain ⟨segments, rfl, valid⟩ := accepted.segments
  obtain ⟨others, regular, -, capitals, sampled⟩ :=
    substituteSamples_none valid.regular valid.balanced
  obtain ⟨parts, rfl, cut, pieces⟩ := valid.regular.parts nullTest valid.balanced
  obtain ⟨parts', rfl, cut', recased⟩ := Part.exists_recased cut capitals
  obtain ⟨outer, asked, plain⟩ := Part.Recased.rows recased regular valid.regular
  refine ⟨parts',
    ⟨.of_capitals valid.regular sampled cut' regular capitals, fun segment member => ?_, ?_⟩, ?_,
    ?_⟩
  · obtain ⟨other, within, same⟩ := List.mem_map.mp (capitals ▸ List.mem_map_of_mem member)
    exact (regular.formed segment member).held_of_capitalized same.symm (valid.held other within)
  · exact plain fun piece member => plainly piece (pieces ▸ member)
  · rw [outer, outerReferences, testSites, valid.regular.ofText, pieces, Part.outer_eq]
  · rw [asked, testedItems, testSites, pieces, Part.asked_eq]

section Cleared

variable {absent : List Reference} {reference : Reference}

def Reference.apartFrom (items : List Reference) (reference : Reference) : Bool :=
  !items.any fun item => reference.kind = item.kind ∧ reference.key = item.key

theorem Segment.reference?_cleared (segment : Segment) :
    (segment.cleared reference).reference? =
      segment.reference?.filter (Reference.apartFrom [reference]) := by
  cases segment with
  | reference lead found tail =>
    rw [Segment.reference?, Option.filter_some]
    by_cases same : found.kind = reference.kind ∧ found.key = reference.key <;>
      simp [Segment.cleared, Segment.reference?, Reference.apartFrom, same]
  | _ => rfl

theorem Segment.reference?_clearedAll (absent : List Reference) (segment : Segment) :
    (segment.clearedAll absent).reference? =
      segment.reference?.filter (Reference.apartFrom absent) := by
  induction absent generalizing segment with
  | nil => cases segment <;> rfl
  | cons reference absent ih =>
    refine (ih (segment.cleared reference)).trans ?_
    rw [Segment.reference?_cleared, Option.filter_filter]
    congr 1
    funext found
    simp [Reference.apartFrom]

theorem Reference.same_iff_text_eq {item : Reference} (dimensional : reference.isDimensional = true)
    (dimensional' : item.isDimensional = true) :
    (reference.kind = item.kind ∧ reference.key = item.key) ↔ item.text = reference.text := by
  have braced : reference.kind ∈ ReferenceKind.braced := by
    unfold Reference.isDimensional at dimensional
    cases kind : reference.kind <;>
      first | decide | simp [kind, ReferenceKind.isDimensional] at dimensional
  constructor
  · rintro ⟨kind, key⟩
    rw [Reference.text, Reference.text, kind, key]
  · intro same
    rw [(Reference.text_of_isDimensional dimensional).2,
      (Reference.text_of_isDimensional dimensional').2] at same
    obtain ⟨mark, rest⟩ := List.cons.inj same
    exact ⟨ReferenceKind.mark_injective braced mark.symm,
      (List.append_cancel_right (List.cons.inj rest).2).symm⟩

end Cleared

theorem Part.items_tested {hasValue : Text → Bool} {part : Part} (regular : Regular part.segments) :
    ((part.tested hasValue).filterMap Segment.reference?).filter Reference.isDimensional =
      part.outer.filter Reference.isDimensional := by
  cases part with
  | plain segment =>
    cases found : segment.reference? <;> simp [Part.tested, Part.segments, Part.outer, found]
  | call function head argument bracket =>
    cases asks : testedReference? (argument.flatMap text) with
    | some reference =>
      simp [Part.tested, asks, Segment.reference?, Part.outer, List.filterMap_cons]
    -- A call that is no test for an item has no items.
    | none =>
      rw [testedReference?, regular.tail.take.references_eq, List.find?_eq_none] at asks
      have none : ((Part.call function head argument bracket).segments.filterMap
            Segment.reference?) = argument.filterMap Segment.reference? := by
        simp [Part.segments, Segment.reference?, List.filterMap_cons]
      rw [Part.tested, testedReference?, regular.tail.take.references_eq,
        List.find?_eq_none.mpr asks]
      simp only [none, Part.outer, List.filter_nil]
      exact List.filter_eq_nil_iff.mpr asks

namespace Counted

variable {formula : Text} {parts : List Part}

/-- The items behind the passes are those that count. -/
theorem items_eq (counted : Counted formula parts) (numbers : Supply) :
    Piece.items
        (Piece.ofText (Prepared.rewritten parts fun key => (numbers.values.lookup key).isSome)) =
      countedItems numbers formula := by
  have tested : ((parts.flatMap
            (Part.tested fun key => (numbers.values.lookup key).isSome)).filterMap
          Segment.reference?).filter Reference.isDimensional =
      (outerReferences formula).filter Reference.isDimensional := by
    rw [← counted.outer, List.filterMap_flatMap, List.filter_flatMap, List.filter_flatMap]
    exact List.flatMap_congr
      fun part member => Part.items_tested (Part.regular_segments counted.toPrepared.regular member)
  -- An item is cleared exactly if it is written like one that a test finds missing.
  have apart : ∀ reference : Reference, reference.isDimensional = true →
      (reference.apartFrom (absentItems numbers parts) =
        !(testedItems formula).any
          fun item => (numbers.number? item).isNone && item.text == reference.text) := by
    intro reference dimensional
    rw [Reference.apartFrom, absentItems, List.any_filter, ← counted.asked]
    congr 1
    rw [Bool.eq_iff_iff, List.any_eq_true, List.any_eq_true]
    refine exists_congr fun item => and_congr_right fun member => ?_
    have same := Reference.same_iff_text_eq dimensional (counted.toPrepared.asked member).1
    simp only [Bool.and_eq_true, decide_eq_true_eq, beq_iff_eq, same]
  have cleared : (fun segment : Segment =>
        (segment.capitalized.clearedAll (absentItems numbers parts)).reference?) =
      fun segment =>
        segment.reference?.filter (Reference.apartFrom (absentItems numbers parts)) := by
    funext segment
    rw [Segment.reference?_clearedAll, Segment.reference?_capitalized]
  rw [(counted.ofText_rewritten numbers).2, Piece.items, Segment.references_pieces,
    clearedSegments, List.map_map, List.filterMap_map]
  change (List.filterMap (fun segment : Segment =>
    (segment.capitalized.clearedAll (absentItems numbers parts)).reference?) _).filter
        Reference.isDimensional = _
  rw [cleared, ← List.filter_filterMap, List.filter_comm, tested, List.filter_filter, countedItems,
    keptItems]
  refine List.filter_congr fun reference _ => ?_
  cases dimensional : reference.isDimensional with
  | false => exact Bool.and_false _
  | true => rw [apart reference dimensional, Bool.and_true, Bool.true_and]

end Counted

variable {settings : Settings} {context : SubstitutionContext} {strategy : Strategy}

theorem Prepared.fillUnder_counts {formula : Text} {parts : List Part}
    (prepared : Prepared formula parts) (strategy : Strategy) {inputs : Inputs}
    (unsampled : inputs.samples = none) (strict : Bool) {items : List Reference}
    (same : Piece.items (Piece.ofText
        (Prepared.rewritten parts fun key => (inputs.supply.values.lookup key).isSome)) = items) :
    Returns (Filling.Counts inputs.supply (strategy.SkipsFor inputs.supply items) items)
      (fun _ => ¬ inputs.supply.Written) (fillUnder strategy inputs strict formula).outcome := by
  have pieces := fillPieces_counts inputs.supply (strategy = .skipIfAnyMissing)
    (Piece.ofText (Prepared.rewritten parts fun key => (inputs.supply.values.lookup key).isSome))
  rw [same] at pieces
  rw [prepared.fillUnder_eq strategy unsampled strict, Traced.outcome_bind]
  generalize inputs.supply = numbers at pieces ⊢
  generalize Piece.ofText _ = rest at pieces ⊢
  cases filled : fillPieces numbers (strategy = .skipIfAnyMissing) rest with
  | error fault =>
    rw [filled] at pieces
    exact pieces
  | ok filling =>
    rw [filled] at pieces
    exact pieces.decided

/-- A valid formula whose tests ask for one item each is skipped exactly if its strategy says so of
the items that count, and otherwise these items and those of them with a value are what it counts.
Only numbers that cannot be written keep it from being filled in. -/
theorem substitute_counts {catalog : Catalog} {formula : Text}
    (valid : validateRule catalog formula = .ok .valid ∨
      validatePredictor catalog formula = .ok .valid) (plainly : TestsPlainly formula)
    (unsampled : context.inputs.samples = none)
    (named : settings.strategy context.inputs.strategy = .ok strategy) :
    (∀ filling, (substitute settings .evaluate context formula).outcome = .ok (.filled filling) →
        filling.Counts context.inputs.supply
          (strategy.SkipsFor context.inputs.supply (countedItems context.inputs.supply formula))
          (countedItems context.inputs.supply formula)) ∧
      (context.inputs.supply.Written →
        ∃ filling, (substitute settings .evaluate context formula).outcome =
          .ok (.filled filling)) := by
  obtain ⟨allowAggregates, accepted⟩ : ∃ allowAggregates, Accepted catalog allowAggregates
      formula :=
    valid.elim (fun rule => ⟨false, accepted_of_validateRule rule⟩) fun predictor =>
      ⟨true, accepted_of_validatePredictor predictor⟩
  obtain ⟨parts, counted⟩ := accepted.counted plainly
  have counts :=
    counted.toPrepared.fillUnder_counts strategy unsampled context.strict
      (counted.items_eq context.inputs.supply)
  rw [substitute, fill_eq_fillUnder accepted.value.1 named, Traced.outcome_bind]
  cases outcome : (fillUnder strategy context.inputs context.strict formula).outcome with
  | error failure =>
    rw [outcome] at counts
    exact ⟨fun _ impossible => (nomatch impossible), fun written => absurd written counts⟩
  | ok filling =>
    rw [outcome] at counts
    refine ⟨fun other same => ?_, fun _ => ⟨filling, rfl⟩⟩
    cases same
    exact counts

theorem substitute_counts_any :
    let inputs : Inputs :=
      { values := [(.text ['b'], some (.int 7))], strategy := some Strategy.skipIfAnyMissing.name }
    let formula := "IF(isNull( #{a} ), #{b}, #{a} + #{b})".toList
    let filling : Filling := ⟨.text "IF(true, 7.0, 0 + 7.0)".toList, 2, 2⟩
    countedItems inputs.supply formula =
        [⟨.dataElementOperand, [['b']]⟩, ⟨.dataElementOperand, [['b']]⟩] ∧
      (substitute {} .evaluate { inputs } formula).outcome = .ok (.filled filling) ∧
      ¬ filling.Skipped ∧ filling.itemsFound = (countedItems inputs.supply formula).length ∧
      filling.valuesFound =
        (valuedItems inputs.supply (countedItems inputs.supply formula)).length := by
  intro inputs formula filling
  have valid : validateRule { dataElements := [⟨['a'], ['A']⟩, ⟨['b'], ['B']⟩] } formula =
      .ok .valid := by decide +kernel
  have plainly : TestsPlainly formula := by decide +kernel
  have items : countedItems inputs.supply formula =
      [⟨.dataElementOperand, [['b']]⟩, ⟨.dataElementOperand, [['b']]⟩] := by decide +kernel
  have outcome : (substitute {} .evaluate { inputs } formula).outcome = .ok (.filled filling) := by
    decide +kernel
  obtain ⟨each, -⟩ :=
    @substitute_counts {} { inputs } .skipIfAnyMissing _ _ (.inl valid) plainly rfl
      (by decide +kernel)
  have counts := each filling outcome
  have kept : ¬ filling.Skipped := by
    rw [counts.skipped, items]
    change ¬ ∃ item ∈ _, _
    decide +kernel
  exact ⟨items, outcome, kept, counts.found kept, counts.valued kept⟩

end IndicatorFormula
