import IndicatorFormula.Proofs.Substitution.Agreement
import IndicatorFormula.Proofs.Substitution.Extraction
import IndicatorFormula.Proofs.Substitution.Figures
import IndicatorFormula.Substitution.Explosion

/-! The value of exploded formulas.

An exploded formula is stored and filled in later. Its figures are whole numbers where the formula
itself would be filled in with floating-point ones, so the texts differ, but they are read alike. -/

set_option autoImplicit false
namespace IndicatorFormula

/-- What a formula is filled in with if it is not exploded: figures, besides values. -/
def Figures.inputs (figures : Figures) (days : Option Nat)
    (values : List (ValueKey × Option Number)) (strategy : Option Text) : Inputs where
  values := values
  constants := figures.constants.map fun entry => (entry.1, .double entry.2)
  groupCounts := figures.groupCounts.map fun entry => (entry.1, .int entry.2)
  days := days.map fun count : Nat => .int count
  strategy := strategy

open Segment (text Regular Alone)

section Figures

variable {figures : Figures} {days : Option Nat} {values : List (ValueKey × Option Number)}
  {strategy : Option Text}

theorem lookup_map {α β : Type} (change : α → β) (table : Table α) (key : Text) :
    (table.map fun entry => (entry.1, change entry.2)).lookup key =
      (table.lookup key).map change := by
  induction table with
  | nil => rfl
  | cons entry table ih =>
    rw [List.map_cons, List.lookup_cons, List.lookup_cons]
    split
    · rfl
    · exact ih

theorem explodeReference_eq (finite : (figures.inputs days values strategy).Finite)
    {reference : Reference} (legible : reference.Legible) :
    explodeReference figures (days.map fun count : Nat => .int count) reference =
      .ok (Segment.explodedText (figures.inputs days values strategy).supply reference) := by
  have literal := Segment.literalOrZero_eq (Supply.finite_of_inputs finite) reference
  have constants := lookup_map Number.double figures.constants reference.key
  have counts := lookup_map (fun count : Nat => Number.int count) figures.groupCounts reference.key
  obtain ⟨kind, parts⟩ := reference
  cases kind with
  | aggregate =>
    cases legible with
    | braced member => exact absurd member (by decide)
  | constant =>
    -- A constant is written as it is filled in.
    have number : (figures.inputs days values strategy).supply.number? ⟨.constant, parts⟩ =
        (figures.constants.lookup (Reference.key ⟨.constant, parts⟩)).map .double := constants
    rw [number] at literal
    have own : Segment.ofFigure (figures.inputs days values strategy).supply ⟨.constant, parts⟩ =
        Segment.ofReference (figures.inputs days values strategy).supply ⟨.constant, parts⟩ := by
      rw [Segment.ofFigure, number]
      cases figures.constants.lookup (Reference.key ⟨.constant, parts⟩) <;> rfl
    rw [Segment.explodedText,
      if_neg (by simp [Reference.isDimensional, ReferenceKind.isDimensional]), own]
    exact literal
  | orgUnitGroup =>
    have number : (figures.inputs days values strategy).supply.number? ⟨.orgUnitGroup, parts⟩ =
        (figures.groupCounts.lookup (Reference.key ⟨.orgUnitGroup, parts⟩)).map
          fun count => .int count :=
      counts
    have own : explodeReference figures (days.map fun count : Nat => .int count)
          ⟨.orgUnitGroup, parts⟩ =
        .ok (((figures.groupCounts.lookup (Reference.key ⟨.orgUnitGroup, parts⟩)).map
            Text.ofNat).getD missingLiteral) :=
      rfl
    rw [own]
    cases found : figures.groupCounts.lookup (Reference.key ⟨.orgUnitGroup, parts⟩) <;>
      rw [found] at number <;>
      simp [Segment.explodedText, Segment.ofFigure, Segment.ofReference, number, text,
        Reference.isDimensional, ReferenceKind.isDimensional]
  | days =>
    have number : (figures.inputs days values strategy).supply.number? ⟨.days, parts⟩ =
        days.map fun count : Nat => .int count := rfl
    have own : explodeReference figures (days.map fun count : Nat => .int count) ⟨.days, parts⟩ =
        .ok (((days.map fun count : Nat => Number.int count).map Number.write).getD
          missingLiteral) :=
      rfl
    rw [own]
    cases days <;>
      simp [Segment.explodedText, Segment.ofFigure, Segment.ofReference, number, text,
        Reference.isDimensional, ReferenceKind.isDimensional, Number.write, Text.ofInt]
  | _ => rfl

theorem explode_pieces {days : Option Number} {literal : Reference → Text} {formula : Text}
    (some : formula ≠ [])
    (literals : ∀ reference ∈ references formula, explodeReference figures days reference =
      .ok (literal reference)) :
    explode figures days formula =
      .ok (.some ((Piece.ofText formula).flatMap (Piece.filled literal))) := by
  have each : (Piece.ofText formula).mapM (explodePiece figures days) =
      .ok ((Piece.ofText formula).map (Piece.filled literal)) :=
    Piece.mapM_filled (fun _ => rfl)
      fun found member => literals found (Piece.mem_references_iff.mpr member)
  rw [explode, if_neg (by simpa using some), each, List.flatMap_def]
  rfl

theorem explode_segments (finite : (figures.inputs days values strategy).Finite)
    {segments : List Segment} (regular : Regular segments) (alone : Alone segments)
    (some : segments.flatMap text ≠ []) :
    explode figures (days.map fun count : Nat => .int count) (segments.flatMap text) =
      .ok (.some ((segments.flatMap
          (Segment.exploded (figures.inputs days values strategy).supply)).flatMap text)) := by
  rw [explode_pieces
      some fun found member => explodeReference_eq finite (legible_of_mem_references member),
    regular.ofText,
    ← Segment.flatMap_replaced alone (fun _ => Segment.text_exploded)
      fun _ => Segment.exploded_of_ne]

end Figures

variable {catalog : Catalog} {formula : Text} {parts : List Part} {inputs others : Inputs}

/-- The parts of an exploded formula are ready where those of the formula itself are. -/
theorem Ready.exploded (ready : Ready inputs ((parts.flatMap Part.segments).flatMap text) parts)
    (cut : ∀ part ∈ parts, part.Cut nullTest)
    (scalars : ∀ function head, .call function head ∈ parts.flatMap Part.segments →
      function ∈ Builtin.scalars) (finite : others.supply.Finite)
    (unsampled : others.samples = none) :
    Ready others
      (((parts.flatMap (Part.exploded inputs.supply)).flatMap Part.segments).flatMap text)
      (parts.flatMap (Part.exploded inputs.supply)) := by
  have rows := Part.rows_exploded inputs.supply parts
  have regular := ready.regular.exploded ready.finite
  have some := exploded_ne_nil ready.finite ready.regular ready.some
  -- A segment of the exploded formula is one of the formula itself, or belongs to a figure.
  have known : ∀ segment ∈ (parts.flatMap (Part.exploded inputs.supply)).flatMap Part.segments,
      segment ∈ parts.flatMap Part.segments ∨ Segment.Numeral segment := by
    intro segment member
    rw [rows] at member
    obtain ⟨other, within, member⟩ := List.mem_flatMap.mp member
    rcases Segment.mem_exploded ready.finite member with rfl | numeral
    · exact .inl within
    · exact .inr numeral
  rw [← rows] at regular some
  have cut : ∀ part ∈ parts.flatMap (Part.exploded inputs.supply), part.Cut nullTest :=
    fun part member => by
    obtain ⟨other, within, member⟩ := List.mem_flatMap.mp member
    exact (cut other within).exploded ready.finite part member
  refine ⟨⟨.of_scalars regular cut fun function head member => ?_, fun segment member => ?_,
      fun piece member => ?_⟩, some, fun lead found tail member => ?_, finite, unsampled⟩
  · rcases known _ member with own | impossible
    · exact scalars function head own
    · cases impossible
  · rcases known _ member with own | numeral
    · exact ready.held segment own
    · rw [numeral.eq_self.2.2.1]
      exact regular.formed segment member
  · rw [List.flatMap_assoc] at member
    obtain ⟨part, within, member⟩ := List.mem_flatMap.mp member
    exact Part.asksPlainly_exploded ready.finite (Part.regular_segments ready.regular within)
      (fun piece found => ready.plainly piece (List.mem_flatMap.mpr ⟨part, within, found⟩)) piece
      member
  · rcases known _ member with own | impossible
    · exact ready.alone lead found tail own
    · cases impossible

/-- Where references stand alone and tests ask for one item each, an exploded valid formula has the
value of the formula itself, for every strategy and all numbers that are finite. -/
theorem formulaValue_exploded {settings : Settings} {days : Option Nat}
    {values : List (ValueKey × Option Number)} {strategy : Option Text}
    (valid : validateRule catalog formula = .ok .valid) (alone : ReferencesAlone formula)
    (plainly : TestsPlainly formula)
    (finite : (catalog.figures.inputs days values strategy).Finite) :
    ∃ exploded, explode catalog.figures (days.map fun count : Nat => .int count) formula =
        .ok (some exploded) ∧
      (formulaValue settings { values, strategy } false exploded).outcome =
        (formulaValue settings (catalog.figures.inputs days values strategy) false
          formula).outcome := by
  have accepted := accepted_of_validateRule valid
  have some := accepted.value.1
  clear valid
  obtain ⟨segments, rfl, valid⟩ := accepted.segments
  obtain ⟨parts, rfl, cut, prepared⟩ := valid.prepared
  have alone := valid.regular.alone alone
  refine ⟨_, explode_segments finite valid.regular alone some, ?_⟩
  have finiteValues := finite.values
  generalize whole : catalog.figures.inputs days values strategy = inputs at finite ⊢
  have strategies : strategy = inputs.strategy := whole ▸ rfl
  have same : ∀ reference, reference.isDimensional = true →
      (Inputs.supply { values, strategy }).number? reference = inputs.supply.number? reference :=
    fun reference dimensional => by
    rw [Supply.number?_of_isDimensional _ dimensional,
      Supply.number?_of_isDimensional _ dimensional, ← whole]
    rfl
  have ready : Ready inputs ((parts.flatMap Part.segments).flatMap text) parts :=
    ⟨⟨prepared, valid.held, prepared.pieces ▸ plainly⟩, some, alone, Supply.finite_of_inputs finite,
      whole ▸ rfl⟩
  have ready' := @Ready.exploded _ _ { values, strategy } ready cut valid.allowed
    (Supply.finite_of_inputs ⟨finiteValues, nofun, nofun, nofun⟩) rfl
  -- What the passes leave of both formulas differs in figures only.
  have cleared : clearedSegments (Inputs.supply { values, strategy })
        (parts.flatMap (Part.exploded inputs.supply)) =
      (clearedSegments inputs.supply parts).flatMap (Segment.exploded inputs.supply) :=
    clearedSegments_exploded ready.finite same (whole ▸ rfl) ready.toPlain
  rw [← Part.rows_exploded]
  refine ready'.formulaValue_eq ready strategies ?_
    (fun item member => same item (List.mem_filter.mp member).2) ?_ settings
  · rw [clearedItems, clearedItems, cleared, Piece.items, Piece.items, Segment.references_pieces,
      Segment.references_pieces, Segment.filter_reference?_exploded ready.finite]
  · rw [filledSegments, filledSegments, cleared, Segment.lexemes_exploded ready.finite same]

theorem formulaValue_exploded_figures :
    explode { constants := [(['c'], .ofInt (-5))], groupCounts := [(['g'], 12)] } (some (.int 30))
        "IF(isNull(#{a}), C{c} * [days], OUG{g} + #{a})".toList =
          .ok (some "IF(isNull(#{a}), (-5.0) * 30, 12 + #{a})".toList) ∧
      (formulaValue {} { values := [(.text ['a'], none)] } false
        "IF(isNull(#{a}), (-5.0) * 30, 12 + #{a})".toList).outcome =
          (formulaValue {}
            { values := [(.text ['a'], none)], constants := [(['c'], .double (.ofInt (-5)))],
              groupCounts := [(['g'], .int 12)], days := some (.int 30) } false
            "IF(isNull(#{a}), C{c} * [days], OUG{g} + #{a})".toList).outcome := by
  let catalog : Catalog :=
    { dataElements := [⟨['a'], ['A']⟩], constants := [⟨⟨['c'], ['C']⟩, .ofInt (-5)⟩],
      orgUnitGroups := [⟨⟨['g'], ['G']⟩, 12⟩] }
  let formula := "IF(isNull(#{a}), C{c} * [days], OUG{g} + #{a})".toList
  have valid : validateRule catalog formula = .ok .valid := by decide +kernel
  have finite : (catalog.figures.inputs (some 30) [(.text ['a'], none)] none).Finite :=
    ⟨by decide +kernel, by decide +kernel, by decide +kernel, by decide +kernel⟩
  have text : explode catalog.figures (some (.int 30)) formula =
      .ok (some "IF(isNull(#{a}), (-5.0) * 30, 12 + #{a})".toList) := by decide +kernel
  obtain ⟨exploded, explodes, same⟩ :=
    @formulaValue_exploded _ _ {} _ _ _ valid (by decide +kernel) (by decide +kernel) finite
  obtain rfl : exploded = _ := Option.some.inj (Except.ok.inj (explodes.symm.trans text))
  exact ⟨text, same⟩

/-- An exploded figure is taken for the text that a test asks for, where the reference itself would
not be. -/
theorem formulaValue_exploded_constant :
    validateRule { dataElements := [⟨['a'], ['A']⟩], constants := [⟨⟨['c'], ['C']⟩, .ofInt 5⟩] }
          "IF(isNull(#{a} + C{c}), #{a} + 5.0, 1)".toList = .ok .valid ∧
      explode { constants := [(['c'], .ofInt 5)] }
          none "IF(isNull(#{a} + C{c}), #{a} + 5.0, 1)".toList =
        .ok (some "IF(isNull(#{a} + 5.0), #{a} + 5.0, 1)".toList) ∧
      (formulaValue {} {} false "IF(isNull(#{a} + 5.0), #{a} + 5.0, 1)".toList).outcome =
        .ok (some (.ofInt 0)) ∧
      (formulaValue {} { constants := [(['c'], .double (.ofInt 5))] } false
          "IF(isNull(#{a} + C{c}), #{a} + 5.0, 1)".toList).outcome = .ok (some (.ofInt 5)) := by
  decide +kernel

-- A count in front of a digit makes a longer number when it is exploded, and another fraction when
-- it is filled in.
example :
    explode {} (some (.int 30)) "[days]5".toList = .ok (some "305".toList) ∧
      (formulaValue {} { days := some (.int 30) } false "[days]5".toList).outcome =
        .ok (some (.ofRatio false 3005 100)) := by
  decide +kernel

end IndicatorFormula
