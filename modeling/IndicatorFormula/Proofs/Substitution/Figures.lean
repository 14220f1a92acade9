import IndicatorFormula.Proofs.Substitution.Clearing
import IndicatorFormula.Proofs.Substitution.Filling
import IndicatorFormula.Proofs.Substitution.Places

/-! Formulas with their figures in place.

Whole numbers that are written as such are read as the floating-point numbers that a formula is
filled in with, so that their segments may stand where the references of figures do. What the passes
do, they do before or after that alike. -/

set_option autoImplicit false
namespace IndicatorFormula

open Segment (text lexemes nesting Regular filled)

namespace Segment

variable {numbers : Supply} {segment : Segment} {segments : List Segment}

def ofFigure (numbers : Supply) (reference : Reference) : List Segment :=
  match numbers.number? reference with
  | some (.int (.ofNat n)) => [.number (Text.ofNat n) (.ofInt n)]
  | _ => ofReference numbers reference

def exploded (numbers : Supply) : Segment → List Segment
  | .reference lead found tail =>
    if found.isDimensional then [.reference lead found tail] else ofFigure numbers found
  | segment => [segment]

def explodedText (numbers : Supply) (reference : Reference) : Text :=
  if reference.isDimensional then reference.text else (ofFigure numbers reference).flatMap text

theorem text_exploded {found : Reference} :
    ((Segment.reference [] found []).exploded numbers).flatMap text =
      explodedText numbers found := by
  rw [exploded, explodedText, apply_ite (List.flatMap text)]
  simp [text]

theorem exploded_of_ne (other : ∀ lead found tail, segment ≠ .reference lead found tail) :
    segment.exploded numbers = [segment] := by
  cases segment with
  | reference lead found tail => exact absurd rfl (other lead found tail)
  | _ => rfl

inductive Numeral : Segment → Prop where
  | number {literal : Text} {value : Double} (number : Lexer.IsNumber literal value) :
      Numeral (.number literal value)
  | symbol (sign : Symbol) : Numeral (.symbol sign)

theorem numeral_ofReference (finite : numbers.Finite) (reference : Reference) :
    ∀ segment ∈ ofReference numbers reference, Numeral segment := by
  rw [ofReference]
  cases supplied : numbers.number? reference with
  | none => simpa using Numeral.number isNumber_missingLiteral
  | some x =>
    obtain ⟨negative, m, value⟩ := finite reference x supplied
    have number := Numeral.number (Lexer.isNumber_magnitude m)
    simp only [value]
    cases negative <;> simp [ofMagnitude, number, Numeral.symbol]

theorem lexemes_ofFigure (finite : numbers.Finite) (reference : Reference) :
    (ofFigure numbers reference).flatMap lexemes = (ofReference numbers reference).flatMap lexemes ∧
      ∀ segment ∈ ofFigure numbers reference, Numeral segment := by
  unfold ofFigure
  split
  · rename_i n supplied
    refine ⟨?_, by simpa using Numeral.number (Lexer.isNumber_ofNat n)⟩
    obtain ⟨negative, m, value⟩ := finite reference _ supplied
    have converted : Double.ofInt n = .finite negative m := by
      rw [Number.toDouble] at value
      split at value
      · cases value
      · exact Except.ok.inj value
    -- No count is negative, so that its digits are the whole of it in either form.
    have positive : negative = false := by
      rw [Double.ofInt, Double.ofRatio, Double.ofUnits, Double.ofMagnitude] at converted
      split at converted
      · cases converted
        simp
      · cases converted
    subst positive
    simp only [ofReference, supplied, value, ofMagnitude, converted]
    rfl
  · exact ⟨rfl, numeral_ofReference finite reference⟩

theorem balanced_ofFigure (finite : numbers.Finite) (reference : Reference) :
    Balanced nesting (ofFigure numbers reference) := by
  have single : ∀ literal value, Balanced nesting [.number literal value] := fun _ _ =>
    balanced_of_stays fun segment member => List.mem_singleton.mp member ▸ rfl
  unfold ofFigure
  split
  · exact single _ _
  · rw [ofReference]
    cases supplied : numbers.number? reference with
    | none => exact single _ _
    | some x =>
      obtain ⟨negative, m, value⟩ := finite reference x supplied
      simp only [value]
      cases negative with
      | false => exact single _ _
      | true =>
        -- A negative number brings both of its brackets.
        have opens : nesting (.symbol (.opening .round)) = .opens := rfl
        have sign : nesting (.symbol (.operator .sub)) = .stays := rfl
        have closes : nesting (.symbol (.closing .round)) = .closes := rfl
        exact (Balanced.cons sign (single (numberLayout.magnitude m) (.finite false m))).enclosed
          opens closes

theorem mem_exploded (finite : numbers.Finite) {other : Segment}
    (member : other ∈ segment.exploded numbers) : other = segment ∨ Numeral other := by
  cases segment with
  | reference lead found tail =>
    by_cases item : found.isDimensional = true
    · rw [exploded, if_pos item] at member
      exact .inl (List.mem_singleton.mp member)
    · rw [exploded, if_neg item] at member
      exact .inr ((lexemes_ofFigure finite found).2 other member)
  | _ => exact .inl (List.mem_singleton.mp member)

theorem fits_exploded (finite : numbers.Finite) (formed : segment.Formed) :
    Fits segment (segment.exploded numbers) := by
  cases segment with
  | reference lead found tail =>
    unfold exploded
    simp only
    split
    · exact fits_self formed
    · rename_i figure
      unfold ofFigure
      split
      · rename_i n supplied
        exact fits_single (.number (Lexer.isNumber_ofNat n))
          (fun _ impossible => nomatch impossible) (fun _ => rfl) fun _ => rfl
      · exact fits_filled finite formed
  | _ => exact fits_self formed

theorem depth?_exploded (finite : numbers.Finite) (segments : List Segment) (depth : Nat) :
    depth? nesting depth (segments.flatMap (exploded numbers)) = depth? nesting depth segments := by
  have same : ∀ segment ∈ segments, ∀ depth, depth? nesting depth (segment.exploded numbers) =
      depth? nesting depth [segment] := by
    intro segment _ depth
    cases segment with
    | reference lead found tail =>
      unfold exploded
      simp only
      split
      · rfl
      · exact balanced_ofFigure finite found depth
    | _ => rfl
  rw [depth?_flatMap_congr same, List.flatMap_singleton']

theorem Numeral.eq_self (numeral : Numeral segment) :
    segment.capitalized = segment ∧ (∀ reference, segment.cleared reference = segment) ∧
      segment.held = segment ∧ segment.reference? = none := by
  cases numeral <;> exact ⟨rfl, fun _ => rfl, rfl, rfl⟩

theorem map_exploded (finite : numbers.Finite) {change : Segment → Segment}
    (still : ∀ segment, Numeral segment → change segment = segment)
    (figures : ∀ lead found tail, found.isDimensional = false →
      change (.reference lead found tail) = .reference lead found tail)
    (plain : ∀ segment, segment.exploded numbers = [segment] →
      (change segment).exploded numbers = [change segment]) (segment : Segment) :
    (segment.exploded numbers).map change = (change segment).exploded numbers := by
  have kept (same : segment.exploded numbers = [segment]) :
      (segment.exploded numbers).map change = (change segment).exploded numbers := by
    rw [plain segment same, same]
    rfl
  cases segment with
  | reference lead found tail =>
    by_cases item : found.isDimensional = true
    · exact kept (if_pos item)
    · have figure : found.isDimensional = false := by simpa using item
      rw [figures lead found tail figure, exploded, if_neg item]
      refine (List.map_congr_left fun segment member => ?_).trans (List.map_id _)
      exact still segment ((lexemes_ofFigure finite found).2 segment member)
  | _ => exact kept rfl

theorem map_exploded_capitalized (finite : numbers.Finite) (segment : Segment) :
    (segment.exploded numbers).map capitalized = segment.capitalized.exploded numbers := by
  refine map_exploded finite (fun _ numeral => numeral.eq_self.1) (fun _ _ _ _ => rfl)
    (fun segment same => ?_) segment
  cases segment <;> first | rfl | exact same

theorem map_exploded_cleared (finite : numbers.Finite) {reference : Reference}
    (item : reference.isDimensional = true) (segment : Segment) :
    (segment.exploded numbers).map (cleared reference) =
      (segment.cleared reference).exploded numbers := by
  refine map_exploded finite (fun _ numeral => numeral.eq_self.2.1 reference)
    (fun lead found tail figure => ?_) (fun segment same => ?_) segment
  · rw [cleared, if_neg fun same => ?_]
    rw [Reference.isDimensional, same.1] at figure
    exact absurd item (by simp [Reference.isDimensional, figure])
  · cases segment with
    | reference lead found tail =>
      unfold cleared
      simp only
      split
      · rfl
      · exact same
    | _ => rfl

theorem map_exploded_clearedAll (finite : numbers.Finite) {absent : List Reference}
    (items : ∀ reference ∈ absent, reference.isDimensional = true) (segment : Segment) :
    (segment.exploded numbers).map (clearedAll absent) =
      (segment.clearedAll absent).exploded numbers := by
  induction absent generalizing segment with
  | nil => exact List.map_id _
  | cons reference absent ih =>
    obtain ⟨item, rest⟩ := List.forall_mem_cons.mp items
    change (segment.exploded numbers).map (clearedAll absent ∘ cleared reference) = _
    rw [← List.map_map, map_exploded_cleared finite item, ih rest]
    rfl

theorem filter_reference?_exploded (finite : numbers.Finite) (segments : List Segment) :
    ((segments.flatMap (exploded numbers)).filterMap reference?).filter Reference.isDimensional =
      (segments.filterMap reference?).filter Reference.isDimensional := by
  rw [List.filterMap_flatMap, List.filter_flatMap, List.filterMap_eq_flatMap_toList,
    List.filter_flatMap]
  refine List.flatMap_congr fun segment _ => ?_
  cases segment with
  | reference lead found tail =>
    by_cases item : found.isDimensional = true
    · simp [exploded, item, reference?]
    · have figure : found.isDimensional = false := by simpa using item
      have none : (ofFigure numbers found).filterMap reference? = [] :=
        List.filterMap_eq_nil_iff.mpr fun segment member =>
        ((lexemes_ofFigure finite found).2 segment member).eq_self.2.2.2
      simp [exploded, figure, reference?, none]
  | _ => rfl

theorem lexemes_exploded (finite : numbers.Finite) {others : Supply}
    (same : ∀ reference, reference.isDimensional = true →
      others.number? reference = numbers.number? reference) (segments : List Segment) :
    ((segments.flatMap (exploded numbers)).flatMap (filled others)).flatMap lexemes =
      (segments.flatMap (filled numbers)).flatMap lexemes := by
  rw [List.flatMap_assoc, List.flatMap_assoc, List.flatMap_assoc]
  refine List.flatMap_congr fun segment _ => ?_
  cases segment with
  | reference lead found tail =>
    by_cases item : found.isDimensional = true
    · simp [exploded, item, filled, ofReference, same found item]
    · have figure : found.isDimensional = false := by simpa using item
      obtain ⟨alike, numerals⟩ := lexemes_ofFigure finite found
      have still : (ofFigure numbers found).flatMap (filled others) = ofFigure numbers found := by
        refine (List.flatMap_congr fun segment member => ?_).trans (List.flatMap_singleton' _)
        cases numerals segment member <;> rfl
      rw [exploded, if_neg item, ← List.flatMap_assoc, still, alike]
      simp [filled]
  | _ => simp [exploded, filled]

theorem Regular.exploded (finite : numbers.Finite) (regular : Regular segments) :
    Regular (segments.flatMap (exploded numbers)) :=
  regular.flatMap fun segment member => fits_exploded finite (regular.formed segment member)

end Segment

namespace Part

variable {numbers : Supply} {functions : List Builtin} {part : Part}

def exploded (numbers : Supply) : Part → List Part
  | .plain segment => (segment.exploded numbers).map .plain
  | .call function head argument bracket =>
    [.call function head (argument.flatMap (Segment.exploded numbers)) bracket]

theorem segments_exploded (part : Part) :
    (part.exploded numbers).flatMap segments =
      part.segments.flatMap (Segment.exploded numbers) := by
  cases part with
  | plain segment => simp [exploded, segments, List.flatMap_map]
  | call function head argument bracket => simp [exploded, segments, Segment.exploded]

theorem rows_exploded (numbers : Supply) (parts : List Part) :
    (parts.flatMap (exploded numbers)).flatMap segments =
      (parts.flatMap segments).flatMap (Segment.exploded numbers) := by
  rw [List.flatMap_assoc, List.flatMap_assoc]
  exact List.flatMap_congr fun part _ => part.segments_exploded

theorem Cut.exploded (finite : numbers.Finite) (cut : part.Cut functions) :
    ∀ other ∈ part.exploded numbers, other.Cut functions := by
  cases part with
  | plain segment =>
    intro other member
    obtain ⟨inner, within, rfl⟩ := List.mem_map.mp member
    rintro function head rfl
    rcases Segment.mem_exploded finite within with same | impossible
    · exact cut function head same.symm
    · cases impossible
  | call function head argument bracket =>
    intro other member
    rw [List.mem_singleton.mp member]
    refine ⟨cut.1, fun depth => ?_⟩
    rw [Segment.depth?_exploded finite, cut.2 depth]

theorem asked_exploded (finite : numbers.Finite) (regular : Regular part.segments) :
    (part.exploded numbers).filterMap asked? = part.asked?.toList := by
  cases part with
  | plain segment => simp [exploded, asked?, List.filterMap_map, Function.comp_def]
  | call function head argument bracket =>
    have inner : Regular argument := regular.tail.take
    have same : testedReference? ((argument.flatMap (Segment.exploded numbers)).flatMap text) =
        testedReference? (argument.flatMap text) := by
      rw [(inner.exploded finite).testedReference?_eq, inner.testedReference?_eq,
        Segment.filter_reference?_exploded finite]
    cases asks : testedReference? (argument.flatMap text) <;> simp [exploded, asked?, same, asks]

theorem exploded_of_asks (regular : Regular part.segments)
    (plainly : ∀ piece ∈ part.pieces, piece.AsksPlainly) (asks : part.asked? ≠ none) :
    part.exploded numbers = [part] := by
  cases part with
  | plain segment => exact absurd rfl asks
  | call function head argument bracket =>
    obtain ⟨reference, asked⟩ := Option.ne_none_iff_exists'.mp asks
    have inner : Regular argument := regular.tail.take
    have trimmed :=
      plainly (.call head (argument.flatMap text) bracket.closer) List.mem_cons_self reference asked
    obtain ⟨dimensional, lead, tail, found⟩ := inner.tested_mem asked
    cases inner.formed _ found with
    | reference legible =>
    -- The item is the only reference in the argument, where there is no figure then.
    have only := inner.references_of_trim legible trimmed
    have still : ∀ segment ∈ argument, segment.exploded numbers = [segment] := by
      intro segment member
      cases segment with
      | reference lead other tail =>
        have among : other ∈ argument.filterMap Segment.reference? :=
          List.mem_filterMap.mpr ⟨_, member, rfl⟩
        rw [only] at among
        rw [Segment.exploded, List.mem_singleton.mp among, if_pos dimensional]
      | _ => rfl
    rw [exploded, List.flatMap_congr still, List.flatMap_singleton']

theorem tested_of_asked {hasValue : Text → Bool} (none : part.asked? = none) :
    part.tested hasValue = part.segments := by
  cases part with
  | plain segment => rfl
  | call function head argument bracket =>
    have asks : testedReference? (argument.flatMap text) = .none := none
    simp only [tested, asks]

theorem tested_exploded (finite : numbers.Finite) (hasValue : Text → Bool)
    (regular : Regular part.segments) (plainly : ∀ piece ∈ part.pieces, piece.AsksPlainly) :
    (part.exploded numbers).flatMap (tested hasValue) =
      (part.tested hasValue).flatMap (Segment.exploded numbers) := by
  cases asks : part.asked? with
  | none =>
    have others : ∀ other ∈ part.exploded numbers, other.asked? = none := by
      have all := asked_exploded finite regular
      rw [asks] at all
      exact List.filterMap_eq_nil_iff.mp all
    rw [tested_of_asked asks,
      List.flatMap_congr fun other member => tested_of_asked (others other member),
      segments_exploded]
  | some reference =>
    rw [exploded_of_asks regular plainly (by simp [asks])]
    cases part with
    | plain segment => cases asks
    | call function head argument bracket =>
      have asks : testedReference? (argument.flatMap text) = some reference := asks
      simp [tested, asks, Segment.exploded]

theorem asksPlainly_exploded (finite : numbers.Finite) (regular : Regular part.segments)
    (plainly : ∀ piece ∈ part.pieces, piece.AsksPlainly) :
    ∀ piece ∈ (part.exploded numbers).flatMap pieces, piece.AsksPlainly := by
  cases asks : part.asked? with
  | some reference =>
    rw [exploded_of_asks regular plainly (by simp [asks])]
    simpa using plainly
  | none =>
    intro piece member
    obtain ⟨other, within, member⟩ := List.mem_flatMap.mp member
    have none : other.asked? = none := by
      have all := asked_exploded finite regular
      rw [asks] at all
      exact List.filterMap_eq_nil_iff.mp all other within
    cases other with
    | plain segment =>
      obtain ⟨c, -, rfl⟩ := List.mem_map.mp member
      trivial
    | call function head argument bracket =>
      rw [List.mem_singleton.mp member]
      intro reference tested
      cases (show testedReference? (argument.flatMap text) = .none from none).symm.trans tested

end Part

/-- Where the figures of a formula stand in its parts, the passes leave the figures where they would
leave references. -/
theorem clearedSegments_exploded {numbers others : Supply} (finite : numbers.Finite)
    (same : ∀ reference, reference.isDimensional = true →
      others.number? reference = numbers.number? reference)
    (values : others.values = numbers.values) {formula : Text} {parts : List Part}
    (plain : Plain formula parts) :
    clearedSegments others (parts.flatMap (Part.exploded numbers)) =
      (clearedSegments numbers parts).flatMap (Segment.exploded numbers) := by
  have regular : ∀ part ∈ parts, Regular part.segments :=
    fun part member => Part.regular_segments plain.regular member
  have own : ∀ part ∈ parts, ∀ piece ∈ part.pieces, piece.AsksPlainly :=
    fun part member piece within =>
    plain.plainly piece (List.mem_flatMap.mpr ⟨part, member, within⟩)
  have asked : (parts.flatMap (Part.exploded numbers)).filterMap Part.asked? =
      parts.filterMap Part.asked? := by
    rw [List.filterMap_flatMap, List.filterMap_eq_flatMap_toList]
    exact List.flatMap_congr fun part member => Part.asked_exploded finite (regular part member)
  have absent : absentItems others (parts.flatMap (Part.exploded numbers)) =
      absentItems numbers parts := by
    rw [absentItems, absentItems, asked]
    refine List.filter_congr fun reference member => ?_
    rw [same reference (plain.asked member).1]
  have tested : (parts.flatMap (Part.exploded numbers)).flatMap
        (Part.tested fun key => (others.values.lookup key).isSome) =
      (parts.flatMap (Part.tested fun key => (numbers.values.lookup key).isSome)).flatMap
        (Segment.exploded numbers) := by
    rw [values, List.flatMap_assoc, List.flatMap_assoc]
    exact List.flatMap_congr
      fun part member => Part.tested_exploded finite _ (regular part member) (own part member)
  have items : ∀ reference ∈ absentItems numbers parts, reference.isDimensional = true :=
    fun reference member =>
    (plain.asked (List.mem_of_mem_filter member)).1
  rw [clearedSegments, clearedSegments, absent, tested]
  generalize parts.flatMap _ = row
  simp only [List.map_flatMap, List.flatMap_map, Segment.map_exploded_capitalized finite,
    Segment.map_exploded_clearedAll finite items]

theorem exploded_ne_nil {numbers : Supply} (finite : numbers.Finite) {segments : List Segment}
    (regular : Regular segments) (some : segments.flatMap text ≠ []) :
    (segments.flatMap (Segment.exploded numbers)).flatMap text ≠ [] := by
  obtain ⟨c, found⟩ := List.exists_mem_of_ne_nil _ some
  obtain ⟨segment, member, -⟩ := List.mem_flatMap.mp found
  obtain ⟨other, within⟩ :=
    List.exists_mem_of_ne_nil _ (Segment.fits_exploded finite (regular.formed segment member)).some
  have among : other ∈ segments.flatMap (Segment.exploded numbers) :=
    List.mem_flatMap.mpr ⟨segment, member, within⟩
  obtain ⟨d, rest, shape, -⟩ := ((regular.exploded finite).formed other among).head
  exact List.ne_nil_of_mem (List.mem_flatMap.mpr ⟨other, among, shape ▸ List.mem_cons_self⟩)

end IndicatorFormula
