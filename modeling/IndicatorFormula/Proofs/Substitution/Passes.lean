import IndicatorFormula.Proofs.Formula.Calls

/-! The passes over the calls of a formula, part by part.

The pass for samples leaves the segments of a formula as they are if there are no samples, but for
capitals. The pass for tests makes truth values of some of its parts, and then replaces text without
regard to parts. -/

set_option autoImplicit false
namespace IndicatorFormula

open Segment (text nesting Regular Replaces)

theorem passOverUnclosed_closed (strict : Bool) (formula : Text) (position : Nat)
    {pieces : List CallPiece} (closed : ∀ head, .unclosed head ∉ pieces) :
    passOverUnclosed strict formula position pieces = pure () := by
  induction pieces generalizing position with
  | nil => rfl
  | cons piece pieces ih =>
    have rest :=
      ih (position + piece.text.length)
        fun head member => closed head (List.mem_cons_of_mem _ member)
    cases piece with
    | unclosed head => exact absurd List.mem_cons_self (closed head)
    | plain | call => exact rest

theorem Part.closed (parts : List Part) (head : CallHead) :
    .unclosed head ∉ parts.flatMap Part.pieces := by
  intro member
  obtain ⟨part, -, member⟩ := List.mem_flatMap.mp member
  cases part <;> simp [Part.pieces] at member

/-- Samples are put in place piece by piece, unless some are missing and that is a reason to skip
the formula. -/
theorem samplePieces_of_closed {samples : Option Samples} {texts : CallPiece → Text}
    {pieces : List CallPiece}
    (each : ∀ piece ∈ pieces, (∀ head, piece ≠ .unclosed head) ∧
      samplePiece samples piece = .ok (texts piece)) (skipsMissing strict : Bool) (formula : Text)
    (position : Nat) :
    samplePieces samples skipsMissing strict formula position pieces =
      pure (if skipsMissing && pieces.any (lacksSamples samples) then none
        else some (pieces.flatMap texts)) := by
  induction pieces generalizing position with
  | nil => simp [samplePieces]
  | cons piece pieces ih =>
    obtain ⟨closed, sampled⟩ := each piece List.mem_cons_self
    have own : passOverUnclosed strict formula position [piece] = pure () :=
      passOverUnclosed_closed strict formula position
        fun head member => closed head (List.mem_singleton.mp member).symm
    have later := ih fun other member => each other (List.mem_cons_of_mem _ member)
    rw [samplePieces]
    simp only [own, sampled, later, Except.mapError, List.any_cons, Bool.and_or_distrib_left]
    by_cases here : (skipsMissing && lacksSamples samples piece) = true
    · simp [here]
    · by_cases there : (skipsMissing && pieces.any (lacksSamples samples)) = true
      · simp only [here, there, Bool.false_or, ↓reduceIte]
        rfl
      · simp only [here, there, Bool.false_or]
        rfl

theorem samplePieces_of_ok {samples : Option Samples} {texts : CallPiece → Text}
    {pieces : List CallPiece}
    (each : ∀ piece ∈ pieces, (∀ head, piece ≠ .unclosed head) ∧
      lacksSamples samples piece = false ∧ samplePiece samples piece = .ok (texts piece))
    (skipsMissing strict : Bool) (formula : Text) (position : Nat) :
    samplePieces samples skipsMissing strict formula position pieces =
      pure (some (pieces.flatMap texts)) := by
  have none : pieces.any (lacksSamples samples) = false :=
    List.any_eq_false.mpr fun piece member => by simp [(each piece member).2.1]
  rw [samplePieces_of_closed (fun piece member => ⟨(each piece member).1, (each piece member).2.2⟩),
    none, Bool.and_false]
  rfl

theorem depth?_capitalized (segments : List Segment) (depth : Nat) :
    depth? nesting depth (segments.map Segment.capitalized) = depth? nesting depth segments := by
  have same : ∀ segment : Segment, segment.capitalized.nesting = segment.nesting := by
    intro segment
    cases segment <;> rfl
  unfold depth?
  rw [List.foldlM_map]
  simp only [same]

theorem Part.map_capitalized (part : Part) :
    part.capitalized.segments.map Segment.capitalized = part.segments.map Segment.capitalized := by
  cases part with
  | plain segment => rfl
  | call function head argument bracket =>
    simp only [Part.capitalized, Part.segments, List.cons_append, List.map_cons,
      Segment.capitalized, CallHead.capitalized_capitalized]

def CallPiece.capitalText : CallPiece → Text
  | .call head argument closer => head.capitalized.text ++ argument ++ [closer]
  | piece => piece.text

theorem Part.capitalText (part : Part) :
    part.pieces.flatMap CallPiece.capitalText = part.capitalized.segments.flatMap text := by
  cases part with
  | plain segment =>
    simp [Part.pieces, Part.capitalized, Part.segments, List.flatMap_map, CallPiece.capitalText,
      CallPiece.text]
  | call function head argument bracket =>
    simp [Part.pieces, Part.capitalized, Part.segments, CallPiece.capitalText, text,
      Bracket.text_closing]

theorem substituteSamples_closed {formula : Text}
    (closed : ∀ head, .unclosed head ∉ CallPiece.ofText aggregateFunctions formula)
    (strategy : Strategy) (strict : Bool) :
    substituteSamples formula none strategy strict =
      pure (some
        ((CallPiece.ofText aggregateFunctions formula).flatMap CallPiece.capitalText)) := by
  refine samplePieces_of_ok (fun piece member => ?_) _ strict formula 0
  cases piece with
  | unclosed head => exact absurd member (closed head)
  | plain | call => exact ⟨nofun, rfl, rfl⟩

theorem substituteSamples_none {segments : List Segment} (regular : Regular segments)
    (balanced : Balanced nesting segments) :
    ∃ others, Regular others ∧ Balanced nesting others ∧
      others.map Segment.capitalized = segments.map Segment.capitalized ∧
      ∀ strategy strict, substituteSamples (segments.flatMap text) none strategy strict =
        pure (some (others.flatMap text)) := by
  obtain ⟨parts, rfl, cut, pieces⟩ := regular.parts aggregateFunctions balanced
  have capitals : ((parts.map Part.capitalized).flatMap Part.segments).map Segment.capitalized =
      (parts.flatMap Part.segments).map Segment.capitalized := by
    rw [List.flatMap_map, List.map_flatMap, List.map_flatMap]
    exact List.flatMap_congr fun part _ => part.map_capitalized
  refine ⟨(parts.map Part.capitalized).flatMap Part.segments, ?_, ?_, capitals,
    fun strategy strict => ?_⟩
  · rw [List.flatMap_map]
    exact regular.replace fun part _ => ⟨part.segments_ne_nil, part.replaces_capitalized⟩
  · intro depth
    rw [← depth?_capitalized, capitals, depth?_capitalized, balanced depth]
  · rw [substituteSamples_closed (pieces ▸ Part.closed parts), pieces, List.flatMap_assoc,
      List.flatMap_map, List.flatMap_assoc]
    simp only [Part.capitalText]

theorem Segment.Regular.mem_references {segments : List Segment} (regular : Regular segments)
    {found : Reference} :
    found ∈ references (segments.flatMap text) ↔
      ∃ lead tail, .reference lead found tail ∈ segments := by
  rw [references, regular.ofText, Piece.mem_references_iff, List.mem_flatMap]
  constructor
  · rintro ⟨segment, within, member⟩
    cases segment with
    | reference lead other tail =>
      simp only [Segment.pieces, List.mem_append, List.mem_map, List.mem_cons,
        Piece.reference.injEq] at member
      rcases member with ⟨_, -, impossible⟩ | rfl | ⟨_, -, impossible⟩
      · cases impossible
      · exact ⟨lead, tail, within⟩
      · cases impossible
    | _ => simp [Segment.pieces] at member
  · rintro ⟨lead, tail, member⟩
    exact ⟨_, member, by simp [Segment.pieces]⟩

def Part.tested (hasValue : Text → Bool) (part : Part) : List Segment :=
  match part with
  | .plain _ => part.segments
  | .call _ _ argument _ =>
    match testedReference? (argument.flatMap text) with
    | some reference => [.boolean !(hasValue reference.key)]
    | none => part.segments

def Part.asked? : Part → Option Reference
  | .plain _ => none
  | .call _ _ argument _ => testedReference? (argument.flatMap text)

def Part.missingArgument? (hasValue : Text → Bool) (part : Part) : Option Text :=
  match part with
  | .plain _ => none
  | .call _ _ argument _ =>
    match testedReference? (argument.flatMap text) with
    | some reference =>
      if hasValue reference.key then none else some (Text.trim (argument.flatMap text))
    | none => none

theorem Part.replaces_tested (hasValue : Text → Bool) (part : Part)
    (regular : Regular part.segments) : Replaces (part.tested hasValue) part.segments := by
  cases part with
  | plain segment => exact Segment.replaces_self (segments_ne_nil (.plain segment)) regular
  | call function head argument bracket =>
    unfold tested
    simp only
    split
    · exact replaces_boolean _ function head argument bracket
    · exact Segment.replaces_self (segments_ne_nil _) regular

def replaceAll (arguments : List Text) (text : Text) : Text :=
  arguments.foldl (fun text argument => Text.replace argument missingLiteral text) text

theorem Part.flatMap_testPiece (hasValue : Text → Bool) (parts : List Part) :
    (parts.flatMap Part.pieces).flatMap (testPiece hasValue) =
      (parts.flatMap (Part.tested hasValue)).flatMap text := by
  rw [List.flatMap_assoc, List.flatMap_assoc]
  refine List.flatMap_congr fun part _ => ?_
  cases part with
  | plain segment =>
    simp [Part.pieces, Part.tested, Part.segments, List.flatMap_map, testPiece, CallPiece.text]
  | call function head argument bracket =>
    cases found : testedReference? (argument.flatMap text) with
    | none =>
      simp [Part.pieces, Part.tested, testPiece, CallPiece.text, found, Part.segments, text,
        Bracket.text_closing]
    | some tested =>
      cases valued : hasValue tested.key <;>
        simp [Part.pieces, Part.tested, testPiece, found, text, valued]

/-- Tests for missing values are replaced part by part before their arguments are. -/
theorem substituteNullTests_parts {formula : Text} {parts : List Part}
    (pieces : CallPiece.ofText nullTest formula = parts.flatMap Part.pieces)
    (hasValue : Text → Bool) (strict : Bool) :
    substituteNullTests formula hasValue strict =
      pure (replaceAll (parts.filterMap (Part.missingArgument? hasValue))
        ((parts.flatMap (Part.tested hasValue)).flatMap text)) := by
  have missing : (parts.flatMap Part.pieces).filterMap
        (IndicatorFormula.missingArgument? hasValue) =
      parts.filterMap (Part.missingArgument? hasValue) := by
    rw [List.filterMap_flatMap, List.filterMap_eq_flatMap_toList]
    refine List.flatMap_congr fun part _ => ?_
    cases part with
    | plain segment => simp [Part.pieces, Part.missingArgument?, IndicatorFormula.missingArgument?]
    | call function head argument bracket =>
      simp only [Part.pieces, List.filterMap_cons, List.filterMap_nil,
        IndicatorFormula.missingArgument?, Part.missingArgument?]
      cases testedReference? (argument.flatMap text) with
      | none => rfl
      | some tested => cases hasValue tested.key <;> rfl
  rw [substituteNullTests, pieces]
  simp only [passOverUnclosed_closed strict formula 0 (Part.closed parts), pure_bind,
    Part.flatMap_testPiece, missing]
  rfl

end IndicatorFormula
