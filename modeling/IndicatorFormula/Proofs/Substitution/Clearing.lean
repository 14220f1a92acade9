import IndicatorFormula.Proofs.Substitution.Coverage

/-! Clearing missing items.

The argument of a test that finds its item's value missing is replaced by zero wherever its text
stands. Where the argument is nothing but a reference that is the same as replacing this reference:
its text holds a key in braces, and braces are only in references. -/

set_option autoImplicit false
namespace IndicatorFormula

namespace Text

variable {old new text behind : Text}

theorem replace_old (some : old ≠ []) (behind : Text) :
    replace old new (old ++ behind) = new ++ replace old new behind := by
  cases old with
  | nil => exact absurd rfl some
  | cons c rest =>
    have found : after? (c :: rest) (c :: rest ++ behind) = .some behind :=
      after?_eq_some_iff.mpr rfl
    rw [List.cons_append] at found ⊢
    rw [replace]
    split
    · rename_i behind' found'
      rw [found] at found'
      cases found'
      rw [dif_neg some]
    · rename_i none
      rw [found] at none
      cases none

theorem replace_cons {c : Char} (none : after? old (c :: text) = none) :
    replace old new (c :: text) = c :: replace old new text := by
  rw [replace]
  split
  · rename_i found
    cases none.symm.trans found
  · rfl

theorem replace_append {afterWord : Bool}
    (silent : Silent (fun _ => after? old) afterWord text behind) :
    replace old new (text ++ behind) = text ++ replace old new behind := by
  have passed := silent.scan fun _ _ _ none => @replace_cons _ new _ _ none
  rwa [List.map_id'] at passed

end Text

namespace Reference

variable {reference : Reference}

theorem text_of_isDimensional (dimensional : reference.isDimensional = true) :
    reference.kind.key = [reference.kind.mark] ∧
      reference.text = reference.kind.mark :: '{' :: (reference.key ++ ['}']) := by
  have other := kind_ne_days dimensional
  have single : reference.kind.key = [reference.kind.mark] := by
    unfold isDimensional at dimensional
    cases kind : reference.kind <;>
      first | rfl | simp [kind, ReferenceKind.isDimensional] at dimensional
  refine ⟨single, ?_⟩
  rw [text, if_neg other, single]
  rfl

end Reference

theorem silent_of_braceless {mark : Char} {key text behind : Text} {afterWord : Bool}
    (plain : '{' ∉ text) (next : behind.head? ≠ some '{') :
    Silent (fun _ => Text.after? (mark :: '{' :: key)) afterWord text behind := by
  induction text generalizing afterWord with
  | nil => trivial
  | cons c text ih =>
    refine ⟨?_, ih fun member => plain (List.mem_cons_of_mem c member)⟩
    refine Option.eq_none_iff_forall_ne_some.mpr fun rest found => ?_
    obtain ⟨-, same⟩ := List.cons.inj (Text.after?_eq_some_iff.mp found)
    cases text with
    | nil => exact next (by rw [List.nil_append] at same; rw [same]; rfl)
    | cons d text =>
      obtain ⟨rfl, -⟩ := List.cons.inj same
      exact plain (by simp)

theorem Reference.Legible.silent {found reference : Reference} (legible : found.Legible)
    (dimensional : reference.isDimensional = true) (each : ∀ c ∈ reference.key, isKey c = true)
    (other : ¬ (found.kind = reference.kind ∧ found.key = reference.key)) {behind : Text}
    (next : behind.head? ≠ some '{') {afterWord : Bool} :
    Silent (fun _ => Text.after? reference.text) afterWord found.text behind := by
  rw [(text_of_isDimensional dimensional).2]
  by_cases days : found.kind = .days
  · refine silent_of_braceless ?_ next
    rw [text, if_pos days, days]
    decide
  obtain ⟨braced, each', shape⟩ := legible.shape days
  obtain ⟨-, ends, plain⟩ := ReferenceKind.mark_mem braced
  have plain : '{' ∉ found.kind.key.dropLast ∧ '{' ≠ found.kind.mark := by
    rw [ends, List.mem_append, List.mem_singleton, not_or] at plain
    exact plain
  have key : '{' ∉ found.key ++ ['}'] := fun member => by
    rcases List.mem_append.mp member with member | member
    · exact absurd (each' _ member) (by decide)
    · cases List.mem_singleton.mp member
  have mark : reference.kind.mark ≠ '{' := by
    cases reference.kind <;> decide
  rw [shape, ends, List.append_assoc]
  -- The key of a kind ends with the mark, and only behind it comes the brace.
  refine silent_append (silent_of_braceless plain.1 ?_) ⟨?_, ?_, silent_of_braceless key next⟩
  · intro opens
    exact plain.2 (Option.some.inj opens).symm
  · refine Option.eq_none_iff_forall_ne_some.mpr fun rest read => other ?_
    obtain ⟨same, later⟩ := List.cons.inj (Text.after?_eq_some_iff.mp read)
    have later : found.key ++ '}' :: behind = reference.key ++ '}' :: rest := by simpa using later
    exact ⟨ReferenceKind.mark_injective braced same, key_unique later each' each⟩
  · refine Option.eq_none_iff_forall_ne_some.mpr fun rest read => mark ?_
    exact (List.cons.inj (Text.after?_eq_some_iff.mp read)).1.symm

namespace Segment

variable {segment : Segment} {segments : List Segment} {reference : Reference}

def cleared (reference : Reference) : Segment → Segment
  | .reference lead found tail =>
    if found.kind = reference.kind ∧ found.key = reference.key then
      .number (lead ++ missingLiteral ++ tail) (Lexer.literalValue (lead ++ missingLiteral ++ tail))
    else .reference lead found tail
  | segment => segment

theorem Formed.replace (formed : segment.Formed) (dimensional : reference.isDimensional = true)
    (each : ∀ c ∈ reference.key, Reference.isKey c = true) {behind : Text}
    (next : behind.head? ≠ some '{') :
    Text.replace reference.text missingLiteral (segment.text ++ behind) =
      (segment.cleared reference).text ++ Text.replace reference.text missingLiteral behind := by
  have shape := (Reference.text_of_isDimensional dimensional).2
  -- What has no braces stays.
  have stays {text behind : Text} (plain : ∀ c ∈ text, c ≠ '{' ∧ c ≠ '}')
      (next : behind.head? ≠ some '{') :
      Text.replace reference.text missingLiteral (text ++ behind) =
        text ++ Text.replace reference.text missingLiteral behind := by
    have silent : Silent (fun _ => Text.after? reference.text) false text behind := by
      rw [shape]
      exact silent_of_braceless (fun member => (plain _ member).1 rfl) next
    exact Text.replace_append silent
  by_cases other : ∀ lead found tail, segment ≠ .reference lead found tail
  · rw [stays (formed.ne_brace fun lead found tail same => absurd same (other lead found tail))
      next]
    cases segment with
    | reference lead found tail => exact absurd rfl (other _ _ _)
    | _ => rfl
  simp only [not_forall, not_not] at other
  obtain ⟨lead, found, tail, rfl⟩ := other
  cases formed with
  | reference legible digits fresh literal =>
  have leads : ∀ c ∈ lead, c ≠ '{' ∧ c ≠ '}' := fun c member =>
    ne_brace_of_isWord (Lexer.isWord_of_isDigit (digits c member))
  have tails := ne_brace_of_literal literal
  have start := legible.head_ne_brace (tail ++ behind)
  have ends : (tail ++ behind).head? ≠ some '{' := by
    cases tail with
    | nil => exact next
    | cons c tail =>
      intro opens
      exact (tails c List.mem_cons_self).1 (Option.some.inj opens)
  simp only [text, List.append_assoc, cleared]
  rw [stays leads start]
  -- Two items are written alike exactly if their kinds and keys are the same.
  by_cases same : found.kind = reference.kind ∧ found.key = reference.key
  · have written : found.text = reference.text := by
      rw [Reference.text, Reference.text, same.1, same.2]
    rw [if_pos same, written, Text.replace_old reference.text_ne_nil, stays tails next]
    simp
  · have silent : Silent (fun _ => Text.after? reference.text) false found.text (tail ++ behind) :=
      legible.silent dimensional each same ends
    rw [if_neg same, Text.replace_append silent, stays tails next]
    simp

theorem Regular.replace_text (regular : Regular segments)
    (dimensional : reference.isDimensional = true)
    (each : ∀ c ∈ reference.key, Reference.isKey c = true) :
    Text.replace reference.text missingLiteral (segments.flatMap text) =
      (segments.map (cleared reference)).flatMap text := by
  rw [List.flatMap_map]
  refine @Regular.scan _ false _ (fun _ => Text.replace reference.text missingLiteral) _ regular
    (fun _ => by rw [Text.replace])
    (fun _ _ _ _ formed _ quiet => formed.replace dimensional each quiet.2)
    fun impossible => nomatch impossible

theorem alike_cleared (reference : Reference) (segment : Segment) :
    Alike (segment.cleared reference) segment := by
  cases segment with
  | reference lead found tail =>
    unfold cleared
    simp only
    split <;> exact ⟨rfl, rfl, fun _ => by simp⟩
  | _ => exact ⟨rfl, rfl, fun _ => Iff.rfl⟩

theorem Formed.cleared (formed : segment.Formed) (held : segment.held.Formed)
    (dimensional : reference.isDimensional = true) :
    (segment.cleared reference).Formed ∧ (segment.cleared reference).held.Formed := by
  cases segment with
  | reference lead found tail =>
    unfold Segment.cleared
    simp only
    split
    · rename_i same
      cases formed with
      | reference legible digits fresh literal =>
      -- Digits stand before the number of days only, and that is no item.
      have alone : lead = [] := by
        by_contra some
        rw [Reference.isDimensional, ← same.1, fresh some] at dimensional
        cases dimensional
      subst alone
      cases held with
      | number number =>
        have zero := Segment.Formed.number number.zero
        exact ⟨zero, zero⟩
    · exact ⟨formed, held⟩
  | _ => exact ⟨formed, held⟩

theorem capitalized_cleared (reference : Reference) (segment : Segment) :
    (segment.cleared reference).capitalized = segment.capitalized.cleared reference := by
  cases segment with
  | reference lead found tail =>
    by_cases same : found.kind = reference.kind ∧ found.key = reference.key
    · simp only [Segment.cleared, Segment.capitalized, if_pos same]
    · simp only [Segment.cleared, Segment.capitalized, if_neg same]
  | _ => rfl

end Segment

def Piece.written (numbers : Supply) : Piece → Except Fault Text
  | .plain c => .ok [c]
  | .reference found => literalOrZero (numbers.number? found)

def writtenText (numbers : Supply) (pieces : List Piece) : Except Fault Text := do
  return (← pieces.mapM (Piece.written numbers)).flatten

section Written

variable {numbers : Supply}

theorem writtenText_cons (piece : Piece) (pieces : List Piece) :
    writtenText numbers (piece :: pieces) = do
      let lead ← piece.written numbers
      let rest ← writtenText numbers pieces
      return lead ++ rest := by
  simp [writtenText, List.mapM_cons]

theorem writtenText_append (first second : List Piece) :
    writtenText numbers (first ++ second) = do
      let lead ← writtenText numbers first
      let rest ← writtenText numbers second
      return lead ++ rest := by
  simp [writtenText, List.mapM_append]

theorem writtenText_plain (text : Text) : writtenText numbers (text.map .plain) = .ok text := by
  induction text with
  | nil => rfl
  | cons c text ih =>
    rw [List.map_cons, writtenText_cons, ih]
    rfl

theorem result_prepend {filled : Except Fault Filling} {rest : Except Fault Text}
    (same : filled.map Filling.result = rest.map .text) (lead : Text) {count : Filling → Filling}
    (keeps : ∀ filling, (count filling).result = filling.result) :
    (filled >>= fun filling => pure (count (filling.prepend lead))).map Filling.result =
      (rest >>= fun text => pure (lead ++ text)).map .text := by
  cases filled with
  | error fault =>
    cases rest with
    | error other => exact same
    | ok text => cases same
  | ok filling =>
    cases rest with
    | error fault => cases same
    | ok text =>
      have result : filling.result = .text text := Except.ok.inj same
      change Except.ok (count (filling.prepend lead)).result = .ok (.text (lead ++ text))
      rw [keeps, Filling.prepend, result]

theorem fillPieces_written (numbers : Supply) (pieces : List Piece) :
    (fillPieces numbers false pieces).map Filling.result =
      (writtenText numbers pieces).map .text := by
  induction pieces with
  | nil => rfl
  | cons piece pieces ih =>
    rw [writtenText_cons]
    cases piece with
    | plain c => exact result_prepend ih [c] fun _ => rfl
    | reference found =>
      simp only [fillPieces, Piece.written, Bool.and_false, Bool.false_eq_true, ↓reduceIte]
      cases literalOrZero (numbers.number? found) with
      | error fault => split <;> rfl
      | ok lead =>
        split
        · exact result_prepend ih lead fun _ => rfl
        · exact result_prepend ih lead fun _ => rfl

theorem writtenText_congr {change : Segment → Segment} {segments : List Segment}
    (same : ∀ segment ∈ segments, writtenText numbers (change segment).pieces =
      writtenText numbers segment.pieces) :
    writtenText numbers ((segments.map change).flatMap Segment.pieces) =
      writtenText numbers (segments.flatMap Segment.pieces) := by
  induction segments with
  | nil => rfl
  | cons segment segments ih =>
    rw [List.map_cons, List.flatMap_cons, List.flatMap_cons, writtenText_append, writtenText_append,
      same segment List.mem_cons_self,
      ih fun other member => same other (List.mem_cons_of_mem _ member)]

theorem writtenText_cleared {reference : Reference} (missing : numbers.number? reference = none)
    (segment : Segment) :
    writtenText numbers (segment.cleared reference).pieces =
      writtenText numbers segment.pieces := by
  cases segment with
  | reference lead found tail =>
    unfold Segment.cleared
    simp only
    split
    · rename_i same
      have absent : numbers.number? found = none := by
        rw [numbers.number?_congr same.1 same.2, missing]
      have whole : Piece.written numbers (.reference found) = .ok missingLiteral := by
        rw [Piece.written, absent]
        rfl
      change writtenText numbers ((lead ++ missingLiteral ++ tail).map .plain) =
        writtenText numbers (lead.map .plain ++ .reference found :: tail.map .plain)
      rw [writtenText_append, writtenText_cons, whole, writtenText_plain, writtenText_plain,
        writtenText_plain, List.append_assoc]
      rfl
    · rfl
  | _ => rfl

open Segment (text pieces Regular)

def Segment.clearedAll (absent : List Reference) (segment : Segment) : Segment :=
  absent.foldl (fun segment reference => segment.cleared reference) segment

theorem Segment.capitalized_clearedAll (absent : List Reference) (segment : Segment) :
    (segment.clearedAll absent).capitalized = segment.capitalized.clearedAll absent := by
  induction absent generalizing segment with
  | nil => rfl
  | cons reference absent ih =>
    change ((segment.cleared reference).clearedAll absent).capitalized = _
    rw [ih, Segment.capitalized_cleared]
    rfl

/-- Items may be replaced by zero before references are. -/
theorem Segment.Regular.replaceAll_text {segments : List Segment} (regular : Regular segments)
    (held : ∀ segment ∈ segments, segment.held.Formed) {absent : List Reference}
    (each : ∀ reference ∈ absent, reference.isDimensional = true ∧
      ∀ c ∈ reference.key, Reference.isKey c = true) :
    Regular (segments.map (Segment.clearedAll absent)) ∧
      replaceAll (absent.map Reference.text) (segments.flatMap text) =
        (segments.map (Segment.clearedAll absent)).flatMap text := by
  -- One item after the other is replaced, and what is left stays regular.
  induction absent generalizing segments with
  | nil =>
    have same : segments.map (Segment.clearedAll []) = segments := List.map_id segments
    rw [same]
    exact ⟨regular, rfl⟩
  | cons reference absent ih =>
    obtain ⟨⟨dimensional, keys⟩, rest⟩ := List.forall_mem_cons.mp each
    have formed : ∀ segment ∈ segments, (segment.cleared reference).Formed ∧
        (segment.cleared reference).held.Formed :=
      fun segment member =>
        (regular.formed segment member).cleared (held segment member) dimensional
    have cleared :=
      regular.map (Segment.alike_cleared reference) fun segment member => (formed segment member).1
    obtain ⟨regular', replaced⟩ := ih cleared (fun other member => by
      obtain ⟨segment, within, rfl⟩ := List.mem_map.mp member
      exact (formed segment within).2) rest
    rw [List.map_map] at regular' replaced
    refine ⟨regular', replaced.symm.trans ?_ |>.symm⟩
    rw [← regular.replace_text dimensional keys]
    rfl

theorem writtenText_clearedAll {absent : List Reference}
    (missing : ∀ reference ∈ absent, numbers.number? reference = none) (segment : Segment) :
    writtenText numbers (segment.clearedAll absent).pieces =
      writtenText numbers segment.pieces := by
  induction absent generalizing segment with
  | nil => rfl
  | cons reference absent ih =>
    obtain ⟨here, rest⟩ := List.forall_mem_cons.mp missing
    exact (ih rest (segment.cleared reference)).trans (writtenText_cleared here segment)

end Written

open Segment (text Regular)

/-- Asks for the value of an item and nothing else, blanks apart, if it is a test for an item's
value. -/
def CallPiece.AsksPlainly : CallPiece → Prop
  | .call _ argument _ =>
    ∀ reference ∈ testedReference? argument, Text.trim argument = reference.text
  | _ => True

instance (piece : CallPiece) : Decidable piece.AsksPlainly :=
  match piece with
  | .call _ argument _ =>
    inferInstanceAs
      (Decidable (∀ reference ∈ testedReference? argument, Text.trim argument = reference.text))
  | .plain _ => .isTrue trivial
  | .unclosed _ => .isTrue trivial

/-- Every test for an item's value asks for this item and nothing else. -/
def TestsPlainly (formula : Text) : Prop :=
  ∀ piece ∈ CallPiece.ofText nullTest formula, piece.AsksPlainly

instance (formula : Text) : Decidable (TestsPlainly formula) :=
  inferInstanceAs (Decidable (∀ piece ∈ CallPiece.ofText nullTest formula, piece.AsksPlainly))

/-- A formula in which nothing is replaced but tests for items' values and references. -/
def directText (inputs : Inputs) (formula : Text) : Except Fault Text :=
  let numbers := inputs.supply
  let tested := (CallPiece.ofText nullTest formula).flatMap
    (testPiece fun key => (numbers.values.lookup key).isSome)
  writtenText numbers (Piece.ofText (capitalizeCalls tested))

theorem Prepared.of_scalars {parts : List Part} (regular : Regular (parts.flatMap Part.segments))
    (cut : ∀ part ∈ parts, part.Cut nullTest)
    (scalars : ∀ function head, .call function head ∈ parts.flatMap Part.segments →
      function ∈ Builtin.scalars) :
    Prepared ((parts.flatMap Part.segments).flatMap text) parts := by
  have plain : CallPiece.ofText aggregateFunctions ((parts.flatMap Part.segments).flatMap text) =
      ((parts.flatMap Part.segments).flatMap text).map .plain := by
    refine regular.ofText_plain fun function head member aggregate => ?_
    have disjoint : ∀ function ∈ Builtin.scalars, function ∉ aggregateFunctions := by decide
    exact disjoint function (scalars function head member) aggregate
  exact .of_capitals regular (fun strategy strict => substituteSamples_plain _ _ _ plain) cut
    regular rfl

theorem Segment.Valid.prepared {segments : List Segment} (valid : Valid Builtin.scalars segments) :
    ∃ parts : List Part, segments = parts.flatMap Part.segments ∧
      (∀ part ∈ parts, part.Cut nullTest) ∧ Prepared (segments.flatMap text) parts := by
  obtain ⟨parts, rfl, cut⟩ := exists_parts nullTest (valid.balanced 0)
  exact ⟨parts, rfl, cut, .of_scalars valid.regular cut valid.allowed⟩

theorem Part.held_tested {hasValue : Text → Bool} {part : Part}
    (held : ∀ segment ∈ part.segments, segment.held.Formed) :
    ∀ segment ∈ part.tested hasValue, segment.held.Formed := by
  cases part with
  | plain segment => exact held
  | call function head argument bracket =>
    unfold tested
    simp only
    split
    · intro segment member
      rw [List.mem_singleton.mp member]
      exact .boolean _
    · exact held

def absentItems (numbers : Supply) (parts : List Part) : List Reference :=
  (parts.filterMap Part.asked?).filter fun reference => (numbers.number? reference).isNone

theorem Prepared.asked {formula : Text} {parts : List Part} (prepared : Prepared formula parts)
    {reference : Reference} (asked : reference ∈ parts.filterMap Part.asked?) :
    reference.isDimensional = true ∧ ∀ c ∈ reference.key, Reference.isKey c = true := by
  obtain ⟨part, within, asks⟩ := List.mem_filterMap.mp asked
  cases part with
  | plain segment => cases asks
  | call function head argument bracket =>
    obtain ⟨dimensional, lead, tail, found⟩ := prepared.tested_mem within asks
    cases prepared.regular.formed _ (Part.argument_subset within found) with
    | reference legible =>
      exact ⟨dimensional, (legible.shape (Reference.kind_ne_days dimensional)).2.1⟩

/-- What is replaced where tests ask for items only are references without values. -/
theorem Prepared.missingArguments_eq {formula : Text} {parts : List Part}
    (prepared : Prepared formula parts) (numbers : Supply)
    (plainly : ∀ piece ∈ parts.flatMap Part.pieces, piece.AsksPlainly) :
    parts.filterMap (Part.missingArgument? fun key => (numbers.values.lookup key).isSome) =
      (absentItems numbers parts).map Reference.text := by
  rw [absentItems, List.filter_filterMap, List.map_filterMap]
  refine List.filterMap_congr fun part within => ?_
  cases part with
  | plain segment => rfl
  | call function head argument bracket =>
    have piece := plainly (.call head (argument.flatMap text) bracket.closer)
      (List.mem_flatMap.mpr ⟨_, within, List.mem_singleton.mpr rfl⟩)
    cases asks : testedReference? (argument.flatMap text) with
    | none => simp [Part.missingArgument?, Part.asked?, asks]
    | some reference =>
      have number := numbers.number?_of_isDimensional (prepared.tested_mem within asks).1
      have same : Text.trim (argument.flatMap text) = reference.text := piece reference asks
      cases found : numbers.values.lookup reference.key <;>
        simp [Part.missingArgument?, Part.asked?, asks, number, found, same]

def clearedSegments (numbers : Supply) (parts : List Part) : List Segment :=
  ((parts.flatMap (Part.tested fun key => (numbers.values.lookup key).isSome)).map
      Segment.capitalized).map (Segment.clearedAll (absentItems numbers parts))

structure Plain (formula : Text) (parts : List Part) : Prop extends Prepared formula parts where
  held : ∀ segment ∈ parts.flatMap Part.segments, segment.held.Formed
  plainly : ∀ piece ∈ parts.flatMap Part.pieces, piece.AsksPlainly

theorem Plain.ofText_rewritten {formula : Text} {parts : List Part} (plain : Plain formula parts)
    (numbers : Supply) :
    Regular (clearedSegments numbers parts) ∧
      Piece.ofText (Prepared.rewritten parts fun key => (numbers.values.lookup key).isSome) =
        (clearedSegments numbers parts).flatMap Segment.pieces := by
  have tested : Regular
      (parts.flatMap (Part.tested fun key => (numbers.values.lookup key).isSome)) :=
    plain.regular.replace fun part _ => ⟨part.segments_ne_nil, part.replaces_tested _⟩
  have held : ∀ segment ∈ parts.flatMap (Part.tested fun key => (numbers.values.lookup key).isSome),
      segment.held.Formed := by
    intro segment member
    obtain ⟨part, within, member⟩ := List.mem_flatMap.mp member
    exact Part.held_tested
      (fun segment found => plain.held segment (List.mem_flatMap.mpr ⟨part, within, found⟩)) segment
      member
  have written : ∀ reference ∈ absentItems numbers parts,
      reference.isDimensional = true ∧ ∀ c ∈ reference.key, Reference.isKey c = true :=
    fun reference member => plain.asked (List.mem_of_mem_filter member)
  obtain ⟨regular, replaced⟩ := tested.replaceAll_text held written
  -- It makes no difference whether names are capitalized before or after.
  have capitals : ((parts.flatMap (Part.tested fun key => (numbers.values.lookup key).isSome)).map
          (Segment.clearedAll (absentItems numbers parts))).map Segment.capitalized =
      clearedSegments numbers parts := by
    rw [clearedSegments, List.map_map, List.map_map]
    exact List.map_congr_left fun segment _ => Segment.capitalized_clearedAll _ segment
  rw [← capitals]
  refine ⟨regular.capitalized, ?_⟩
  rw [Prepared.rewritten, plain.missingArguments_eq numbers plain.plainly, replaced,
    regular.capitalizeCalls, regular.capitalized.ofText]

variable {catalog : Catalog} {formula : Text} {inputs : Inputs}

/-- Where every test asks for an item only, replacing it elsewhere makes no difference. -/
theorem fillUnder_direct (accepted : Accepted catalog false formula)
    (plainly : TestsPlainly formula) (unsampled : inputs.samples = none) (strict : Bool) :
    (fillUnder .neverSkip inputs strict formula).outcome.map Filling.result =
      ((directText inputs formula).map FilledText.text).mapError .fault := by
  obtain ⟨segments, rfl, valid⟩ := accepted.segments
  obtain ⟨parts, rfl, cut, prepared⟩ := valid.prepared
  have plain : Plain _ parts := ⟨prepared, valid.held, prepared.pieces ▸ plainly⟩
  have tested : Regular
      (parts.flatMap (Part.tested fun key => (inputs.supply.values.lookup key).isSome)) :=
    prepared.regular.replace fun part _ => ⟨part.segments_ne_nil, part.replaces_tested _⟩
  have missing : ∀ reference ∈ absentItems inputs.supply parts, inputs.supply.number? reference =
      none :=
    fun reference member => Option.isNone_iff_eq_none.mp (List.mem_filter.mp member).2
  -- Zero is written for items without values in any case, so replacing them before makes no
  -- difference.
  have same : writtenText inputs.supply (Piece.ofText
        (Prepared.rewritten parts fun key => (inputs.supply.values.lookup key).isSome)) =
      directText inputs ((parts.flatMap Part.segments).flatMap text) := by
    rw [(plain.ofText_rewritten inputs.supply).2, clearedSegments,
      writtenText_congr fun segment _ => writtenText_clearedAll missing segment,
      ← tested.capitalized.ofText, ← tested.capitalizeCalls, directText]
    simp only [prepared.pieces, Part.flatMap_testPiece]
  have filled := fillPieces_written inputs.supply
    (Piece.ofText (Prepared.rewritten parts fun key => (inputs.supply.values.lookup key).isSome))
  rw [same] at filled
  rw [prepared.fillUnder_eq .neverSkip unsampled strict]
  generalize directText inputs _ = direct at filled ⊢
  generalize Piece.ofText _ = pieces at filled ⊢
  change (Traced.ofExcept ((fillPieces inputs.supply false pieces).mapError .fault) >>=
        pure).outcome.map Filling.result = _
  rw [← filled, bind_pure]
  cases fillPieces inputs.supply false pieces <;> rfl

theorem decide_neverSkip {settings : Settings} {name : Option Text}
    (never : settings.strategy name = .ok .neverSkip) {α : Type} (itemsFound valuesFound : Nat)
    (zero : α) (value : Option α) :
    settings.decide name none itemsFound valuesFound zero value = .ok (some (value.getD zero)) := by
  rw [Settings.decide, never]
  change Except.ok (if _ then none else if _ then _ else _) = _
  simp [Strategy.skips]

theorem fill_direct (valid : validateRule catalog formula = .ok .valid)
    (plainly : TestsPlainly formula) {settings : Settings} (unsampled : inputs.samples = none)
    (never : settings.strategy inputs.strategy = .ok .neverSkip) (strict : Bool) :
    (∃ fault, directText inputs formula = .error fault ∧
        (fill settings inputs strict formula).outcome = .error (.fault fault)) ∨
      ∃ text filling, directText inputs formula = .ok text ∧
        (fill settings inputs strict formula).outcome = .ok filling ∧
        filling.result = .text text := by
  have accepted := accepted_of_validateRule valid
  have filled : (fill settings inputs strict formula).outcome.map Filling.result =
      ((directText inputs formula).map FilledText.text).mapError .fault := by
    rw [fill_eq_fillUnder accepted.value.1 never]
    exact fillUnder_direct accepted plainly unsampled strict
  cases direct : directText inputs formula with
  | error fault =>
    rw [direct] at filled
    cases outcome : (fill settings inputs strict formula).outcome with
    | error failure =>
      rw [outcome] at filled
      cases filled
      exact .inl ⟨fault, rfl, rfl⟩
    | ok filling =>
      rw [outcome] at filled
      cases filled
  | ok text =>
    rw [direct] at filled
    cases outcome : (fill settings inputs strict formula).outcome with
    | error failure =>
      rw [outcome] at filled
      cases filled
    | ok filling =>
      rw [outcome] at filled
      exact .inr ⟨text, filling, rfl, rfl, Except.ok.inj filled⟩

/-- Where every test of a valid formula asks for an item only, only tests and references are
replaced in it. It has the value of the text that this gives. -/
theorem formulaValue_direct (valid : validateRule catalog formula = .ok .valid)
    (plainly : TestsPlainly formula) {settings : Settings} (unsampled : inputs.samples = none)
    (never : settings.strategy inputs.strategy = .ok .neverSkip) :
    (filledText settings inputs formula).outcome =
      ((directText inputs formula).map some).mapError .fault ∧
      ∀ strict, (formulaValue settings inputs strict formula).outcome = (do
        let text ← Traced.ofExcept ((directText inputs formula).mapError .fault)
        let value ← calculate settings strict true text
        return some (value.getD (.zero false)) : Traced (Option Double)).outcome := by
  constructor
  · rw [filledText, Traced.outcome_bind]
    rcases fill_direct valid plainly unsampled never false
      with ⟨fault, direct, failed⟩ | ⟨text, filling, direct, filled, result⟩
    · rw [direct, failed]
      rfl
    · rw [direct, filled]
      change Except.ok filling.result.text? = _
      rw [result]
      rfl
  · intro strict
    rw [formulaValue, Traced.outcome_bind, Traced.outcome_bind]
    rcases fill_direct valid plainly unsampled never strict
      with ⟨fault, direct, failed⟩ | ⟨text, filling, direct, filled, result⟩
    · rw [direct, failed]
      rfl
    · rw [direct, filled]
      change Traced.outcome (if filling.result = .skipped then _ else _) = _
      simp only [result, reduceCtorEq, ↓reduceIte, FilledText.text?, decide_neverSkip never]
      rfl

theorem formulaValue_direct_absent :
    let formula := "IF(isNull( #{a} ), 2 * #{a} + 1, 0)".toList
    let direct := "IF(true, 2 * 0 + 1, 0)".toList
    directText {} formula = .ok direct ∧ (filledText {} {} formula).outcome = .ok (some direct) ∧
      (formulaValue {} {} true formula).outcome = .ok (some (.ofInt 1)) := by
  intro formula direct
  have valid : validateRule { dataElements := [⟨['a'], ['A']⟩] } formula = .ok .valid := by
    decide +kernel
  have plainly : TestsPlainly formula := by decide +kernel
  have written : directText {} formula = .ok direct := by decide +kernel
  obtain ⟨filled, value⟩ := @formulaValue_direct _ _ {} valid plainly {} rfl (by decide +kernel)
  have value := value true
  rw [written] at filled value
  exact ⟨written, filled, value.trans (by decide +kernel)⟩

/-- A test that asks for the value of a sum takes the sum out of the rest of the formula, too. -/
theorem filledText_ne_directText_sum :
    validateRule { dataElements := [⟨['a'], ['A']⟩] }
          "IF(isNull(#{a} + 1), 2 * #{a} + 1, 0)".toList = .ok .valid ∧
      (filledText {} {} "IF(isNull(#{a} + 1), 2 * #{a} + 1, 0)".toList).outcome =
        .ok (some "IF(true, 2 * 0, 0)".toList) ∧
      directText {} "IF(isNull(#{a} + 1), 2 * #{a} + 1, 0)".toList =
        .ok "IF(true, 2 * 0 + 1, 0)".toList ∧
      (formulaValue {} {} true "IF(isNull(#{a} + 1), 2 * #{a} + 1, 0)".toList).outcome =
        .ok (some (.ofInt 0)) ∧
      (calculate {} true true "IF(true, 2 * 0 + 1, 0)".toList).outcome = .ok (some (.ofInt 1)) := by
  decide +kernel

end IndicatorFormula
