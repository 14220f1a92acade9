import IndicatorFormula.Proofs.Substitution.Borders
import IndicatorFormula.Proofs.Substitution.Seams

/-! Filled-in formulas without references.

All braces of a formula are those of its references, whatever is replaced before they are, and no
literal has a part of the number of days. So nothing in a filled-in formula is a reference, and to
fill it in again changes nothing but capitals. -/

set_option autoImplicit false
namespace IndicatorFormula

/-- A text in which nothing is a reference, since it has no brace and not the number of days. -/
structure Bare (text : Text) : Prop where
  brace : '{' ∉ text
  days : ∀ lead behind, text ≠ lead ++ (ReferenceKind.days.key ++ behind)

namespace Bare

variable {text other lead behind : Text}

theorem references (bare : Bare text) : references text = [] := by
  refine List.eq_nil_iff_forall_not_mem.mpr fun reference member => ?_
  obtain ⟨legible, lead, behind, whole⟩ :=
    Piece.exists_of_mem_ofText (Piece.mem_references_iff.mp member)
  by_cases days : reference.kind = .days
  · refine bare.days lead behind ?_
    rw [whole, legible.eq_days days]
    rfl
  · refine bare.brace ?_
    rw [whole, (legible.shape days).2.2]
    simp

theorem part (bare : Bare (lead ++ (text ++ behind))) : Bare text := by
  refine ⟨fun member => bare.brace (by simp [member]), fun start rest same => ?_⟩
  exact bare.days (lead ++ start) (rest ++ behind) (by simp [same])

theorem capitals (bare : Bare text) (same : SameButCapitals text other) : Bare other := by
  constructor
  · intro member
    obtain ⟨lead, behind, rfl⟩ := List.append_of_mem member
    rw [← List.singleton_append] at same
    obtain ⟨lead', behind', rfl, -⟩ := same.split (by decide)
    exact bare.brace (by simp)
  · rintro lead behind rfl
    obtain ⟨lead', behind', rfl, -⟩ := same.split (by decide)
    exact bare.days lead' behind' rfl

end Bare

structure Inert (literal : Text) : Prop where
  some : literal ≠ []
  plain : ∀ c ∈ literal, c ∉ '{' :: ReferenceKind.days.key

variable {literal : Reference → Text} {pieces : List Piece}

/-- What a filled-in text begins with stands in it as it is, up to its end or up to a literal. -/
theorem plain_or_reference {text behind : Text}
    (same : pieces.flatMap (Piece.filled literal) = text ++ behind) :
    (∃ last, pieces = text.map .plain ++ last ∧ last.flatMap (Piece.filled literal) = behind) ∨
      ∃ front found last rest, pieces = front.map .plain ++ .reference found :: last ∧
        text = front ++ rest ∧ rest ≠ [] ∧
        literal found ++ last.flatMap (Piece.filled literal) = rest ++ behind := by
  induction text generalizing pieces with
  | nil => exact .inl ⟨pieces, rfl, same⟩
  | cons c text ih =>
    cases pieces with
    | nil => cases same
    | cons piece pieces =>
      cases piece with
      | plain d =>
        obtain ⟨rfl, later⟩ := List.cons.inj same
        rcases ih later with ⟨last, rfl, rest⟩ | ⟨front, found, last, rest, rfl, rfl, some, whole⟩
        · exact .inl ⟨last, rfl, rest⟩
        · exact .inr ⟨d :: front, found, last, rest, rfl, rfl, some, whole⟩
      | reference found =>
        exact .inr ⟨[], found, pieces, c :: text, rfl, rfl, List.cons_ne_nil _ _, same⟩

theorem plain_of_filled (inert : ∀ reference, Inert (literal reference)) {text behind : Text}
    (other : ∀ c ∈ text, c ∈ '{' :: ReferenceKind.days.key)
    (same : pieces.flatMap (Piece.filled literal) = text ++ behind) :
    ∃ last, pieces = text.map .plain ++ last := by
  rcases plain_or_reference same
    with ⟨last, whole, -⟩ | ⟨front, found, last, rest, -, rfl, some, whole⟩
  · exact ⟨last, whole⟩
  · obtain ⟨c, rest, rfl⟩ := List.exists_cons_of_ne_nil some
    obtain ⟨d, digits, shape⟩ := List.exists_cons_of_ne_nil (inert found).some
    rw [shape] at whole
    obtain ⟨rfl, -⟩ := List.cons.inj whole
    exact absurd (other d (by simp)) ((inert found).plain d (by simp [shape]))

theorem exists_plain (inert : ∀ reference, Inert (literal reference)) {c : Char}
    {text lead behind : Text} (other : ∀ d ∈ c :: text, d ∈ '{' :: ReferenceKind.days.key)
    (same : pieces.flatMap (Piece.filled literal) = lead ++ c :: (text ++ behind)) :
    ∃ first last, pieces = first ++ ((c :: text).map .plain ++ last) := by
  obtain ⟨here, others⟩ := List.forall_mem_cons.mp other
  obtain ⟨first, piece, last, inner, outer, rfl, within, -, rest⟩ := exists_item same
  cases piece with
  | plain d =>
    obtain ⟨rfl, rfl, rfl⟩ := eq_of_singleton (show [d] = inner ++ c :: outer from within)
    obtain ⟨last, rfl⟩ := plain_of_filled inert others rest.symm
    exact ⟨first, last, rfl⟩
  | reference found =>
    have member : c ∈ literal found := by simp [show literal found = _ from within]
    exact absurd here ((inert found).plain c member)

theorem Piece.days_ne_plain {afterWord : Bool} {text : Text} {first last : List Piece} :
    Piece.ofTextFrom afterWord text ≠ first ++ (ReferenceKind.days.key.map .plain ++ last) := by
  intro same
  induction first generalizing afterWord text with
  | nil =>
    have whole := congrArg (List.flatMap Piece.text) same
    rw [Piece.text_ofTextFrom] at whole
    have shape : text = Reference.text ⟨.days, []⟩ ++ last.flatMap Piece.text := whole
    rw [shape, Piece.ofTextFrom_reference .days fun _ => rfl] at same
    cases same
  | cons piece first ih =>
    cases text with
    | nil => simp [Piece.ofTextFrom] at same
    | cons c rest =>
      rw [Piece.ofTextFrom] at same
      split at same <;> exact ih (List.cons.inj same).2

theorem Sealed.bare {text : Text} (isSealed : Sealed text)
    (inert : ∀ reference, Inert (literal reference)) :
    Bare ((Piece.ofText text).flatMap (Piece.filled literal)) := by
  constructor
  · intro member
    obtain ⟨lead, behind, same⟩ := List.append_of_mem member
    rw [← List.nil_append behind] at same
    obtain ⟨first, last, whole⟩ := exists_plain inert (by decide) same
    exact isSealed.not_mem_ofText (by rw [whole]; simp)
  · intro lead behind same
    obtain ⟨first, last, whole⟩ := exists_plain inert (by decide) same
    exact Piece.days_ne_plain whole

open Segment (text Regular Alternates)

theorem inert_ofReference {numbers : Supply} (finite : numbers.Finite) (reference : Reference) :
    Inert ((Segment.ofReference numbers reference).flatMap text) := by
  have plain : ∀ {literal : Text} {value : Double}, Lexer.IsNumber literal value →
      literal ≠ [] ∧ ∀ c ∈ literal, c ∉ '{' :: ReferenceKind.days.key := by
    intro literal value number
    refine ⟨by cases number; exact List.cons_ne_nil _ _, ?_⟩
    have marks : ∀ c ∈ '{' :: ReferenceKind.days.key, Lexer.isNumeric c = false := by decide
    refine number.isLiteral.forall (fun c numeric member => ?_) (by decide)
    rw [marks c member] at numeric
    cases numeric
  unfold Segment.ofReference
  cases supplied : numbers.number? reference with
  | none =>
    obtain ⟨some, plain⟩ := plain Segment.isNumber_missingLiteral
    exact ⟨by simp [text, missingLiteral], by simpa [text] using plain⟩
  | some x =>
    obtain ⟨negative, m, value⟩ := finite reference x supplied
    obtain ⟨some, plain⟩ := plain (Lexer.isNumber_magnitude m)
    simp only [value]
    cases negative with
    | false =>
      exact ⟨by simpa [Segment.ofMagnitude, text] using some,
        by simpa [Segment.ofMagnitude, text] using plain⟩
    | true =>
      refine ⟨by simp [Segment.ofMagnitude, text, Symbol.text], fun c member => ?_⟩
      have member : c ∈ ['(', '-'] ++ (numberLayout.magnitude m ++ [')']) := by
        simpa [Segment.ofMagnitude, text, Symbol.text] using member
      have brackets : ∀ c ∈ ['(', '-', ')'], c ∉ '{' :: ReferenceKind.days.key := by decide
      rcases List.mem_append.mp member with member | member
      · exact brackets c (List.mem_append_left [')'] member)
      rcases List.mem_append.mp member with member | member
      · exact plain c member
      · exact brackets c (List.mem_append_right ['(', '-'] member)

namespace Part

variable {parts : List Part} {hasValue : Text → Bool} {next : Phase}

theorem exchanges_missing (regular : Regular (parts.flatMap Part.segments))
    (cut : ∀ part ∈ parts, part.Cut nullTest)
    (alternates : Alternates .pending (parts.flatMap Part.segments) next) {replaced : Text}
    (member : replaced ∈ parts.filterMap (missingArgument? hasValue)) :
    Exchanges replaced missingLiteral := by
  have breaks := breaks_missing regular member
  obtain ⟨function, head, argument, bracket, reference, within, -, -, ⟨lead, tail, found⟩, -,
    rfl⟩ :=
    of_mem_missing regular member
  have formed : ∀ segment ∈ argument, segment.Formed := fun segment member =>
    regular.formed segment (argument_subset within member)
  have alternates : ∃ before next, Alternates before
      (Part.call function head argument bracket).segments next := by
    obtain ⟨first, last, rfl⟩ := List.append_of_mem within
    rw [List.flatMap_append, List.flatMap_cons] at alternates
    obtain ⟨before, -, alternates⟩ := Segment.alternates_append.mp alternates
    obtain ⟨next, alternates, -⟩ := Segment.alternates_append.mp alternates
    exact ⟨before, next, alternates⟩
  obtain ⟨before, next, alternates⟩ := alternates
  obtain ⟨first, last, gap, rfl, closes, blank⟩ :=
    closes_argument alternates (cut _ within).2 ⟨_, found, rfl⟩
  obtain ⟨inner, c, shape, closer⟩ := (formed last (by simp)).ends_of_closes closes
  have gapBlank :=
    Segment.isBlank_text (fun segment member => formed segment (by simp [member])) blank
  have whole : (first ++ last :: gap).flatMap text =
      (first.flatMap text ++ inner) ++ c :: gap.flatMap text := by
    simp [shape]
  have none : (gap.flatMap text).reverse.dropWhile Text.isBlank = [] :=
    List.dropWhile_eq_nil_iff.mpr fun c member => gapBlank c (List.mem_reverse.mp member)
  have trimmed : Text.trim ((first ++ last :: gap).flatMap text) =
      (first.flatMap text ++ inner).dropWhile Text.isBlank ++ [c] := by
    rw [whole, Text.trim_append closer.seen, none]
    rfl
  exact ⟨breaks, braceless_missingLiteral, _, c, [], '0', trimmed, rfl, closer.outside, by decide,
    fun _ => closer.ends⟩

end Part

/-- A formula is sealed behind the passes before its references are replaced, whichever items have
values. -/
theorem sealed_rewritten {parts : List Part} {next : Phase}
    (regular : Regular (parts.flatMap Part.segments)) (cut : ∀ part ∈ parts, part.Cut nullTest)
    (alternates : Alternates .pending (parts.flatMap Part.segments) next) (hasValue : Text → Bool) :
    Sealed (Prepared.rewritten parts hasValue) ∧ Unnamed (Prepared.rewritten parts hasValue) := by
  have tested : Regular (parts.flatMap (Part.tested hasValue)) :=
    regular.replace fun part _ => ⟨part.segments_ne_nil, part.replaces_tested hasValue⟩
  have alternates' : Alternates .pending (parts.flatMap (Part.tested hasValue)) next :=
    alternates.replace fun part _ _ _ => Part.alternates_tested hasValue
  have exchanges : ∀ replaced ∈ parts.filterMap (Part.missingArgument? hasValue), Exchanges replaced
      missingLiteral :=
    fun _ member => Part.exchanges_missing regular cut alternates member
  constructor
  · exact (replaceAll_preserves (fun replaced member => ⟨(exchanges replaced member).breaks.ne_nil,
      fun _ _ isSealed => isSealed.replace (exchanges replaced member)⟩)
      (tested.isSealed alternates')).capitalizeCalls
  · exact (replaceAll_preserves (fun replaced member => ⟨(exchanges replaced member).breaks.ne_nil,
      fun _ _ unnamed => unnamed.replace⟩) tested.unnamed).capitalizeCalls

end IndicatorFormula
