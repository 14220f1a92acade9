import IndicatorFormula.Proofs.Substitution.Clearing
import IndicatorFormula.Proofs.Substitution.Places

/-! Parts that differ in capitals.

Names are written in capitals before tests are looked for, so that the parts of the formula as it is
filled in are those of the formula itself but for capitals. -/

set_option autoImplicit false
namespace IndicatorFormula

open Segment (text Regular)

variable {segments others : List Segment} {part part' : Part}

theorem Segment.reference?_capitalized (segment : Segment) :
    segment.capitalized.reference? = segment.reference? := by
  cases segment <;> rfl

theorem Segment.eq_call_of_capitalized {segment : Segment} {function : Builtin} {head : CallHead}
    (same : segment.capitalized = .call function head) :
    ∃ head', segment = .call function head' := by
  cases segment with
  | call function' head' =>
    rw [Segment.capitalized, Segment.call.injEq] at same
    exact ⟨head', by rw [same.1]⟩
  | _ => cases same

theorem Segment.eq_of_capitalized {segment other : Segment}
    (same : segment.capitalized = other.capitalized)
    (plain : ∀ function head, other ≠ .call function head) : segment = other := by
  have kept : other.capitalized = other := by
    cases other with
    | call function head => exact absurd rfl (plain function head)
    | _ => rfl
  rw [kept] at same
  cases segment with
  | call function head => exact absurd same.symm (plain function head.capitalized)
  | _ => exact same

theorem Segment.filterMap_reference?_congr
    (capitals : others.map Segment.capitalized = segments.map Segment.capitalized) :
    others.filterMap Segment.reference? = segments.filterMap Segment.reference? := by
  have same : ∀ segments : List Segment, (segments.map Segment.capitalized).filterMap
        Segment.reference? = segments.filterMap Segment.reference? := by
    intro segments
    rw [List.filterMap_map]
    exact List.filterMap_congr fun segment _ => segment.reference?_capitalized
  rw [← same, capitals, same]

inductive Part.Recased : Part → Part → Prop where
  | plain {first second : Segment} (same : first.capitalized = second.capitalized) :
      Recased (.plain first) (.plain second)
  | call {function : Builtin} {head head' : CallHead} {argument argument' : List Segment}
      {bracket : Bracket}
      (same : argument.map Segment.capitalized = argument'.map Segment.capitalized) :
      Recased (.call function head argument bracket) (.call function head' argument' bracket)

theorem Part.exists_recased_segments {functions : List Builtin} {part : Part}
    (own : part.Cut functions)
    (here : others.map Segment.capitalized = part.segments.map Segment.capitalized) :
    ∃ part', others = part'.segments ∧ part'.Cut functions ∧ Part.Recased part' part := by
  cases part with
  | plain segment =>
    obtain ⟨other, rfl, same⟩ := List.map_eq_singleton_iff.mp here
    refine ⟨.plain other, rfl, fun function head shape => ?_, .plain same⟩
    rw [shape] at same
    obtain ⟨head', rfl⟩ := Segment.eq_call_of_capitalized same.symm
    exact own function head' rfl
  | call function head argument bracket =>
    -- Capitals change neither the brackets nor the length of an argument, so the same segment
    -- closes it.
    obtain ⟨opened, closed, rfl, front, back⟩ :=
      List.map_eq_append_iff.mp (here.trans List.map_append)
    obtain ⟨other, argument', rfl, heads, same⟩ := List.map_eq_cons_iff.mp front
    obtain ⟨last, rfl, ends⟩ := List.map_eq_singleton_iff.mp back
    have balanced : Balanced Segment.nesting argument' := fun depth => by
      rw [← depth?_capitalized, same, depth?_capitalized, own.2 depth]
    obtain ⟨head', rfl⟩ := Segment.eq_call_of_capitalized heads
    obtain rfl := Segment.eq_of_capitalized ends fun _ _ impossible => nomatch impossible
    exact ⟨.call function _ argument' bracket, rfl, ⟨own.1, balanced⟩, .call same⟩

theorem Part.exists_recased {functions : List Builtin} {parts : List Part}
    (cut : ∀ part ∈ parts, part.Cut functions)
    (capitals : others.map Segment.capitalized =
      (parts.flatMap Part.segments).map Segment.capitalized) :
    ∃ parts', others = parts'.flatMap Part.segments ∧ (∀ part ∈ parts', part.Cut functions) ∧
      List.Forall₂ Part.Recased parts' parts := by
  induction parts generalizing others with
  | nil => exact ⟨[], by simpa using capitals, nofun, .nil⟩
  | cons part parts ih =>
    obtain ⟨own, rest⟩ := List.forall_mem_cons.mp cut
    rw [List.flatMap_cons, List.map_append] at capitals
    obtain ⟨first, second, rfl, here, there⟩ := List.map_eq_append_iff.mp capitals
    obtain ⟨parts', rfl, cut', recased⟩ := ih rest there
    obtain ⟨part', rfl, cutHere, same⟩ := exists_recased_segments own here
    exact ⟨part' :: parts', rfl, List.forall_mem_cons.mpr ⟨cutHere, cut'⟩, .cons same recased⟩

namespace Part.Recased

theorem outer (recased : Part.Recased part' part) : part'.outer = part.outer := by
  cases recased with
  | @plain first second same =>
    have references : first.reference? = second.reference? := by
      rw [← first.reference?_capitalized, same, second.reference?_capitalized]
    exact congrArg Option.toList references
  | call same => rfl

theorem asked (recased : Part.Recased part' part) (regular' : Regular part'.segments)
    (regular : Regular part.segments) : part'.asked? = part.asked? := by
  cases recased with
  | plain same => rfl
  | call same =>
    rw [Part.asked?, Part.asked?, testedReference?, testedReference?,
      regular'.tail.take.references_eq, regular.tail.take.references_eq,
      Segment.filterMap_reference?_congr same]

end Part.Recased

theorem Text.mem_trim {text : Text} {c : Char} (member : c ∈ text) (seen : isBlank c = false) :
    c ∈ trim text := by
  obtain ⟨before, rest, rfl⟩ := List.append_of_mem member
  rw [trim_append seen]
  exact List.mem_append_right _ List.mem_cons_self

theorem Reference.Legible.not_opening {reference : Reference} (legible : reference.Legible)
    (dimensional : reference.isDimensional = true) : '(' ∉ reference.text := by
  have keys := (legible.shape (Reference.kind_ne_days dimensional)).2.1
  have key : '(' ∉ reference.key := fun member => absurd (keys _ member) (by decide)
  have mark : '(' ≠ reference.kind.mark := by cases reference.kind <;> decide
  rw [(Reference.text_of_isDimensional dimensional).2]
  simp [key, mark]

theorem Part.Recased.asksPlainly (recased : Part.Recased part' part)
    (regular' : Regular part'.segments) (regular : Regular part.segments)
    (plainly : ∀ piece ∈ part.pieces, piece.AsksPlainly) :
    ∀ piece ∈ part'.pieces, piece.AsksPlainly := by
  have asked := recased.asked regular' regular
  cases recased with
  | plain same =>
    intro piece member
    obtain ⟨c, -, rfl⟩ := List.mem_map.mp member
    trivial
  | @call function head head' argument argument' bracket same =>
    intro piece member
    rw [List.mem_singleton.mp member]
    intro reference tested
    have tested' : testedReference? (argument'.flatMap text) = some reference :=
      asked.symm.trans tested
    have trimmed :=
      plainly (.call head' (argument'.flatMap text) bracket.closer) List.mem_cons_self reference
        tested'
    obtain ⟨dimensional, lead, tail, found⟩ := regular.tail.take.tested_mem tested'
    cases regular.tail.take.formed _ found with
    | reference legible =>
    -- A call would bring a bracket, and there is none in the text of an item.
    have none : ∀ segment ∈ argument', ∀ function head, segment ≠ .call function head := by
      rintro _ within function head rfl
      have opening : '(' ∈ argument'.flatMap text :=
        List.mem_flatMap.mpr ⟨_, within, by simp [text, CallHead.text]⟩
      have inside := Text.mem_trim opening (by decide)
      rw [trimmed] at inside
      exact legible.not_opening dimensional inside
    have whole : argument = argument' := by
      refine List.ext_getElem (by simpa using congrArg List.length same) fun i bound bound' => ?_
      have here := List.getElem_of_eq same (by simpa using bound)
      rw [List.getElem_map, List.getElem_map] at here
      exact Segment.eq_of_capitalized here (none _ (List.getElem_mem bound'))
    rw [whole, trimmed]

theorem Part.Recased.rows {parts parts' : List Part}
    (recased : List.Forall₂ Part.Recased parts' parts)
    (regular' : Regular (parts'.flatMap Part.segments))
    (regular : Regular (parts.flatMap Part.segments)) :
    parts'.flatMap Part.outer = parts.flatMap Part.outer ∧
      parts'.filterMap Part.asked? = parts.filterMap Part.asked? ∧
      ((∀ piece ∈ parts.flatMap Part.pieces, piece.AsksPlainly) →
        ∀ piece ∈ parts'.flatMap Part.pieces, piece.AsksPlainly) := by
  induction recased with
  | nil => exact ⟨rfl, rfl, id⟩
  | @cons part' part parts' parts here _ ih =>
    rw [List.flatMap_cons] at regular' regular
    obtain ⟨outer, asked, plainly⟩ := ih regular'.drop regular.drop
    refine ⟨?_, ?_, fun all piece member => ?_⟩
    · rw [List.flatMap_cons, List.flatMap_cons, here.outer, outer]
    · rw [List.filterMap_cons, List.filterMap_cons, here.asked regular'.take regular.take, asked]
    · rw [List.flatMap_cons] at all member
      obtain ⟨own, others⟩ := List.forall_mem_append.mp all
      exact (List.mem_append.mp member).elim (here.asksPlainly regular'.take regular.take own piece)
        (plainly others piece)

theorem Segment.Formed.held_of_capitalized {segment other : Segment} (formed : segment.Formed)
    (same : segment.capitalized = other.capitalized) (held : other.held.Formed) :
    segment.held.Formed := by
  cases segment with
  | reference lead found tail =>
    obtain rfl := Segment.eq_of_capitalized same.symm fun _ _ impossible => nomatch impossible
    exact held
  | _ => exact formed

end IndicatorFormula
