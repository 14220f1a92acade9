import IndicatorFormula.Proofs.Formula.Locality
import IndicatorFormula.Proofs.Substitution.Passes
import IndicatorFormula.Proofs.Substitution.Validation

/-! References outside of calls.

Calls are told from the rest of a formula by positions. Where a formula is cut into parts, the
references that no call covers are those of the parts that are no calls. -/

set_option autoImplicit false
namespace IndicatorFormula

def CallSite.covers (site : CallSite) (position : Nat) : Bool :=
  site.start ≤ position && site.closing?.any (position ≤ ·)

def testSites (formula : Text) : List CallSite :=
  CallPiece.sites 0 (CallPiece.ofText nullTest formula)

def outerReferences (formula : Text) : List Reference :=
  ((Piece.located 0 (Piece.ofText formula)).filter fun found =>
    (testSites formula).all fun site => !site.covers found.1).map Prod.snd

def testedItems (formula : Text) : List Reference :=
  (testSites formula).filterMap fun site => site.argument.bind testedReference?

section Places

theorem CallPiece.sites_append (position : Nat) (first second : List CallPiece) :
    sites position (first ++ second) =
      sites position first ++ sites (position + (first.flatMap CallPiece.text).length) second := by
  induction first generalizing position with
  | nil => rfl
  | cons piece first ih =>
    cases piece <;> simp [sites, ih, Nat.add_assoc]

theorem CallPiece.sites_start {position : Nat} {pieces : List CallPiece} {site : CallSite}
    (member : site ∈ sites position pieces) : position ≤ site.start := by
  induction pieces generalizing position with
  | nil => exact absurd member List.not_mem_nil
  | cons piece pieces ih =>
    have later : site ∈ sites (position + piece.text.length) pieces → position ≤ site.start :=
      fun member =>
      Nat.le_trans (Nat.le_add_right ..) (ih member)
    cases piece with
    | plain c => exact later member
    | call head argument closer | unclosed head =>
      rcases List.mem_cons.mp member with rfl | member
      · exact Nat.le_refl _
      · exact later member

theorem CallPiece.sites_plain (position : Nat) (text : Text) :
    sites position (text.map .plain) = [] := by
  induction text generalizing position with
  | nil => rfl
  | cons c text ih => exact ih _

end Places

open Segment (text pieces Regular)

def Segment.reference? : Segment → Option Reference
  | .reference _ found _ => some found
  | _ => none

theorem Segment.references_pieces (segments : List Segment) :
    Piece.references (segments.flatMap pieces) = segments.filterMap Segment.reference? := by
  have plain : ∀ text : Text, Piece.references (text.map .plain) = [] := fun text => by
    simp [Piece.references, List.filterMap_map]
  induction segments with
  | nil => rfl
  | cons segment segments ih =>
    have split : Piece.references ((segment :: segments).flatMap pieces) =
        Piece.references segment.pieces ++ Piece.references (segments.flatMap pieces) := by
      simp [Piece.references]
    rw [split, ih]
    cases segment with
    | reference lead found tail =>
      have own : Piece.references (Segment.reference lead found tail).pieces = [found] := by
        have behind := plain tail
        have before := plain lead
        simp only [Piece.references] at behind before ⊢
        simp [pieces, behind, before]
      rw [own]
      rfl
    | _ => simp [pieces, plain, Segment.reference?, List.filterMap_cons]

theorem Segment.Regular.references_eq {segments : List Segment} (regular : Regular segments) :
    references (segments.flatMap text) = segments.filterMap Segment.reference? := by
  rw [references, regular.ofText, Segment.references_pieces]

namespace Part

def outer : Part → List Reference
  | .plain segment => segment.reference?.toList
  | .call .. => []

theorem length_pieces (part : Part) :
    ((part.segments.flatMap Segment.pieces).flatMap Piece.text).length =
      (part.pieces.flatMap CallPiece.text).length := by
  have written : (part.segments.flatMap Segment.pieces).flatMap Piece.text =
      part.segments.flatMap text := by
    rw [List.flatMap_assoc]
    exact List.flatMap_congr fun segment _ => segment.text_pieces
  rw [written]
  cases part with
  | plain segment => simp [Part.segments, Part.pieces, List.flatMap_map, CallPiece.text]
  | call function head argument bracket =>
    simp [Part.segments, Part.pieces, CallPiece.text, text, Bracket.text_closing]

variable {part : Part} {position : Nat} {found : Nat × Reference} {site : CallSite}

theorem covers_iff (member : site ∈ CallPiece.sites position part.pieces) :
    site.covers found.1 = true ↔
      position ≤ found.1 ∧ found.1 < position + (part.pieces.flatMap CallPiece.text).length := by
  cases part with
  | plain segment => exact absurd member (by simp [Part.pieces, CallPiece.sites_plain])
  | call function head argument bracket =>
    rw [List.mem_singleton.mp member]
    simp only [CallSite.covers, CallSite.closing?, CallSite.argumentStart, Part.pieces,
      CallPiece.text, Option.map_some, Option.any_some, Bool.and_eq_true, decide_eq_true_eq,
      List.flatMap_cons, List.flatMap_nil, List.length_append, List.length_cons, List.length_nil]
    omega

theorem outer_own (part : Part) (position : Nat) :
    ((Piece.located position (part.segments.flatMap Segment.pieces)).filter fun found =>
          (CallPiece.sites position part.pieces).all fun site => !site.covers found.1).map
        Prod.snd = part.outer := by
  cases shape : part with
  | plain segment =>
    simp only [Part.pieces, CallPiece.sites_plain, List.all_nil, List.filter_true,
      Piece.map_snd_located, Segment.references_pieces, Part.segments, Part.outer]
    cases found : segment.reference? <;> simp [found]
  | call function head argument bracket =>
    rw [← shape]
    have none : ∀ found ∈ Piece.located position (part.segments.flatMap Segment.pieces),
        ¬ ((CallPiece.sites position part.pieces).all fun site => !site.covers found.1) = true := by
      intro found member all
      have bounds := Piece.located_bounds member
      rw [part.length_pieces] at bounds
      have own : CallSite.mk head position (some (argument.flatMap text)) ∈
          CallPiece.sites position part.pieces := by
        rw [shape]
        exact List.mem_singleton.mpr rfl
      have covered := (covers_iff own).mpr bounds
      have apart := List.all_eq_true.mp all _ own
      rw [covered] at apart
      cases apart
    rw [List.filter_eq_nil_iff.mpr none, shape]
    rfl

theorem outer_eq (parts : List Part) (position : Nat) :
    ((Piece.located position ((parts.flatMap Part.segments).flatMap Segment.pieces)).filter
          fun found => (CallPiece.sites position (parts.flatMap Part.pieces)).all
            fun site => !site.covers found.1).map Prod.snd = parts.flatMap Part.outer := by
  induction parts generalizing position with
  | nil => rfl
  | cons part parts ih =>
    rw [List.flatMap_cons, List.flatMap_cons, List.flatMap_append, Piece.located_append,
      CallPiece.sites_append, List.filter_append, List.map_append, part.length_pieces,
      List.flatMap_cons, ← ih, ← part.outer_own position]
    congr 2
    -- The calls of this part and those of the others cover nothing of each other.
    · refine List.filter_congr fun found member => ?_
      have below := (Piece.located_bounds member).2
      rw [part.length_pieces] at below
      rw [List.all_append]
      refine (Bool.and_eq_left_iff_imp.mpr fun _ => List.all_eq_true.mpr fun site within => ?_)
      have start := CallPiece.sites_start within
      simp [CallSite.covers]
      omega
    · refine List.filter_congr fun found member => ?_
      have above := (Piece.located_bounds member).1
      rw [List.all_append]
      refine (Bool.and_eq_right_iff_imp.mpr fun _ => List.all_eq_true.mpr fun site within => ?_)
      rw [Bool.not_eq_true', ← Bool.not_eq_true, covers_iff within]
      omega

theorem asked_eq (parts : List Part) (position : Nat) :
    ((CallPiece.sites position (parts.flatMap Part.pieces)).filterMap
        fun site => site.argument.bind testedReference?) = parts.filterMap Part.asked? := by
  induction parts generalizing position with
  | nil => rfl
  | cons part parts ih =>
    rw [List.flatMap_cons, CallPiece.sites_append, List.filterMap_append, ih]
    cases part with
    | plain segment => simp [Part.pieces, CallPiece.sites_plain, Part.asked?, List.filterMap_cons]
    | call function head argument bracket =>
      cases asks : testedReference? (argument.flatMap text) <;>
        simp [Part.pieces, CallPiece.sites, Part.asked?, asks]

end Part

namespace Segment

variable {segments : List Segment}

theorem Regular.testedReference?_eq (regular : Regular segments) :
    testedReference? (segments.flatMap text) =
      ((segments.filterMap reference?).filter Reference.isDimensional).head? := by
  rw [testedReference?, regular.references_eq, List.head?_filter]

theorem Regular.blanks {blanks : Text} (blank : ∀ c ∈ blanks, Text.isBlank c = true)
    (regular : Regular segments) : Regular (blanks.map .blank ++ segments) := by
  induction blanks with
  | nil => exact regular
  | cons c blanks ih =>
    obtain ⟨here, rest⟩ := List.forall_mem_cons.mp blank
    exact .cons (.blank here) (fun _ _ =>
      ⟨(fun impossible => nomatch impossible), fun _ _ impossible => nomatch impossible⟩) (ih rest)

/-- Where there is nothing but blanks around a reference, there is no other one. -/
theorem Regular.references_of_trim (regular : Regular segments) {reference : Reference}
    (legible : reference.Legible) (trimmed : Text.trim (segments.flatMap text) = reference.text) :
    segments.filterMap reference? = [reference] := by
  obtain ⟨lead, behind, whole, leads, ends⟩ := Text.exists_trim (segments.flatMap text)
  have formed : Formed (.reference [] reference []) :=
    .reference legible (fun _ none => absurd none List.not_mem_nil) (fun none => absurd rfl none)
      ⟨[], [], rfl, (fun _ none => absurd none List.not_mem_nil), Lexer.isExponent_nil⟩
  have after : Regular (behind.map .blank ++ []) :=
    Regular.blanks ends ⟨fun _ none => absurd none List.not_mem_nil, .nil⟩
  have around : Regular
      (lead.map .blank ++ .reference [] reference [] :: (behind.map .blank ++ [])) := by
    refine .blanks leads (.cons formed (fun next first => ?_) after)
    rw [List.append_nil] at first
    obtain ⟨c, -, rfl⟩ := List.mem_map.mp (List.mem_of_head? first)
    exact ⟨fun _ => rfl, fun _ _ impossible => nomatch impossible⟩
  -- The same text is a row of blanks and one reference, and the references of a text are read off
  -- the text.
  have same : segments.flatMap text =
      (lead.map Segment.blank ++ Segment.reference [] reference [] ::
          (behind.map Segment.blank ++ [])).flatMap text := by
    rw [whole, trimmed]
    simp [text, List.flatMap_map]
  have none : ∀ blanks : Text, (blanks.map Segment.blank).filterMap reference? = [] :=
    fun blanks => by
    simp [List.filterMap_map, reference?]
  rw [← regular.references_eq, same, around.references_eq]
  simp [none, reference?]

end Segment
end IndicatorFormula
