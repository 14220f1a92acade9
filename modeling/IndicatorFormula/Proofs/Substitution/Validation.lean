import IndicatorFormula.Proofs.Calculation
import IndicatorFormula.Proofs.Formula.Calls

/-! Valid formulas.

A valid formula consists of segments, and the lexemes of its segments with placeholders have a tree
and a value. -/

set_option autoImplicit false
namespace IndicatorFormula

theorem placeholderText_eq (formula : Text) :
    placeholderText formula = capitalizeCalls (Piece.held (Piece.ofText formula)) := by
  unfold placeholderText Piece.held
  congr 2

namespace Segment

variable {segment : Segment} {segments : List Segment}

theorem alike_held (segment : Segment) : Alike segment.held segment := by
  cases segment <;> exact ⟨rfl, rfl, fun _ => by simp [held]⟩

theorem Regular.held (regular : Regular segments)
    (formed : ∀ segment ∈ segments, segment.held.Formed) : Regular (segments.map Segment.held) :=
  regular.map alike_held formed

theorem held_pieces (segments : List Segment) :
    Piece.held (segments.flatMap pieces) = (segments.map held).flatMap text := by
  induction segments with
  | nil => rfl
  | cons segment segments ih =>
    rw [List.flatMap_cons, Piece.held_append, ih, List.map_cons, List.flatMap_cons]
    congr 1
    cases segment with
    | reference lead found tail =>
      simp [pieces, Piece.held_append, Piece.held_reference_cons, Piece.held_plain, Segment.held,
        text]
    | _ => exact Piece.held_plain _

theorem text_pieces (segment : Segment) : segment.pieces.flatMap Piece.text = segment.text := by
  have plain : ∀ text : Text, (text.map Piece.plain).flatMap Piece.text = text := fun text => by
    simp [List.flatMap_map, Piece.text]
  cases segment with
  | reference lead found tail => simp [pieces, text, plain, Piece.text]
  | _ => exact plain _

def heldLexemes (segments : List Segment) : List Lexeme :=
  ((segments.map held).map capitalized).flatMap lexemes

theorem heldLexemes_cons (segment : Segment) (segments : List Segment) :
    heldLexemes (segment :: segments) =
      segment.held.capitalized.lexemes ++ heldLexemes segments := by
  simp [heldLexemes]

theorem heldLexemes_append (first second : List Segment) :
    heldLexemes (first ++ second) = heldLexemes first ++ heldLexemes second := by
  simp [heldLexemes]

theorem depth?_heldLexemes (segments : List Segment) (depth : Nat) :
    depth? Lexeme.nesting depth (heldLexemes segments) = depth? nesting depth segments := by
  induction segments generalizing depth with
  | nil => rfl
  | cons segment segments ih =>
    have own : depth? Lexeme.nesting depth segment.held.capitalized.lexemes =
        segment.nesting.turn depth := by
      cases segment with
      | symbol sign => cases sign <;> cases depth <;> rfl
      | _ => rfl
    rw [heldLexemes_cons, depth?_append, own, depth?_cons]
    congr 1
    funext deeper
    exact ih deeper

theorem balanced_heldLexemes (balanced : Balanced nesting segments) :
    Balanced Lexeme.nesting (heldLexemes segments) :=
  fun depth => by rw [depth?_heldLexemes, balanced depth]

theorem heldLexemes_flatMap {α : Type} (items : List α) (parts : α → List Segment) :
    heldLexemes (items.flatMap parts) = items.flatMap fun item => heldLexemes (parts item) := by
  simp [heldLexemes, List.map_flatMap, List.flatMap_assoc]

theorem Regular.lexes_held (regular : Regular segments)
    (held : ∀ segment ∈ segments, segment.held.Formed) :
    Lexer.Lexes (placeholderText (segments.flatMap text)) (heldLexemes segments) := by
  have regular' := regular.held held
  rw [placeholderText_eq, regular.ofText, held_pieces, regular'.capitalizeCalls]
  refine regular'.capitalized.lexes fun lead found tail member => ?_
  obtain ⟨segment, within, impossible⟩ := List.mem_map.mp member
  obtain ⟨segment, -, rfl⟩ := List.mem_map.mp within
  cases segment <;> cases impossible

structure Valid (functions : List Builtin) (segments : List Segment) : Prop where
  regular : Regular segments
  held : ∀ segment ∈ segments, segment.held.Formed
  allowed : ∀ function head, .call function head ∈ segments → function ∈ functions
  value : ∃ tree value, Parser.tree (heldLexemes segments) = .ok tree ∧
    tree.eval { functions } = .ok value ∧ value.isList = false

variable {functions : List Builtin}

theorem Valid.balanced (valid : Valid functions segments) : Balanced nesting segments := by
  obtain ⟨tree, value, reads, -⟩ := valid.value
  intro depth
  rw [← depth?_heldLexemes, balanced_of_tree reads depth]

end Segment

theorem value_of_hasErrors {allowAggregates : Bool} {expression : Text}
    (sound : hasErrors allowAggregates expression = .ok false) :
    ∃ value, evaluate (allowedFunctions allowAggregates) expression = .ok value ∧
      value.isList = false := by
  have refused : ∀ error, (calculate {} true allowAggregates expression).outcome ≠
      .error (.formula error) := by
    intro error failed
    unfold hasErrors at sound
    rw [failed] at sound
    cases sound
  unfold calculate at refused
  cases evaluated : evaluate (allowedFunctions allowAggregates) expression with
  | error breakdown =>
    rw [evaluated] at refused
    cases breakdown with
    | defect reason => exact absurd rfl (refused _)
    | fault reason =>
      unfold hasErrors calculate at sound
      rw [evaluated] at sound
      cases sound
  | ok value =>
    rw [evaluated] at refused
    cases value with
    | list items => exact absurd rfl (refused _)
    | _ => exact ⟨_, rfl, rfl⟩

theorem objection?_ne_valid (catalog : Catalog) (formula : Text) :
    objection? catalog formula ≠ some .valid := by
  intro found
  obtain ⟨⟨applies, missing⟩, member, found⟩ := List.exists_of_findSome?_eq_some found
  obtain ⟨reference, -, found⟩ := List.exists_of_findSome?_eq_some found
  have other : missing ≠ .valid := by
    rintro rfl
    simp [existenceChecks] at member
  unfold referenceObjection? at found
  split at found
  · cases found
  · cases found
  · exact other (Option.some.inj found)

/-- A formula is valid, with aggregate functions or without them. -/
def Accepted (catalog : Catalog) (allowAggregates : Bool) (formula : Text) : Prop :=
  ∃ verdict, validate catalog allowAggregates formula = .ok verdict ∧ verdict.outcome = .valid

theorem accepted_of_validateRule {catalog : Catalog} {formula : Text}
    (valid : validateRule catalog formula = .ok .valid) : Accepted catalog false formula := by
  obtain ⟨verdict, validated, outcome⟩ := bind_eq_ok_iff.mp valid
  exact ⟨verdict, validated, Except.ok.inj outcome⟩

theorem accepted_of_validatePredictor {catalog : Catalog} {formula : Text}
    (valid : validatePredictor catalog formula = .ok .valid) : Accepted catalog true formula := by
  obtain ⟨verdict, validated, outcome⟩ := bind_eq_ok_iff.mp valid
  exact ⟨verdict, validated, Except.ok.inj outcome⟩

variable {catalog : Catalog} {allowAggregates : Bool} {formula : Text}

theorem exists_accepted
    (valid : validateRule catalog formula = .ok .valid ∨
      validatePredictor catalog formula = .ok .valid) :
    ∃ allowAggregates, Accepted catalog allowAggregates formula :=
  valid.elim (fun rule => ⟨_, accepted_of_validateRule rule⟩)
    fun predictor => ⟨_, accepted_of_validatePredictor predictor⟩

/-- References tell nothing against a valid formula, and with placeholders it has a value, which is
no list. -/
theorem Accepted.value (accepted : Accepted catalog allowAggregates formula) :
    formula ≠ [] ∧ objection? catalog formula = none ∧
      ∃ value, evaluate (allowedFunctions allowAggregates) (placeholderText formula) = .ok value ∧
        value.isList = false := by
  obtain ⟨verdict, validated, outcome⟩ := accepted
  unfold validate at validated
  split at validated
  · cases validated
    cases outcome
  rename_i some
  split at validated
  · rename_i objection found
    cases validated
    exact absurd (outcome ▸ found) (objection?_ne_valid catalog formula)
  · rename_i none
    obtain ⟨errors, checked, validated⟩ := bind_eq_ok_iff.mp validated
    cases validated
    cases errors with
    | true => cases outcome
    | false => exact ⟨by simpa using some, none, value_of_hasErrors checked⟩

/-- A valid formula consists of valid segments. -/
theorem Accepted.segments (accepted : Accepted catalog allowAggregates formula) :
    ∃ segments : List Segment, formula = segments.flatMap Segment.text ∧
      Segment.Valid (allowedFunctions allowAggregates) segments := by
  obtain ⟨-, -, value, evaluated, plain⟩ := accepted.value
  obtain ⟨placed, parsed, evaluated⟩ := evaluate_eq_ok_iff.mp evaluated
  obtain ⟨capitals, lexes, reads⟩ := Expr.lexes_of_parse parsed
  have unplaced : placed.unplaced.eval { functions := allowedFunctions allowAggregates } =
      .ok value := by
    rw [Expr.eval_unplaced, evaluated]
    rfl
  have same := lexes
  rw [placeholderText_eq, capitalizeCalls] at lexes
  obtain ⟨lexemes, lexes, recased⟩ := lexes.of_capitalizeCallsFrom
  obtain ⟨segments, shape, regular, held, allowed, -⟩ :=
    segments_of_pieces (Piece.legible_ofTextFrom false formula) lexes
      (recased.orderly (orderly_of_tree reads unplaced))
  have whole : formula = segments.flatMap Segment.text := by
    rw [Piece.eq_of_ofText shape, List.flatMap_assoc]
    exact List.flatMap_congr fun segment _ => segment.text_pieces
  refine ⟨segments, whole, regular, held, allowed, placed.unplaced, value, ?_, unplaced, plain⟩
  rw [whole] at same
  rw [(regular.lexes_held held).unique same]
  exact reads

end IndicatorFormula
