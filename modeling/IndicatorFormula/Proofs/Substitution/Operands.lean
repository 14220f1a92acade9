import IndicatorFormula.Proofs.Expression.Shape
import IndicatorFormula.Proofs.Substitution.Filling
import IndicatorFormula.Proofs.Substitution.Passes
import IndicatorFormula.Proofs.Substitution.Validation

/-! Operands of formulas.

A formula that is filled in has numbers where it was validated with placeholders, and truth values
where it was validated with tests. Its lexemes differ in these operands only, so that it has a tree
as well. -/

set_option autoImplicit false
namespace IndicatorFormula

namespace Parser

variable {kept : Text → Prop}

theorem exchange_self {lexemes : List Lexeme}
    (keeps : ∀ name, .identifier name ∈ lexemes → kept name) :
    LexemesExchange kept lexemes lexemes := by
  induction lexemes with
  | nil => exact .nil
  | cons lexeme lexemes ih =>
    refine .keep (fun name same => keeps name (same ▸ List.mem_cons_self))
      (ih fun name member => ?_)
    exact keeps name (List.mem_cons_of_mem _ member)

theorem exchange_flatMap {α : Type} {old new : α → List Lexeme} {items : List α}
    (each : ∀ item ∈ items, LexemesExchange kept (old item) (new item)) :
    LexemesExchange kept (items.flatMap old) (items.flatMap new) := by
  induction items with
  | nil => exact .nil
  | cons item items ih =>
    rw [List.flatMap_cons, List.flatMap_cons]
    exact (each item List.mem_cons_self).append
      (ih fun other member => each other (List.mem_cons_of_mem _ member))

end Parser

open IndicatorFormula.Parser (LexemesExchange ReadsAs)

namespace Segment

variable {kept : Text → Prop} {functions : List Builtin} {numbers : Supply}
  {segments : List Segment}

theorem exists_signed_magnitude (negative : Bool) (m : Fin finiteMagnitudes) :
    ∃ tree : Expr, tree.IsSigned ∧ ReadsAs tree ((ofMagnitude negative m).flatMap lexemes) := by
  cases negative with
  | false => exact ⟨_, .number (.finite false m), fun frames empty => rfl⟩
  | true => exact ⟨_, .minus (.number (.finite false m)), fun frames empty => rfl⟩

theorem exists_signed (finite : numbers.Finite) (reference : Reference) :
    ∃ tree : Expr, tree.IsSigned ∧
      ReadsAs tree ((ofReference numbers reference).flatMap lexemes) := by
  unfold ofReference
  cases supplied : numbers.number? reference with
  | none => exact ⟨_, .number (.zero false), fun frames empty => rfl⟩
  | some x =>
    obtain ⟨negative, m, value⟩ := finite reference x supplied
    simp only [value]
    exact exists_signed_magnitude negative m

theorem Valid.complete_call {before behind : List Segment} {function : Builtin} {head : CallHead}
    (valid : Valid functions (before ++ .call function head :: behind)) :
    ∃ tree frames, tree.isKnown functions = true ∧
      Parser.complete (.operand (.call head.capitalized.name 0 [] :: frames) true)
          (heldLexemes behind) = .ok tree := by
  obtain ⟨tree, value, reads, evaluated, -⟩ := valid.value
  rw [heldLexemes_append, heldLexemes_cons, Parser.tree, Parser.complete_append] at reads
  obtain ⟨state, -, reads⟩ := bind_eq_ok_iff.mp reads
  have called : Parser.complete state
        (.identifier head.capitalized.name :: .opensCall :: heldLexemes behind) = .ok tree :=
    reads
  -- A name is read where an operand is expected.
  obtain ⟨frames, empty, rfl⟩ := Parser.operand_of_complete rfl called
  exact ⟨tree, frames, Expr.isKnown_of_eval tree evaluated, called⟩

/-- The name of a head in a valid formula has the capitals of its function. This is not so of every
head: some characters that are read as letters of a name have other capitals. -/
theorem Valid.name_capitalized (valid : Valid functions segments) {function : Builtin}
    {head : CallHead} (member : .call function head ∈ segments) :
    head.capitalized.name = function.name := by
  have formed := valid.regular.formed _ member
  obtain ⟨before, behind, rfl⟩ := List.append_of_mem member
  obtain ⟨tree, frames, known, called⟩ := valid.complete_call
  obtain ⟨meant, -⟩ := Parser.orderly_of_complete called known
  simp only [Parser.State.isKnown, List.all_cons, Parser.Frame.isKnown, Bool.and_eq_true] at meant
  -- The tree has a value, so its calls are called like functions, and a spelling is that of one
  -- function only.
  obtain ⟨other, found⟩ := Option.isSome_iff_exists.mp meant.1.1
  obtain ⟨same, -⟩ := Expr.ofName?_all found
  cases formed with
  | call calls =>
    have spelling := calls.capitalized.name
    rw [← same] at spelling
    rw [← same, spelling.unique (Text.spelling_self other)]

/-- The calls of segments have the names of their functions in capitals, and these names are
kept. -/
def Named (kept : Text → Prop) (segments : List Segment) : Prop :=
  ∀ function head, .call function head ∈ segments →
    head.capitalized.name = function.name ∧ kept function.name

theorem Named.subset {others : List Segment} (named : Named kept segments)
    (subset : others ⊆ segments) : Named kept others :=
  fun function head member => named function head (subset member)

theorem exchange_filled (truth : ∀ value, kept (truthLiteral value)) (finite : numbers.Finite)
    (named : Named kept segments) :
    LexemesExchange kept (heldLexemes segments)
      (((segments.map capitalized).flatMap (filled numbers)).flatMap lexemes) := by
  rw [heldLexemes, List.flatMap_assoc, List.map_map, List.flatMap_map, List.flatMap_map]
  refine Parser.exchange_flatMap fun segment member => ?_
  cases segment with
  | reference lead found tail =>
    obtain ⟨tree, signed, reads⟩ := exists_signed finite found
    have exchange : LexemesExchange kept _ _ :=
      .number (Lexer.literalValue (lead ++ placeholder ++ tail)) signed reads .nil
    rwa [List.append_nil] at exchange
  | blank c => exact .nil
  | boolean value => exact .keep (fun name same => by cases same; exact truth value) .nil
  | call function head =>
    obtain ⟨same, keeps⟩ := named function head member
    refine .keep (fun name found => ?_) (.keep (fun name found => by cases found) .nil)
    cases found
    rwa [same]
  | number literal value => exact .keep (fun name found => by cases found) .nil
  | symbol sign => exact .keep (fun name found => by cases found) .nil

end Segment

open Segment (Named heldLexemes heldLexemes_append heldLexemes_cons filled lexemes)

variable {kept : Text → Prop} {numbers : Supply} {hasValue : Text → Bool}

theorem Part.heldLexemes_call (function : Builtin) (head : CallHead) (argument : List Segment)
    (bracket : Bracket) :
    heldLexemes (Part.call function head argument bracket).segments =
      .identifier head.capitalized.name :: .opensCall :: heldLexemes argument ++
        .symbol (.closing bracket) :: [] := by
  rw [segments, List.cons_append, heldLexemes_cons, heldLexemes_append]
  rfl

theorem Part.exchange_tested (truth : ∀ value, kept (truthLiteral value)) (finite : numbers.Finite)
    {part : Part} (cut : part.Cut nullTest) (named : Named kept part.segments) :
    LexemesExchange kept (heldLexemes part.segments) ((((part.tested hasValue).map
          Segment.capitalized).flatMap (filled numbers)).flatMap lexemes) := by
  cases part with
  | plain segment => exact Segment.exchange_filled truth finite named
  | call function head argument bracket =>
    unfold tested
    simp only
    split
    -- The whole call goes, and its brackets close within it.
    · rename_i reference asks
      obtain ⟨isTest, balanced⟩ := cut
      obtain ⟨name, -⟩ := named function head List.mem_cons_self
      rw [List.mem_singleton.mp isTest] at name
      rw [heldLexemes_call, name]
      exact .test (Segment.balanced_heldLexemes balanced) bracket (!hasValue reference.key) .nil
    · exact Segment.exchange_filled truth finite named

/-- A formula that is filled in behind its tests differs from that with placeholders in operands
only. -/
theorem exchange_tested (truth : ∀ value, kept (truthLiteral value)) (finite : numbers.Finite)
    {parts : List Part} (cut : ∀ part ∈ parts, part.Cut nullTest)
    (named : Named kept (parts.flatMap Part.segments)) :
    LexemesExchange kept (heldLexemes (parts.flatMap Part.segments)) ((((parts.flatMap
            (Part.tested hasValue)).map Segment.capitalized).flatMap (filled numbers)).flatMap
      lexemes) := by
  rw [Segment.heldLexemes_flatMap, List.map_flatMap, List.flatMap_assoc, List.flatMap_assoc]
  refine Parser.exchange_flatMap fun part member => ?_
  rw [← List.flatMap_assoc]
  exact Part.exchange_tested truth finite (cut part member)
    (named.subset fun segment within => List.mem_flatMap.mpr ⟨part, member, within⟩)

end IndicatorFormula
