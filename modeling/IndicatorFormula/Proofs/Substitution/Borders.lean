import IndicatorFormula.Proofs.Expression.Alternation
import IndicatorFormula.Proofs.Formula.Sealing
import IndicatorFormula.Proofs.Substitution.Samples

/-! Borders of the operands of a formula.

In a valid formula operands and what joins them take turns, with samples and tests replaced as well.
So no operand ends before a reference, blanks apart, and the argument of a test ends like an
operand. -/

set_option autoImplicit false
namespace IndicatorFormula

namespace Segment

variable {segment : Segment} {segments : List Segment} {before next : Phase}

def phase : Segment → Phase
  | .call .. => .opened
  | .symbol sign => (Lexeme.symbol sign).phase
  | _ => .ended

def isBlank : Segment → Bool
  | .blank _ => true
  | _ => false

theorem phase_eq_ended_iff (seen : segment.isBlank = false) :
    segment.phase = .ended ↔ segment.closes = true := by
  cases segment with
  | blank => cases seen
  | symbol sign => cases sign <;> simp [phase, Lexeme.phase, closes]
  | _ => simp [phase, closes]

theorem nesting_of_phase (seen : segment.isBlank = false) (opens : segment.phase = .opened) :
    segment.nesting = .opens := by
  cases segment with
  | symbol sign => cases sign <;> first | rfl | cases opens
  | call => rfl
  | blank => cases seen
  | _ => cases opens

/-- The segments that the lexemes with placeholders alternate in. -/
def Alternates (before : Phase) (segments : List Segment) (next : Phase) : Prop :=
  before.behind? (heldLexemes segments) = some next

theorem alternates_append {first second : List Segment} :
    Alternates before (first ++ second) next ↔
      ∃ between, Alternates before first between ∧ Alternates between second next := by
  rw [Alternates, heldLexemes_append, Phase.behind?_append, Option.bind_eq_some_iff]
  rfl

theorem alternates_nil : Alternates before [] next ↔ next = before := by
  constructor
  · rintro ⟨⟩
    rfl
  · rintro rfl
    rfl

theorem alternates_blank {c : Char} : Alternates before [.blank c] next ↔ next = before :=
  alternates_nil

theorem Alternates.phase_eq (seen : segment.isBlank = false)
    (alternates : Alternates before [segment] next) : next = segment.phase := by
  cases segment with
  | blank => cases seen
  | call function head =>
    have stands : before.behind? [.identifier head.capitalized.name, .opensCall] = some next :=
      alternates
    exact Phase.behind?_nil.mp (Phase.behind?_cons.mp (Phase.behind?_cons.mp stands).2).2
  | _ => exact Phase.behind?_nil.mp (Phase.behind?_cons.mp alternates).2

theorem Alternates.last (alternates : Alternates before segments next) :
    (∀ segment ∈ segments, segment.isBlank = true) ∧ next = before ∨
      ∃ first last gap, segments = first ++ last :: gap ∧ last.isBlank = false ∧
        (∀ segment ∈ gap, segment.isBlank = true) ∧ next = last.phase := by
  induction segments using List.reverseRecOn generalizing next with
  | nil => exact .inl ⟨nofun, alternates_nil.mp alternates⟩
  | append_singleton segments segment ih =>
    obtain ⟨between, earlier, here⟩ := alternates_append.mp alternates
    cases seen : segment.isBlank with
    | false => exact .inr ⟨segments, segment, [], rfl, seen, nofun, here.phase_eq seen⟩
    | true =>
      obtain ⟨c, rfl⟩ : ∃ c, segment = .blank c := by
        cases segment with
        | blank c => exact ⟨c, rfl⟩
        | _ => cases seen
      obtain rfl := alternates_blank.mp here
      rcases ih earlier with ⟨blank, same⟩ | ⟨first, last, gap, rfl, other, blank, same⟩
      · exact .inl ⟨List.forall_mem_append.mpr ⟨blank, by simp [isBlank]⟩, same⟩
      · exact .inr ⟨first, last, gap ++ [.blank c], by simp, other,
          List.forall_mem_append.mpr ⟨blank, by simp [isBlank]⟩, same⟩

structure IsCloser (c : Char) : Prop where
  ends : endsOperand c = true
  seen : Text.isBlank c = false
  outside : ∀ kind ∈ ReferenceKind.braced, c ∉ kind.key

theorem isCloser_of_numeric {c : Char} (numeric : Lexer.isNumeric c = true) : IsCloser c := by
  have plain : ∀ kind ∈ ReferenceKind.braced, ∀ c ∈ kind.key, Lexer.isNumeric c = false := by decide
  have outside : ∀ kind ∈ ReferenceKind.braced, c ∉ kind.key := by
    intro kind braced member
    rw [plain kind braced c member] at numeric
    cases numeric
  rcases Bool.or_eq_true_iff.mp numeric with digit | point
  · have word := Lexer.isWord_of_isDigit digit
    exact ⟨by simp [endsOperand, word], Text.isBlank_of_isWord word, outside⟩
  · exact ⟨by simp [endsOperand, beq_iff_eq.mp point], by rw [beq_iff_eq.mp point]; decide, outside⟩

theorem ends_of_literal {literal : Text} (isLiteral : Lexer.IsLiteral literal)
    (some : literal ≠ []) : ∃ lead c, literal = lead ++ [c] ∧ IsCloser c := by
  have last : ∀ {text : Text}, text ≠ [] → (∀ c ∈ text, Lexer.isNumeric c = true) →
      ∃ lead c, text = lead ++ [c] ∧ IsCloser c := fun some each =>
    ⟨_, _, (List.dropLast_append_getLast some).symm,
      isCloser_of_numeric (each _ (List.getLast_mem some))⟩
  obtain ⟨numeric, exponent, rfl, each, isExponent⟩ := isLiteral
  by_cases none : exponent = []
  · subst none
    rw [List.append_nil] at some ⊢
    exact last some each
  · obtain ⟨mark, sign, digits, rfl, -, -, some', isDigit⟩ := isExponent.parts none
    obtain ⟨lead, c, rfl, closer⟩ :=
      last some' fun c member => by simp [Lexer.isNumeric, isDigit c member]
    exact ⟨numeric ++ mark :: (sign ++ lead), c, by simp, closer⟩

theorem Formed.ends_of_closes (formed : segment.Formed) (closes : segment.closes = true) :
    ∃ lead c, segment.text = lead ++ [c] ∧ IsCloser c := by
  have single : ∀ c ∈ ['e', ')', ']', '}'], IsCloser c := by
    intro c member
    have ends : ∀ c ∈ ['e', ')', ']', '}'], endsOperand c = true ∧ Text.isBlank c = false ∧
        ∀ kind ∈ ReferenceKind.braced, c ∉ kind.key := by decide
    obtain ⟨ends, seen, outside⟩ := ends c member
    exact ⟨ends, seen, outside⟩
  cases formed with
  | blank => cases closes
  | call => cases closes
  | boolean value =>
    cases value with
    | false => exact ⟨['f', 'a', 'l', 's'], 'e', rfl, single _ (by decide)⟩
    | true => exact ⟨['t', 'r', 'u'], 'e', rfl, single _ (by decide)⟩
  | number number =>
    refine ends_of_literal number.isLiteral ?_
    cases number
    exact List.cons_ne_nil _ _
  | symbol sign =>
    cases sign with
    | closing bracket => cases bracket <;> exact ⟨[], _, rfl, single _ (by decide)⟩
    | _ => cases closes
  | @reference lead found tail legible digits fresh literal =>
    by_cases none : tail = []
    · obtain ⟨inner, last, shape, closing⟩ := legible.last
      refine ⟨lead ++ inner, last, by simp [text, none, shape], single _ ?_⟩
      rcases closing with rfl | rfl <;> decide
    · obtain ⟨inner, c, shape, closer⟩ := ends_of_literal literal none
      exact ⟨lead ++ (found.text ++ inner), c, by simp [text, shape], closer⟩

theorem Formed.ends_of_not_closes (formed : segment.Formed) (seen : segment.isBlank = false)
    (other : segment.closes = false) :
    ∃ lead c, segment.text = lead ++ [c] ∧ endsOperand c = false ∧ Text.isBlank c = false := by
  cases formed with
  | blank => cases seen
  | boolean | number | reference => cases other
  | @call function head => exact ⟨head.name ++ head.gap, '(', rfl, by decide, by decide⟩
  | symbol sign =>
    have each : ∀ sign : Symbol, (Segment.symbol sign).closes = false → sign.text ≠ [] ∧
        ∀ c ∈ sign.text, endsOperand c = false ∧ Text.isBlank c = false := by
      intro sign other
      cases sign with
      | opening bracket => cases bracket <;> decide
      | closing bracket => cases other
      | operator operator => cases operator <;> decide
      | comma | not => decide
    obtain ⟨some, plain⟩ := each sign other
    exact ⟨_, _, (List.dropLast_append_getLast some).symm, plain _ (List.getLast_mem some)⟩

theorem isBlank_text (formed : ∀ segment ∈ segments, segment.Formed)
    (blank : ∀ segment ∈ segments, segment.isBlank = true) :
    ∀ c ∈ segments.flatMap text, Text.isBlank c = true := by
  intro c member
  obtain ⟨segment, within, member⟩ := List.mem_flatMap.mp member
  cases formed segment within with
  | blank isBlank => rwa [List.mem_singleton.mp member]
  | _ => cases blank _ within

theorem Alternates.awaits (alternates : Alternates .pending segments next) (other : next ≠ .ended)
    (formed : ∀ segment ∈ segments, segment.Formed) : AwaitsOperand (segments.flatMap text) := by
  have blanks : ∀ {text : Text}, (∀ c ∈ text, Text.isBlank c = true) → AwaitsOperand text := by
    rintro text blank start c gap rfl -
    simpa using Text.of_isBlank (fun c => !endsOperand c) (by decide +kernel) (blank c (by simp))
  rcases alternates.last with ⟨blank, -⟩ | ⟨first, last, gap, rfl, seen, blank, same⟩
  · exact blanks (isBlank_text formed blank)
  · have closes : last.closes = false := by
      by_contra closes
      exact other (same.trans ((phase_eq_ended_iff seen).mpr (Bool.eq_true_of_not_eq_false closes)))
    obtain ⟨lead, c, shape, ends, seen'⟩ := (formed last (by simp)).ends_of_not_closes seen closes
    have whole : (first ++ last :: gap).flatMap text =
        (first.flatMap text ++ lead) ++ c :: gap.flatMap text := by
      simp [shape]
    have gapBlank := isBlank_text (fun segment member => formed segment (by simp [member])) blank
    have spaces : AwaitsOperand ([] ++ ' ' :: gap.flatMap text) :=
      blanks (List.forall_mem_cons.mpr ⟨by decide, gapBlank⟩)
    rw [whole]
    refine spaces.exchange seen' fun impossible => ?_
    rw [ends] at impossible
    cases impossible

theorem balanced_blanks (blank : ∀ segment ∈ segments, segment.isBlank = true) :
    Balanced nesting segments := by
  induction segments with
  | nil => exact balanced_nil
  | cons segment segments ih =>
    obtain ⟨here, rest⟩ := List.forall_mem_cons.mp blank
    cases segment with
    | blank c => exact (ih rest).cons rfl
    | _ => cases here

theorem Alternates.ne_ended (alternates : Alternates before (segment :: segments) next)
    (operand : segment.isOperand = true) : before ≠ .ended := by
  rintro rfl
  rw [Alternates, heldLexemes_cons] at alternates
  cases segment with
  | blank | symbol => cases operand
  | _ => cases (Phase.behind?_cons.mp alternates).1

/-- Where operands alternate with what joins them, one is awaited before each. -/
theorem Alternates.awaits_before {first last : List Segment}
    (alternates : Alternates .pending (first ++ segment :: last) next)
    (operand : segment.isOperand = true) (formed : ∀ segment ∈ first, segment.Formed) :
    AwaitsOperand (first.flatMap text) := by
  obtain ⟨between, earlier, here⟩ := alternates_append.mp alternates
  exact earlier.awaits (here.ne_ended operand) formed

/-- Formulas in which operands alternate with what joins them are sealed. -/
theorem Regular.isSealed (regular : Regular segments)
    (alternates : Alternates .pending segments next) : Sealed (segments.flatMap text) := by
  intro start later same
  obtain ⟨first, segment, last, inner, outer, rfl, within, rfl, rfl⟩ := exists_item same
  have formed := regular.formed segment (by simp)
  have brace : '{' ∈ segment.text := by simp [within]
  by_cases other : ∀ lead found tail, segment = .reference lead found tail → found.kind = .days
  · exact absurd rfl (formed.ne_brace other _ brace).1
  · push Not at other
    obtain ⟨lead, found, tail, rfl, days⟩ := other
    cases formed with
    | reference legible digits fresh literal =>
      have plain : '{' ∉ tail := fun member => (ne_brace_of_literal literal _ member).1 rfl
      obtain rfl : lead = [] := by
        by_contra some
        exact days (fresh some)
      have within : found.text ++ (tail ++ []) = inner ++ '{' :: outer := by
        simpa [text] using within
      rcases outside_of_not_mem within plain with ⟨middle, whole, rfl⟩ | ⟨middle, impossible, -⟩
      · obtain ⟨rfl, rfl⟩ := legible.brace days whole
        exact ⟨first.flatMap text, found, tail ++ last.flatMap text, legible, days, rfl, by simp,
          alternates.awaits_before rfl
            fun segment member => regular.formed segment (by simp [member])⟩
      · simp at impossible

theorem Regular.endsWord_before {first last : List Segment}
    (regular : Regular (first ++ segment :: last)) (operand : segment.isOperand = true) :
    Text.endsWord false (first.flatMap text) = false := by
  cases first using List.reverseRecOn with
  | nil => rfl
  | append_singleton first other =>
    by_contra word
    have apart := regular.between other (by simp) segment rfl
    have formed := regular.formed other (by simp)
    rw [List.flatMap_append, Text.endsWord_append, List.flatMap_singleton] at word
    rw [apart.operands (formed.closes_of_endsWord (Bool.eq_true_of_not_eq_false word))] at operand
    cases operand

theorem Formed.bracket (formed : segment.Formed) (member : '[' ∈ segment.text) :
    segment = .symbol (.opening .square) ∨
      ∃ lead tail, segment = .reference lead ⟨.days, []⟩ tail ∧ '[' ∉ lead ∧ '[' ∉ tail := by
  have numeric : ∀ {literal : Text}, Lexer.IsLiteral literal → '[' ∉ literal := by
    intro literal isLiteral member
    have each : ∀ c ∈ literal, c ≠ '[' :=
      isLiteral.forall (by rintro c numeric rfl; cases numeric) (by decide)
    exact each _ member rfl
  cases formed with
  | @blank c blank =>
    rw [← List.mem_singleton.mp member] at blank
    exact absurd blank (by decide)
  | boolean value => cases value <;> exact absurd member (by decide)
  | number number => exact absurd member (numeric number.isLiteral)
  | @call function head calls =>
    have inside : '[' ∈ (head.name ++ head.gap) ++ ['('] := member
    simp only [List.mem_append, List.mem_singleton] at inside
    rcases inside with (inside | inside) | impossible
    · exact absurd (Text.isWord_of_spelling calls.name _ inside) (by decide)
    · exact absurd (calls.gap _ inside) (by decide)
    · exact absurd impossible (by decide)
  | symbol sign =>
    cases sign with
    | opening bracket | closing bracket =>
      cases bracket <;> first | exact .inl rfl | exact absurd member (by decide)
    | operator operator => cases operator <;> exact absurd member (by decide)
    | comma | not => exact absurd member (by decide)
  | @reference lead found tail legible digits fresh literal =>
    have front : '[' ∉ lead := fun inside => absurd (digits _ inside) (by decide)
    by_cases days : found.kind = .days
    · exact .inr ⟨lead, tail, by rw [legible.eq_days days], front, numeric literal⟩
    · obtain ⟨braced, keys, shape⟩ := legible.shape days
      have plain : ∀ kind ∈ ReferenceKind.braced, '[' ∉ kind.key := by decide
      have key : '[' ∉ found.key := fun inside => absurd (keys _ inside) (by decide)
      simp [text, shape, front, numeric literal, plain _ braced, key] at member

theorem eq_of_single {x : Char} {front tail inner outer : Text}
    (same : front ++ x :: tail = inner ++ x :: outer) (plain : x ∉ front) (plain' : x ∉ tail) :
    inner = front := by
  rcases List.append_eq_append_iff.mp same with ⟨middle, rfl, rest⟩ | ⟨middle, rfl, rest⟩
  · cases middle with
    | nil => exact List.append_nil front
    | cons d middle =>
      rw [(List.cons.inj rest).2] at plain'
      exact absurd (by simp) plain'
  · cases middle with
    | nil => exact (List.append_nil inner).symm
    | cons d middle =>
      rw [(List.cons.inj rest).1] at plain
      exact absurd (by simp) plain

theorem Regular.unnamed (regular : Regular segments) : Unnamed (segments.flatMap text) := by
  intro lead c behind same word
  have same : segments.flatMap text =
      (lead ++ [c, '1']) ++ '[' :: (['d', 'a', 'y', 's', ']'] ++ behind) := by
    simpa [ReferenceKind.key] using same
  obtain ⟨first, segment, last, inner, outer, rfl, within, starts, ends⟩ := exists_item same
  rcases (regular.formed segment (by simp)).bracket (by simp [within])
    with rfl | ⟨front, tail, rfl, plain, plain'⟩
  · -- A list does not begin with that letter.
    obtain ⟨rfl, rfl, -⟩ := eq_of_singleton (show ['['] = inner ++ '[' :: outer from within)
    cases last with
    | nil => cases ends
    | cons follower last =>
      obtain ⟨d, rest, shape, other⟩ := (regular.formed follower (by simp)).head
      rw [List.flatMap_cons, shape] at ends
      obtain ⟨rfl, -⟩ := List.cons.inj ends
      exact absurd rfl (other (by decide)).1.1
  · -- Only digits of the same number stand before the reference, or nothing that ends a word.
    have within : front ++ '[' :: (['d', 'a', 'y', 's', ']'] ++ tail) = inner ++ '[' :: outer := by
      simpa [text, Reference.text, ReferenceKind.key] using within
    obtain rfl := eq_of_single within plain (by simp [plain'])
    have before := regular.endsWord_before rfl
    cases inner using List.reverseRecOn with
    | nil =>
      rw [List.append_nil] at starts
      rw [← starts, Text.endsWord_append] at before
      cases before
    | append_singleton inner x =>
      have starts : (lead ++ [c]) ++ ['1'] = (first.flatMap text ++ inner) ++ [x] := by
        simpa using starts
      obtain ⟨starts, -⟩ := List.append_inj' starts rfl
      cases inner using List.reverseRecOn with
      | nil =>
        rw [List.append_nil] at starts
        rw [← starts, Text.endsWord_append] at before
        exact absurd before (by simp [Text.endsWord, word])
      | append_singleton inner y =>
        have starts : lead ++ [c] = (first.flatMap text ++ inner) ++ [y] := by simpa using starts
        obtain ⟨-, single⟩ := List.append_inj' starts rfl
        cases single
        cases regular.formed (.reference (inner ++ [c] ++ [x]) ⟨.days, []⟩ tail) (by simp) with
        | reference _ digits => exact digits c (by simp)

/-- Operands alternate with what joins them as well if what stands for some segments does so where
they did. -/
theorem Alternates.replace {α : Type} {old new : α → List Segment} {items : List α}
    (each : ∀ item ∈ items, ∀ before next, Alternates before (old item) next →
      Alternates before (new item) next) (alternates : Alternates before (items.flatMap old) next) :
    Alternates before (items.flatMap new) next := by
  induction items generalizing before with
  | nil => exact alternates
  | cons item items ih =>
    rw [List.flatMap_cons] at alternates ⊢
    obtain ⟨between, first, rest⟩ := alternates_append.mp alternates
    exact alternates_append.mpr ⟨between, each item List.mem_cons_self _ _ first,
      ih (fun other member => each other (List.mem_cons_of_mem _ member)) rest⟩

theorem heldLexemes_congr {others : List Segment}
    (capitals : others.map capitalized = segments.map capitalized) :
    heldLexemes others = heldLexemes segments := by
  have same : ∀ segments : List Segment, heldLexemes segments =
      ((segments.map capitalized).map held).flatMap lexemes := by
    intro segments
    rw [heldLexemes, List.map_map, List.map_map]
    congr 2
    funext segment
    cases segment <;> rfl
  rw [same, same, capitals]

theorem alternates_boolean {value : Bool} :
    Alternates before [.boolean value] next ↔ before ≠ .ended ∧ next = .ended := by
  have same : Alternates before [.boolean value] next ↔
      before.behind? [.identifier (boolean value).text] = some next :=
    .rfl
  simp only [same, Phase.behind?_cons, Phase.behind?_nil, Phase.admits, bne_iff_ne, Lexeme.phase]

end Segment

open Segment (Alternates Regular text alternates_append)

namespace Part

variable {before next : Phase} {function : Builtin} {head : CallHead} {argument : List Segment}
  {bracket : Bracket}

theorem alternates_call :
    Alternates before (Part.call function head argument bracket).segments next ↔
      before ≠ .ended ∧ next = .ended ∧
        ∃ between, between ≠ .pending ∧ Alternates .opened argument between := by
  have opening : ∀ {between : Phase}, Alternates before [.call function head] between ↔
      before ≠ .ended ∧ between = .opened := by
    intro between
    have same : Alternates before [.call function head] between ↔
      before.behind? [.identifier head.capitalized.name, .opensCall] = some between := .rfl
    simp only [same, Phase.behind?_cons, Phase.behind?_nil, Phase.admits, bne_iff_ne,
      Lexeme.opensCall, Lexeme.phase, true_and]
  have closing : ∀ {between : Phase}, Alternates between [.symbol (.closing bracket)] next ↔
      between ≠ .pending ∧ next = .ended := by
    intro between
    have same : Alternates between [.symbol (.closing bracket)] next ↔
      between.behind? [.symbol (.closing bracket)] = some next := .rfl
    simp only [same, Phase.behind?_cons, Phase.behind?_nil, Phase.admits, bne_iff_ne, Lexeme.phase]
  rw [segments, ← List.singleton_append]
  simp only [alternates_append, opening, closing]
  constructor
  · rintro ⟨between, ⟨_, ⟨awaited, rfl⟩, inside⟩, closes, rfl⟩
    exact ⟨awaited, rfl, between, closes, inside⟩
  · rintro ⟨awaited, rfl, between, closes, inside⟩
    exact ⟨between, ⟨.opened, ⟨awaited, rfl⟩, inside⟩, closes, rfl⟩

theorem alternates_tested (hasValue : Text → Bool) {part : Part}
    (alternates : Alternates before part.segments next) :
    Alternates before (part.tested hasValue) next := by
  cases part with
  | plain segment => exact alternates
  | call function head argument bracket =>
    obtain ⟨awaited, ends, -⟩ := alternates_call.mp alternates
    unfold tested
    simp only
    split
    · exact Segment.alternates_boolean.mpr ⟨awaited, ends⟩
    · exact alternates

theorem alternates_sampled {table : Samples} (finite : table.Finite) {part : Part}
    (alternates : Alternates before part.segments next) :
    Alternates before (part.sampled table).segments next := by
  cases part with
  | plain segment => exact alternates
  | call function head argument bracket =>
    obtain ⟨awaited, ends, -⟩ := alternates_call.mp alternates
    refine alternates_call.mpr ⟨awaited, ends, .ended, nofun, ?_⟩
    -- The list of samples is read as one operand.
    obtain ⟨trees, -, reads⟩ :=
      Segment.exists_signed_samples (finite.present (argument.flatMap text))
    obtain ⟨after, stands, within⟩ := Parser.behind?_of_read (reads [] true) (.inl rfl)
    cases within
    rwa [Alternates, Segment.heldLexemes_ofSamples]

theorem closes_argument
    (alternates : Alternates before (Part.call function head argument bracket).segments next)
    (balanced : Balanced Segment.nesting argument)
    (seen : ∃ segment ∈ argument, segment.isBlank = false) :
    ∃ first last gap, argument = first ++ last :: gap ∧ last.closes = true ∧
      ∀ segment ∈ gap, segment.isBlank = true := by
  obtain ⟨-, -, between, other, inside⟩ := alternates_call.mp alternates
  rcases inside.last with ⟨blank, -⟩ | ⟨first, last, gap, rfl, seen, blank, rfl⟩
  · obtain ⟨segment, member, other⟩ := seen
    rw [blank segment member] at other
    cases other
  refine ⟨first, last, gap, rfl, ?_, blank⟩
  rw [← Segment.phase_eq_ended_iff seen]
  cases phase : last.phase with
  | ended => rfl
  | pending => exact absurd phase other
  | opened =>
    -- What opens last does not close.
    have opens := Segment.nesting_of_phase seen phase
    have whole := balanced 0
    rw [depth?_append, Option.bind_eq_some_iff] at whole
    obtain ⟨depth, -, whole⟩ := whole
    rw [depth?_opens opens, Segment.balanced_blanks blank] at whole
    cases whole

end Part
end IndicatorFormula
