import IndicatorFormula.Proofs.Expression.Spacing
import IndicatorFormula.Proofs.Formula.Cutting

/-! Tokens cut up a text.

Every step of the lexer takes a blank or the literal of a lexeme from the text and goes on right
behind it, so nothing is skipped but blanks and nothing is read twice. Where it stops, what has been
read does not depend on what is left: the text before the place of a defect has tokens. -/

set_option autoImplicit false
namespace IndicatorFormula

namespace Lexer

section Truncation

variable {text behind tail : Text}

theorem dropWhile_of_append {holds : Char → Bool}
    (dropped : (text ++ tail).dropWhile holds = behind ++ tail) :
    text.takeWhile holds = (text ++ tail).takeWhile holds ∧ text.dropWhile holds = behind := by
  induction text with
  | nil =>
    have whole := congrArg List.length (List.takeWhile_append_dropWhile (p := holds) (l := tail))
    rw [List.nil_append] at dropped
    rw [dropped, List.length_append, List.length_append] at whole
    have nothing : behind = [] := List.length_eq_zero_iff.mp (by omega)
    have none : tail.takeWhile holds = [] := List.length_eq_zero_iff.mp (by omega)
    exact ⟨none.symm, nothing.symm⟩
  | cons c text ih =>
    by_cases goesOn : holds c = true
    · rw [List.cons_append, List.dropWhile_cons_of_pos goesOn] at dropped
      obtain ⟨taken, left⟩ := ih dropped
      rw [List.cons_append, List.takeWhile_cons_of_pos goesOn, List.takeWhile_cons_of_pos goesOn,
        taken, List.dropWhile_cons_of_pos goesOn]
      exact ⟨rfl, left⟩
    · rw [List.cons_append, List.dropWhile_cons_of_neg goesOn, ← List.cons_append] at dropped
      rw [List.cons_append, List.takeWhile_cons_of_neg goesOn, List.takeWhile_cons_of_neg goesOn,
        List.dropWhile_cons_of_neg goesOn]
      exact ⟨rfl, List.append_cancel_right dropped⟩

theorem length_dropWhile_lt {holds : Char → Bool} (goesOn : text.head?.any holds = true) :
    (text.dropWhile holds).length < text.length := by
  cases text with
  | nil => cases goesOn
  | cons c text =>
    have goesOn : holds c = true := goesOn
    rw [List.dropWhile_cons_of_pos goesOn]
    exact Nat.lt_succ_of_le (List.dropWhile_sublist holds).length_le

theorem length_splitSign_le (text : Text) : (splitSign text).2.length ≤ text.length := by
  have whole := congrArg List.length (splitSign_append text)
  rw [List.length_append] at whole
  omega

theorem splitExponent_of_append (left : (splitExponent (text ++ tail)).2 = behind ++ tail) :
    splitExponent text = ((splitExponent (text ++ tail)).1, behind) := by
  cases text with
  | nil =>
    have whole := congrArg List.length (splitExponent_append tail)
    rw [List.nil_append] at left ⊢
    rw [List.length_append, left, List.length_append] at whole
    have nothing : behind = [] := List.length_eq_zero_iff.mp (by omega)
    have none : (splitExponent tail).1 = [] := List.length_eq_zero_iff.mp (by omega)
    rw [nothing, none]
    rfl
  | cons mark rest =>
    simp only [List.cons_append, splitExponent] at left ⊢
    split at left
    · rename_i exponent
      have left : (splitSign (rest ++ tail)).2.dropWhile Text.isDigit = behind ++ tail := left
      have digit := (Bool.and_eq_true_iff.mp exponent).2
      -- A digit at least is read, so what is left would be too short if the sign and the digits
      -- were behind the text.
      have longer := length_dropWhile_lt digit
      rw [left, List.length_append] at longer
      have some : rest ≠ [] := by
        rintro rfl
        have := length_splitSign_le tail
        rw [List.nil_append] at longer
        omega
      simp only [splitSign_append_of_ne_nil some] at exponent left longer ⊢
      have digits : (splitSign rest).2 ≠ [] := by
        intro none
        rw [none, List.nil_append] at longer
        omega
      rw [List.head?_append_of_ne_nil _ digits] at exponent
      obtain ⟨taken, dropped⟩ := dropWhile_of_append left
      rw [if_pos exponent, if_pos, taken, dropped]
      rwa [List.head?_append_of_ne_nil _ digits]
    · rename_i other
      have whole : mark :: rest = behind := List.append_cancel_right left
      rw [if_neg other, if_neg fun exponent => other ?_, whole]
      have digit := (Bool.and_eq_true_iff.mp exponent).2
      have digits : (splitSign rest).2 ≠ [] := by
        intro none
        rw [none] at digit
        cases digit
      have some : rest ≠ [] := by
        rintro rfl
        exact digits rfl
      rwa [splitSign_append_of_ne_nil some, List.head?_append_of_ne_nil _ digits]

theorem splitNumber_of_append {c : Char} {rest : Text}
    (left : (splitNumber c (rest ++ tail)).2 = behind ++ tail) :
    splitNumber c rest = ((splitNumber c (rest ++ tail)).1, behind) := by
  have whole := splitExponent_append ((rest ++ tail).dropWhile isNumeric)
  have left : (splitExponent ((rest ++ tail).dropWhile isNumeric)).2 = behind ++ tail := left
  rw [left, ← List.append_assoc] at whole
  obtain ⟨taken, dropped⟩ := dropWhile_of_append whole.symm
  rw [← whole] at left
  have exponent := splitExponent_of_append left
  rw [whole, ← dropped] at exponent
  simp only [splitNumber, taken, exponent]

/-- What is read from a text is read without what it leaves at the end, too. -/
theorem next_of_append {c : Char} {rest : Text} {lexeme : Option Lexeme}
    (step : next c (rest ++ tail) = .ok (lexeme, behind ++ tail)) :
    next c rest = .ok (lexeme, behind) := by
  have startsNumber_of (other : startsNumber c (rest ++ tail) = false) :
      startsNumber c rest = false := by
    by_contra starts
    rw [startsNumber_append (Bool.eq_true_of_not_eq_false starts)] at other
    cases other
  refine next_eq_ok_iff.mpr ?_
  generalize same : behind ++ tail = left at step
  cases next_eq_ok_iff.mp step with
  | blank blank =>
    rw [List.append_cancel_right same]
    exact .blank blank
  | number seen starts read =>
    have split := splitNumber_of_append same.symm
    have starts : startsNumber c rest = true := by
      cases rest with
      | cons d rest => exact starts
      | nil =>
        rcases Bool.or_eq_true_iff.mp starts with digit | point
        · simp [startsNumber, digit]
        -- A point alone is no number.
        · obtain ⟨point, -⟩ := Bool.and_eq_true_iff.mp point
          rw [beq_iff_eq.mp point] at split read
          have nothing : Decimal.read? (splitNumber '.' []).1 = none := by decide
          rw [← congrArg Prod.fst split, nothing] at read
          cases read
    have reading : Reading c rest _ _ := .number seen starts (by rw [split, read])
    rwa [split] at reading
  | name seen other start =>
    obtain ⟨taken, dropped⟩ := dropWhile_of_append same.symm
    rw [← taken, ← dropped]
    exact .name seen (startsNumber_of other) start
  | pair seen other plain found =>
    cases rest with
    | nil =>
      cases tail with
      | nil => cases found
      | cons d tail =>
        have shorter := congrArg List.length same
        simp at shorter
        omega
    | cons d rest =>
      rw [List.append_cancel_right (show behind ++ tail = rest ++ tail from same)]
      exact .pair seen (startsNumber_of other) plain found
  | single seen other plain alone found =>
    rw [List.append_cancel_right same]
    refine .single seen (startsNumber_of other) plain ?_ found
    cases rest with
    | nil => rfl
    | cons d rest => exact alone

end Truncation

theorem reads_of_next {c : Char} {rest behind : Text} {lexeme : Lexeme}
    (step : next c rest = .ok (some lexeme, behind)) :
    ∃ lead, c :: rest = lead ++ behind ∧ lexeme.Reads lead := by
  cases lexeme with
  | number value =>
    obtain ⟨-, number, rfl⟩ := isNumber_of_next step
    exact ⟨_, (splitNumber_append c rest).symm, .number number⟩
  | identifier name =>
    obtain ⟨-, -, rfl, rfl⟩ := identifier_of_next step
    exact ⟨_, List.takeWhile_append_dropWhile.symm, .name (isName_of_next step)⟩
  | symbol sign => exact ⟨sign.text, (symbol_of_next step).1, .symbol sign⟩

theorem length_read {c : Char} {rest lead behind : Text} (whole : c :: rest = lead ++ behind) :
    rest.length + 1 - behind.length = lead.length := by
  have lengths := congrArg List.length whole
  rw [List.length_cons, List.length_append] at lengths
  omega

theorem consumed_of_next {c : Char} {rest behind : Text} {lexeme : Option Lexeme}
    (step : next c rest = .ok (lexeme, behind)) : ∃ lead, rest = lead ++ behind := by
  cases lexeme with
  | none => exact ⟨[], (blank_of_next step).2.symm⟩
  | some lexeme =>
    obtain ⟨lead, whole, reads⟩ := reads_of_next step
    cases lead with
    | nil => exact absurd rfl reads.ne_nil
    | cons d lead => exact ⟨lead, (List.cons.inj whole).2⟩

end Lexer

structure Span where
  token : Token
  literal : Text

namespace Span

variable {span : Span} {position : Nat} {text : Text}

def ends (span : Span) : Nat :=
  span.token.position + span.literal.length

def Covers (span : Span) (place : Nat) : Prop :=
  span.token.position ≤ place ∧ place < span.ends

/-- A token is read from a text that stands in its place, where the whole text begins at a
position. -/
structure StandsIn (position : Nat) (text : Text) (span : Span) : Prop where
  reads : span.token.lexeme.Reads span.literal
  place : ∃ before behind, text = before ++ (span.literal ++ behind) ∧
    span.token.position = position + before.length

theorem StandsIn.behind (lead : Text) (stands : span.StandsIn (position + lead.length) text) :
    span.StandsIn position (lead ++ text) := by
  obtain ⟨reads, before, behind, rfl, place⟩ := stands
  refine ⟨reads, lead ++ before, behind, (List.append_assoc ..).symm, ?_⟩
  rw [place, List.length_append, Nat.add_assoc]

theorem StandsIn.bounds (stands : span.StandsIn position text) :
    position ≤ span.token.position ∧ span.token.position < span.ends ∧
      span.ends ≤ position + text.length := by
  obtain ⟨reads, before, behind, rfl, place⟩ := stands
  have some := List.length_pos_iff.mpr reads.ne_nil
  simp only [ends, place, List.length_append]
  omega

end Span

/-- Tokens cut up a text that begins at a position: they are read in their places, one behind the
other up to the end of the text, none reaches into the next one, and what is between them is
blank. -/
structure Tiles (position : Nat) (text : Text) (tokens : List Token) (spans : List Span) :
    Prop where
  cut : spans.map Span.token = tokens
  stand : ∀ span ∈ spans, span.StandsIn position text
  increasing : (tokens.map Token.position ++ [position + text.length]).Pairwise (· < ·)
  disjoint : spans.Pairwise fun first second => first.ends ≤ second.token.position
  blank : ∀ place c, text[place]? = some c → (∀ span ∈ spans, ¬ span.Covers (position + place)) →
    Text.isBlank c = true

namespace Tiles

variable {position : Nat} {lead text : Text} {tokens : List Token} {spans : List Span}

theorem nil (position : Nat) : Tiles position [] [] [] where
  cut := rfl
  stand := nofun
  increasing := List.pairwise_singleton ..
  disjoint := .nil
  blank := nofun

theorem blank_cons {c : Char} (isBlank : Text.isBlank c = true)
    (tiles : Tiles (position + 1) text tokens spans) : Tiles position (c :: text) tokens spans where
  cut := tiles.cut
  stand span member := (tiles.stand span member).behind [c]
  increasing := by
    have increasing := tiles.increasing
    rwa [Nat.add_assoc, Nat.add_comm 1] at increasing
  disjoint := tiles.disjoint
  blank place d found uncovered := by
    cases place with
    | zero =>
      cases found
      exact isBlank
    | succ place =>
      refine tiles.blank place d found fun span member covers => uncovered span member ?_
      rwa [Nat.add_assoc, Nat.add_comm 1] at covers

theorem le_of_mem (tiles : Tiles position text tokens spans) :
    ∀ token ∈ tokens, position ≤ token.position := by
  rw [← tiles.cut]
  exact List.forall_mem_map.mpr fun span member => (tiles.stand span member).bounds.1

theorem cons {lexeme : Lexeme} (reads : lexeme.Reads lead)
    (tiles : Tiles (position + lead.length) text tokens spans) :
    Tiles position (lead ++ text) (⟨lexeme, position⟩ :: tokens)
      (⟨⟨lexeme, position⟩, lead⟩ :: spans) := by
  have some := List.length_pos_iff.mpr reads.ne_nil
  refine ⟨?_, ?_, ?_, ?_, ?_⟩
  · rw [List.map_cons, tiles.cut]
  · refine List.forall_mem_cons.mpr ⟨⟨reads, [], text, rfl, rfl⟩, fun span member => ?_⟩
    exact (tiles.stand span member).behind lead
  · have increasing := tiles.increasing
    rw [Nat.add_assoc, ← List.length_append] at increasing
    refine List.pairwise_cons.mpr ⟨fun place later => ?_, increasing⟩
    rcases List.mem_append.mp later with among | last
    · obtain ⟨token, member, rfl⟩ := List.mem_map.mp among
      exact Nat.lt_of_lt_of_le (Nat.lt_add_of_pos_right some) (tiles.le_of_mem token member)
    · rw [List.mem_singleton.mp last, List.length_append]
      simp only
      omega
  · exact List.pairwise_cons.mpr
      ⟨fun span member => (tiles.stand span member).bounds.1, tiles.disjoint⟩
  · intro place c found uncovered
    obtain ⟨here, later⟩ := List.forall_mem_cons.mp uncovered
    have behind : lead.length ≤ place := by
      by_contra within
      exact here ⟨Nat.le_add_right .., Nat.add_lt_add_left (Nat.lt_of_not_le within) _⟩
    rw [List.getElem?_append_right behind] at found
    refine tiles.blank (place - lead.length) c found fun span member covers => later span member ?_
    rwa [Nat.add_assoc, Nat.add_sub_cancel' behind] at covers

theorem of_tokensFrom (cut : Lexer.tokensFrom position text = .ok tokens) :
    ∃ spans, Tiles position text tokens spans := by
  fun_induction Lexer.tokensFrom position text generalizing tokens with
  | case1 position =>
    cases cut
    exact ⟨[], .nil position⟩
  | case2 position c rest reason step => cases cut
  | case3 position c rest lexeme behind step ih =>
    obtain ⟨later, found, same⟩ := bind_eq_ok_iff.mp cut
    cases same
    obtain ⟨spans, tiles⟩ := ih found
    cases lexeme with
    | none =>
      obtain ⟨isBlank, rfl⟩ := Lexer.blank_of_next step
      rw [Nat.add_sub_cancel_left] at tiles
      exact ⟨spans, tiles.blank_cons isBlank⟩
    | some lexeme =>
      obtain ⟨lead, whole, reads⟩ := Lexer.reads_of_next step
      rw [Lexer.length_read whole] at tiles
      rw [whole]
      exact ⟨_, tiles.cons reads⟩

end Tiles

namespace Lexer

/-- What is in front of a defect has tokens. -/
theorem exists_before_defect {position : Nat} {text : Text} {defect : Defect}
    (failed : tokensFrom position text = .error defect) :
    ∃ before behind tokens, text = before ++ behind ∧ behind ≠ [] ∧
      defect.position = some (position + before.length) ∧
      tokensFrom position before = .ok tokens := by
  fun_induction tokensFrom position text with
  | case1 position => cases failed
  | case2 position c rest reason step =>
    cases failed
    exact ⟨[], c :: rest, [], rfl, List.cons_ne_nil c rest, rfl, by rw [tokensFrom]⟩
  | case3 position c rest lexeme left step ih =>
    have failed : tokensFrom (position + (rest.length + 1 - left.length)) left = .error defect := by
      rcases bind_eq_error_iff.mp failed with failed | ⟨tokens, -, failed⟩
      · exact failed
      · cases failed
    obtain ⟨lead, rfl⟩ := consumed_of_next step
    obtain ⟨before, behind, tokens, rfl, some, place, reads⟩ := ih failed
    rw [← List.append_assoc] at step
    have consumed : (lead ++ before ++ behind).length + 1 - (before ++ behind).length =
        (lead ++ before).length + 1 - before.length := by
      simp only [List.length_append]
      omega
    rw [← List.append_assoc, consumed] at place reads
    refine ⟨c :: (lead ++ before), behind, (lexeme.map (⟨·, position⟩)).toList ++ tokens, ?_, some,
      ?_, ?_⟩
    · rw [List.cons_append, List.append_assoc]
    · rw [place]
      simp only [List.length_cons, List.length_append]
      congr 1
      omega
    · rw [tokensFrom_of_next (next_of_append step), reads]
      rfl

end Lexer

/-- Every text is cut up into tokens, or has a defect within it and tokens in front of that. -/
theorem Lexer.tokens_tile (expression : Text) :
    Returns (fun tokens => ∃ spans, Tiles 0 expression tokens spans)
      (fun defect => ∃ place < expression.length, defect.position = some place ∧
        ∃ before, tokens (expression.take place) = .ok before) (tokens expression) := by
  cases cut : tokens expression with
  | ok found => exact Tiles.of_tokensFrom cut
  | error defect =>
    obtain ⟨before, behind, found, rfl, some, place, reads⟩ := exists_before_defect cut
    have shorter := List.length_pos_iff.mpr some
    refine ⟨before.length, ?_, ?_, found, ?_⟩
    · rw [List.length_append]
      omega
    · rw [place, Nat.zero_add]
    · rw [List.take_left]
      exact reads

end IndicatorFormula
