import IndicatorFormula.Proofs.Expression.Vocabulary
import IndicatorFormula.Proofs.Formula.Placeholder
import IndicatorFormula.Proofs.Substitution.Filling

/-! Cutting formulas into segments.

Where the text with placeholders has a value, its lexemes end where pieces of the formula do: a
number that ended within a placeholder would be followed by another number. So each lexeme is that
of a segment. -/

set_option autoImplicit false
namespace IndicatorFormula

namespace Piece

def held (pieces : List Piece) : Text :=
  pieces.flatMap (filled fun _ => placeholder)

def Legible : Bool → List Piece → Prop
  | _, [] => True
  | _, .plain c :: rest => Legible (Text.isWord c) rest
  | afterWord, .reference found :: rest =>
    found.Legible ∧ (afterWord = true → found.kind = .days) ∧ Legible false rest

variable {afterWord : Bool} {pieces : List Piece}

theorem legible_ofTextFrom (afterWord : Bool) (text : Text) :
    Legible afterWord (ofTextFrom afterWord text) := by
  fun_induction ofTextFrom afterWord text with
  | case1 => trivial
  | case2 afterWord c rest found behind read ih =>
    obtain ⟨legible, fresh, -⟩ := Reference.read?_eq_some_iff.mp read
    exact ⟨legible, fresh, ih⟩
  | case3 afterWord c rest none ih => exact ih

theorem text_ofTextFrom (afterWord : Bool) (text : Text) :
    (ofTextFrom afterWord text).flatMap Piece.text = text := by
  fun_induction ofTextFrom afterWord text with
  | case1 => rfl
  | case2 afterWord c rest found behind read ih =>
    rw [List.flatMap_cons, ih, Reference.eq_of_read? read]
    rfl
  | case3 afterWord c rest none ih =>
    rw [List.flatMap_cons, ih]
    rfl

theorem Legible.append {first second : List Piece} (legible : Legible afterWord (first ++ second)) :
    ∃ after, Legible after second := by
  induction first generalizing afterWord with
  | nil => exact ⟨afterWord, legible⟩
  | cons piece first ih =>
    cases piece with
    | plain c => exact ih legible
    | reference found => exact ih legible.2.2

theorem Legible.behind {lead : Text} {found : Reference} {rest : List Piece}
    (legible : Legible afterWord (lead.map .plain ++ .reference found :: rest)) :
    found.Legible ∧ (lead.endsWord afterWord = true → found.kind = .days) := by
  induction lead generalizing afterWord with
  | nil => exact ⟨legible.1, legible.2.1⟩
  | cons c lead ih => exact ih legible

theorem eq_of_ofText {text : Text} (cut : ofText text = pieces) :
    text = pieces.flatMap Piece.text := by
  rw [← cut]
  exact (text_ofTextFrom false text).symm

theorem exists_of_mem_ofText {text : Text} {found : Reference}
    (member : .reference found ∈ ofText text) :
    found.Legible ∧ ∃ lead behind : Text, text = lead ++ (found.text ++ behind) := by
  obtain ⟨before, behind, cut⟩ := List.append_of_mem member
  obtain ⟨_, legible, -⟩ := (cut ▸ legible_ofTextFrom false text : Legible false
    (before ++ .reference found :: behind)).append
  refine ⟨legible, before.flatMap Piece.text, behind.flatMap Piece.text, ?_⟩
  rw [eq_of_ofText cut, List.flatMap_append]
  rfl

theorem mem_references_iff {reference : Reference} :
    reference ∈ references pieces ↔ .reference reference ∈ pieces := by
  rw [references, List.mem_filterMap]
  constructor
  · rintro ⟨piece, member, same⟩
    cases piece with
    | plain c => cases same
    | reference found =>
      cases same
      exact member
  · exact fun member => ⟨_, member, rfl⟩

theorem held_append (first second : List Piece) :
    held (first ++ second) = held first ++ held second :=
  List.flatMap_append

theorem held_plain_cons (c : Char) (pieces : List Piece) :
    held (.plain c :: pieces) = c :: held pieces :=
  rfl

theorem held_reference_cons (found : Reference) (pieces : List Piece) :
    held (.reference found :: pieces) = placeholder ++ held pieces :=
  rfl

theorem held_plain (text : Text) : held (text.map .plain) = text := by
  simp [held, List.flatMap_map, filled]

theorem plain_of_held {text behind : Text} (same : held pieces = text ++ behind)
    (other : '1' ∉ text) : ∃ rest, pieces = text.map .plain ++ rest ∧ held rest = behind := by
  induction text generalizing pieces with
  | nil => exact ⟨pieces, rfl, same⟩
  | cons c text ih =>
    cases pieces with
    | nil => cases same
    | cons piece pieces =>
      cases piece with
      | plain d =>
        obtain ⟨rfl, later⟩ := List.cons.inj same
        obtain ⟨rest, shape, behind⟩ := ih later fun member => other (List.mem_cons_of_mem _ member)
        exact ⟨rest, by rw [shape]; rfl, behind⟩
      | reference found =>
        obtain ⟨rfl, -⟩ := List.cons.inj same
        exact absurd List.mem_cons_self other

/-- A run of characters that takes in a placeholder's first one but no point ends with a piece or
within a placeholder. -/
theorem run_of_held {holds : Char → Bool} (digit : holds '1' = true) (point : holds '.' = false)
    (pieces : List Piece) :
    (∃ rest, pieces = ((held pieces).takeWhile holds).map .plain ++ rest ∧
        held rest = (held pieces).dropWhile holds) ∨
      ∃ behind, (held pieces).dropWhile holds = '.' :: '1' :: behind := by
  induction pieces with
  | nil => exact .inl ⟨[], rfl, rfl⟩
  | cons piece pieces ih =>
    cases piece with
    | plain c =>
      rw [held_plain_cons]
      -- The run stops here, or it takes in the character and goes on.
      by_cases goesOn : holds c = true
      · rw [List.takeWhile_cons_of_pos goesOn, List.dropWhile_cons_of_pos goesOn]
        refine ih.imp ?_ id
        rintro ⟨rest, same, dropped⟩
        exact ⟨rest, by rw [List.map_cons, List.cons_append, ← same], dropped⟩
      · rw [List.takeWhile_cons_of_neg goesOn, List.dropWhile_cons_of_neg goesOn]
        exact .inl ⟨_, rfl, rfl⟩
    | reference found =>
      refine .inr ⟨held pieces, ?_⟩
      rw [held_reference_cons, placeholder, List.cons_append, List.cons_append,
        List.dropWhile_cons_of_pos digit, List.dropWhile_cons_of_neg (by simp [point])]
      rfl

theorem numeric_of_held (pieces : List Piece) :
    ∃ numeric rest, pieces = numeric ++ rest ∧
      held numeric = (held pieces).takeWhile Lexer.isNumeric ∧
      held rest = (held pieces).dropWhile Lexer.isNumeric := by
  induction pieces with
  | nil => exact ⟨[], [], rfl, rfl, rfl⟩
  | cons piece pieces ih =>
    obtain ⟨numeric, rest, shape, taken, dropped⟩ := ih
    cases piece with
    | plain c =>
      rw [held_plain_cons]
      by_cases goesOn : Lexer.isNumeric c = true
      · rw [List.takeWhile_cons_of_pos goesOn, List.dropWhile_cons_of_pos goesOn, ← taken,
          ← dropped]
        exact ⟨.plain c :: numeric, rest, by rw [shape]; rfl, rfl, rfl⟩
      · rw [List.takeWhile_cons_of_neg goesOn, List.dropWhile_cons_of_neg goesOn]
        exact ⟨[], _, rfl, rfl, rfl⟩
    | reference found =>
      have each : ∀ c ∈ placeholder, Lexer.isNumeric c = true := by decide
      rw [held_reference_cons, List.takeWhile_append_of_pos each, List.dropWhile_append_of_pos each,
        ← taken, ← dropped]
      exact ⟨.reference found :: numeric, rest, by rw [shape]; rfl, rfl, rfl⟩

theorem plain_of_count {pieces : List Piece} (none : '.' ∉ held pieces) :
    pieces = (held pieces).map .plain := by
  induction pieces with
  | nil => rfl
  | cons piece pieces ih =>
    cases piece with
    | plain c =>
      rw [held_plain_cons] at none ⊢
      rw [List.map_cons, ← ih fun member => none (List.mem_cons_of_mem _ member)]
    | reference found =>
      rw [held_reference_cons] at none
      exact absurd (List.mem_append_left _ (by decide)) none

theorem single_of_count {pieces : List Piece} (few : (held pieces).count '.' ≤ 1) :
    pieces = (held pieces).map .plain ∨
      ∃ (lead : Text) (found : Reference) (tail : Text), pieces =
          lead.map .plain ++ .reference found :: tail.map .plain ∧ '.' ∉ lead ∧ '.' ∉ tail := by
  induction pieces with
  | nil => exact .inl rfl
  | cons piece pieces ih =>
    cases piece with
    | plain c =>
      rw [held_plain_cons] at few ⊢
      -- A point of the text itself leaves none for a placeholder.
      by_cases point : c = '.'
      · rw [point, List.count_cons_self] at few
        left
        rw [List.map_cons, ← plain_of_count (List.count_eq_zero.mp (by omega))]
      · rw [List.count_cons_of_ne point] at few
        rcases ih few with plain | ⟨lead, found, tail, rfl, noPoint, noPoint'⟩
        · left
          rw [List.map_cons, ← plain]
        · refine .inr ⟨c :: lead, found, tail, rfl, ?_, noPoint'⟩
          rw [List.mem_cons]
          exact not_or.mpr ⟨Ne.symm point, noPoint⟩
    | reference found =>
      have one : placeholder.count '.' = 1 := by decide
      rw [held_reference_cons, List.count_append, one] at few
      have none : '.' ∉ held pieces := List.count_eq_zero.mp (by omega)
      exact .inr
        ⟨[], found, held pieces, by rw [← plain_of_count none]; rfl, List.not_mem_nil, none⟩

end Piece

namespace Lexer

theorem text_of_ofPair? {c d : Char} {sign : Symbol} (found : Symbol.ofPair? c d = some sign) :
    sign.text = [c, d] := by
  unfold Symbol.ofPair? at found
  split at found <;> cases found <;> rfl

theorem text_of_ofChar? {c : Char} {sign : Symbol} (found : Symbol.ofChar? c = some sign) :
    sign.text = [c] := by
  unfold Symbol.ofChar? at found
  split at found <;> cases found <;> rfl

theorem symbol_of_next {c : Char} {rest behind : Text} {sign : Symbol}
    (step : next c rest = .ok (some (.symbol sign), behind)) :
    c :: rest = sign.text ++ behind ∧ Alone sign behind := by
  cases next_eq_ok_iff.mp step with
  | pair _ _ _ found =>
    obtain ⟨d, follows, pair⟩ := Option.bind_eq_some_iff.mp found
    have text := text_of_ofPair? pair
    cases rest with
    | nil => cases follows
    | cons d' rest =>
      cases follows
      refine ⟨by rw [text]; rfl, fun e single => ?_⟩
      rw [text] at single
      cases single
  | single _ _ _ alone found =>
    have text := text_of_ofChar? found
    refine ⟨by rw [text]; rfl, fun e single d follows => ?_⟩
    rw [text] at single
    cases single
    exact Option.bind_eq_none_iff.mp alone d follows

theorem identifier_of_next {c : Char} {rest behind name : Text}
    (step : next c rest = .ok (some (.identifier name), behind)) :
    Text.isDigit c = false ∧ Text.isWord c = true ∧ name = (c :: rest).takeWhile Text.isWord ∧
      behind = (c :: rest).dropWhile Text.isWord := by
  cases next_eq_ok_iff.mp step with
  | name _ other start =>
    have word := isWord_of_isWordStart start
    rw [List.takeWhile_cons_of_pos word, List.dropWhile_cons_of_pos word]
    rw [startsNumber, Bool.or_eq_false_iff] at other
    exact ⟨other.1, word, rfl, rfl⟩

theorem isName_of_next {c : Char} {rest behind name : Text}
    (step : next c rest = .ok (some (.identifier name), behind)) : IsName name := by
  cases next_eq_ok_iff.mp step with
  | name _ other start =>
    rw [startsNumber, Bool.or_eq_false_iff] at other
    exact .intro start other.1 fun d member => List.mem_takeWhile_imp member

theorem blank_of_next {c : Char} {rest behind : Text} (step : next c rest = .ok (none, behind)) :
    Text.isBlank c = true ∧ behind = rest := by
  cases next_eq_ok_iff.mp step with
  | blank blank => exact ⟨blank, rfl⟩

theorem Lexes.point {rest : Text} {lexemes : List Lexeme}
    (lexes : Lexes ('.' :: '1' :: rest) lexemes) :
    ∃ value later, lexemes = .number value :: later := by
  cases lexes with
  | @cons _ _ behind lexeme later step more =>
    have starts : startsNumber '.' ('1' :: rest) = true := rfl
    cases next_eq_ok_iff.mp step with
    | number => exact ⟨_, later, rfl⟩
    | blank blank => exact absurd blank (by decide)
    | name _ other | pair _ other | single _ other =>
      exact absurd starts (Bool.eq_false_iff.mp other)

end Lexer

namespace Piece

variable {pieces : List Piece}

theorem run_of_lexes {holds : Char → Bool} (digit : holds '1' = true) (point : holds '.' = false)
    {lexemes : List Lexeme} (lexes : Lexer.Lexes ((held pieces).dropWhile holds) lexemes)
    (parted : ∀ other ∈ lexemes.head?, other.isWord = false) :
    ∃ rest, pieces = ((held pieces).takeWhile holds).map .plain ++ rest ∧
      held rest = (held pieces).dropWhile holds := by
  rcases run_of_held digit point pieces with run | ⟨behind, within⟩
  · exact run
  · rw [within] at lexes
    obtain ⟨value, later, rfl⟩ := lexes.point
    have impossible := parted _ rfl
    cases impossible

theorem exponent_of_lexes {lexemes : List Lexeme}
    (stops : ∀ c ∈ (held pieces).head?, Lexer.isNumeric c = false)
    (lexes : Lexer.Lexes (Lexer.splitExponent (held pieces)).2 lexemes)
    (parted : ∀ other ∈ lexemes.head?, other.isWord = false) :
    ∃ rest, pieces = (Lexer.splitExponent (held pieces)).1.map .plain ++ rest ∧
      held rest = (Lexer.splitExponent (held pieces)).2 := by
  cases pieces with
  | nil => exact ⟨[], rfl, rfl⟩
  | cons piece pieces =>
    cases piece with
    | reference found => exact absurd (stops '1' rfl) (by decide)
    | plain mark =>
      rw [held_plain_cons] at lexes ⊢
      simp only [Lexer.splitExponent] at lexes ⊢
      split
      · rename_i exponent
        rw [if_pos exponent] at lexes
        -- Neither a mark nor a sign is part of a placeholder.
        have signed : ∃ behind, pieces = (Lexer.splitSign (held pieces)).1.map .plain ++ behind ∧
            held behind = (Lexer.splitSign (held pieces)).2 := by
          refine plain_of_held (Lexer.splitSign_append _).symm ?_
          unfold Lexer.splitSign
          split <;> simp
        obtain ⟨behind, shape, digits⟩ := signed
        rw [← digits] at lexes ⊢
        obtain ⟨rest, shape', dropped⟩ := run_of_lexes (by decide) (by decide) lexes parted
        refine ⟨rest, ?_, dropped⟩
        rw [List.map_append, List.map_cons, List.cons_append, List.cons_append, List.append_assoc,
          ← shape', ← shape]
      · exact ⟨_, rfl, held_plain_cons mark pieces⟩

theorem numeral_of_lexes {c : Char} {text : Text} {lexemes : List Lexeme}
    (same : held pieces = c :: text) (starts : Lexer.startsNumber c text = true)
    (lexes : Lexer.Lexes (Lexer.splitNumber c text).2 lexemes)
    (parted : ∀ other ∈ lexemes.head?, other.isWord = false) :
    ∃ numeric exponent rest, pieces = numeric ++ (exponent.map .plain ++ rest) ∧
      (Lexer.splitNumber c text).1 = held numeric ++ exponent ∧
      (∀ d ∈ held numeric, Lexer.isNumeric d = true) ∧ Lexer.IsExponent exponent ∧
      held rest = (Lexer.splitNumber c text).2 := by
  have leads : Lexer.isNumeric c = true := Lexer.isNumeric_of_startsNumber starts
  obtain ⟨numeric, behind, shape, taken, dropped⟩ := numeric_of_held pieces
  have each : ∀ d ∈ held numeric, Lexer.isNumeric d = true := fun d member =>
    List.mem_takeWhile_imp (taken ▸ member)
  have stops : ∀ d ∈ (held behind).head?, Lexer.isNumeric d = false := by
    rw [dropped]
    intro d found
    have head := List.head?_dropWhile_not Lexer.isNumeric (held pieces)
    rw [Option.mem_def.mp found] at head
    simpa using head
  rw [same, List.takeWhile_cons_of_pos leads] at taken
  rw [same, List.dropWhile_cons_of_pos leads] at dropped
  have split : Lexer.splitNumber c text =
      (held numeric ++ (Lexer.splitExponent (held behind)).1,
        (Lexer.splitExponent (held behind)).2) := by
    rw [taken, dropped]
    rfl
  rw [split] at lexes ⊢
  obtain ⟨rest, shape', held⟩ := exponent_of_lexes stops lexes parted
  exact ⟨numeric, _, rest, by rw [shape, ← shape'], rfl, each, Lexer.isExponent_splitExponent _,
    held⟩

theorem gap_of_lexes {later : List Lexeme}
    (lexes : Lexer.Lexes (held pieces) (.opensCall :: later)) :
    ∃ (gap : Text) (rest : List Piece), pieces = gap.map .plain ++ .plain '(' :: rest ∧
      (∀ c ∈ gap, Text.isBlank c = true) ∧ Lexer.Lexes (held rest) later := by
  induction pieces with
  | nil => cases lexes
  | cons piece pieces ih =>
    generalize same : held (piece :: pieces) = text at lexes
    generalize same' : Lexeme.opensCall :: later = lexemes at lexes
    -- Either a blank is passed over, or it is the bracket that is read.
    cases lexes with
    | nil => cases same'
    | @cons c rest behind lexeme later' step more =>
      cases lexeme with
      | none =>
        obtain ⟨blank, rfl⟩ := Lexer.blank_of_next step
        cases piece with
        | reference found =>
          obtain ⟨rfl, -⟩ := List.cons.inj same
          exact absurd blank (by decide)
        | plain d =>
          obtain ⟨rfl, rfl⟩ := List.cons.inj same
          obtain ⟨gap, rest, shape, blanks, lexes⟩ := ih (same' ▸ more)
          refine ⟨d :: gap, rest, by rw [shape]; rfl, fun e member => ?_, lexes⟩
          rcases List.mem_cons.mp member with rfl | member
          · exact blank
          · exact blanks e member
      | some lexeme =>
        obtain ⟨rfl, rfl⟩ := List.cons.inj same'
        obtain ⟨text, -⟩ := Lexer.symbol_of_next step
        obtain ⟨behind', shape, held⟩ := plain_of_held (same.trans text) (by decide)
        exact ⟨[], behind', shape, nofun, held ▸ more⟩

end Piece

structure Cut (functions : List Builtin) (segment : Segment) (pieces rest : List Piece)
    (lexemes later : List Lexeme) : Prop where
  formed : segment.Formed
  held : segment.held.Formed
  member : ∀ function head, segment = .call function head → function ∈ functions
  pieces : pieces = segment.pieces ++ rest
  lexemes : lexemes = segment.held.lexemes ++ later
  lexes : Lexer.Lexes (Piece.held rest) later
  alone : ∀ sign, segment = .symbol sign → Lexer.Alone sign (Piece.held rest)

variable {functions : List Builtin} {pieces : List Piece} {lexemes : List Lexeme}

theorem cut_identifier {name : Text} {later : List Lexeme} {rest : List Piece}
    (shape : pieces = name.map .plain ++ rest) (lexes : Lexer.Lexes (Piece.held rest) later)
    (meant : IsMeant functions name later.head?) :
    ∃ segment rest later', Cut functions segment pieces rest (.identifier name :: later)
      later' := by
  unfold IsMeant at meant
  split at meant
  · rename_i opens
    obtain ⟨function, member, spelling⟩ := meant
    cases later with
    | nil => cases opens
    | cons lexeme later =>
      cases opens
      obtain ⟨gap, rest, rfl, blanks, lexes⟩ := Piece.gap_of_lexes lexes
      refine ⟨.call function ⟨name, gap⟩, rest, later, .call ⟨spelling, blanks⟩,
        .call ⟨spelling, blanks⟩, ?_, ?_, rfl, lexes, by simp⟩
      · intro other head same
        cases same
        exact member
      · rw [shape]
        simp [Segment.pieces, Segment.text, CallHead.text]
  · rcases meant with rfl | rfl
    · exact ⟨.boolean true, rest, later, .boolean true, .boolean true, by simp, shape, rfl, lexes,
        by simp⟩
    · exact ⟨.boolean false, rest, later, .boolean false, .boolean false, by simp, shape, rfl,
        lexes, by simp⟩

theorem endsWord_of_word {afterWord : Bool} {text : Text} (some : text ≠ [])
    (word : ∀ c ∈ text, Text.isWord c = true) : text.endsWord afterWord = true := by
  rw [← List.dropLast_append_getLast some, Text.endsWord_append]
  exact word _ (List.getLast_mem some)

theorem isDigit_of_numeric {text : Text} (numeric : ∀ c ∈ text, Lexer.isNumeric c = true)
    (plain : '.' ∉ text) : ∀ c ∈ text, Text.isDigit c = true := by
  intro c member
  rcases Bool.or_eq_true_iff.mp (numeric c member) with digit | point
  · exact digit
  · rw [beq_iff_eq.mp point] at member
    exact absurd member plain

theorem cut_number {afterWord : Bool} {literal exponent : Text} {value : Double}
    {later : List Lexeme} {numeric rest : List Piece} (legible : Piece.Legible afterWord pieces)
    (shape : pieces = numeric ++ (exponent.map .plain ++ rest))
    (whole : literal = Piece.held numeric ++ exponent) (number : Lexer.IsNumber literal value)
    (each : ∀ c ∈ Piece.held numeric, Lexer.isNumeric c = true)
    (isExponent : Lexer.IsExponent exponent) (lexes : Lexer.Lexes (Piece.held rest) later) :
    ∃ segment rest later', Cut functions segment pieces rest (.number value :: later) later' := by
  -- A literal has one point at most, and every placeholder has one.
  have few : (Piece.held numeric).count '.' ≤ 1 := by
    cases number with
    | intro starts _ read =>
      have count := Decimal.count_point_le read
      rw [whole, List.count_append] at count
      omega
  rcases Piece.single_of_count few with plain | ⟨lead, found, tail, rfl, noPoint, noPoint'⟩
  · refine ⟨.number literal value, rest, later, .number number, .number number, nofun, ?_, rfl,
      lexes, nofun⟩
    change _ = literal.map .plain ++ rest
    rw [shape, whole, List.map_append, ← plain, List.append_assoc]
  · have text : Piece.held (lead.map .plain ++ .reference found :: tail.map .plain) =
        lead ++ (placeholder ++ tail) := by
      rw [Piece.held_append, Piece.held_reference_cons, Piece.held_plain, Piece.held_plain]
    rw [text] at each whole
    have literal' : literal = lead ++ placeholder ++ (tail ++ exponent) := by simp [whole]
    have digits : ∀ c ∈ lead, Text.isDigit c = true :=
      isDigit_of_numeric (fun c member => each c (List.mem_append_left _ member)) noPoint
    have numeric' : ∀ c ∈ tail, Lexer.isNumeric c = true := fun c member =>
      each c (List.mem_append_right _ (List.mem_append_right _ member))
    rw [shape, List.append_assoc, List.cons_append] at legible
    obtain ⟨readable, fresh⟩ := legible.behind
    -- A reference right behind digits can only be the number of days.
    have formed : Segment.Formed (.reference lead found (tail ++ exponent)) :=
      .reference readable digits (fun some => fresh (endsWord_of_word some fun c member =>
        Lexer.isWord_of_isDigit (digits c member))) ⟨tail, exponent, rfl, numeric', isExponent⟩
    have same := number.value
    rw [literal'] at same number
    refine ⟨.reference lead found (tail ++ exponent), rest, later, formed, ?_, nofun, ?_, ?_, lexes,
      nofun⟩
    · rw [Segment.held, ← same]
      exact .number number
    · rw [shape]
      simp [Segment.pieces]
    · rw [Segment.held, ← same]
      rfl

section Step

variable {c : Char} {text behind : Text} {later : List Lexeme}
  (same : Piece.held pieces = c :: text)
include same

theorem cut_blank (step : Lexer.next c text = .ok (none, behind))
    (more : Lexer.Lexes behind later) :
    ∃ segment rest later', Cut functions segment pieces rest later later' := by
  obtain ⟨blank, rfl⟩ := Lexer.blank_of_next step
  have other : '1' ∉ [c] := by
    rw [List.mem_singleton]
    rintro rfl
    exact absurd blank (by decide)
  obtain ⟨rest, shape, held⟩ := Piece.plain_of_held (show _ = [c] ++ behind from same) other
  exact ⟨.blank c, rest, later, .blank blank, .blank blank, nofun, shape, rfl, held ▸ more, nofun⟩

theorem cut_symbol {sign : Symbol} (step : Lexer.next c text = .ok (some (.symbol sign), behind))
    (more : Lexer.Lexes behind later) :
    ∃ segment rest later', Cut functions segment pieces rest (.symbol sign :: later) later' := by
  obtain ⟨whole, alone⟩ := Lexer.symbol_of_next step
  have other : '1' ∉ sign.text := fun member => absurd (Lexer.isMark_of_mem_text member) (by decide)
  obtain ⟨rest, shape, held⟩ := Piece.plain_of_held (same.trans whole) other
  refine ⟨.symbol sign, rest, later, .symbol sign, .symbol sign, nofun, shape, rfl, held ▸ more, ?_⟩
  rintro other ⟨⟩
  exact held ▸ alone

theorem cut_word {name : Text} (step : Lexer.next c text = .ok (some (.identifier name), behind))
    (more : Lexer.Lexes behind later)
    (allows : Lexeme.Allows functions (.identifier name) later.head?) :
    ∃ segment rest later', Cut functions segment pieces rest (.identifier name :: later)
      later' := by
  obtain ⟨letter, word, taken, dropped⟩ := Lexer.identifier_of_next step
  rw [dropped, ← same] at more
  obtain ⟨rest, shape, held⟩ := Piece.run_of_lexes (by decide) (by decide) more (allows.parted rfl)
  rw [same, ← taken] at shape
  exact cut_identifier shape (held ▸ more) (allows.meant name rfl)

theorem cut_numeral {afterWord : Bool} {value : Double} (legible : Piece.Legible afterWord pieces)
    (step : Lexer.next c text = .ok (some (.number value), behind))
    (more : Lexer.Lexes behind later)
    (allows : Lexeme.Allows functions (.number value) later.head?) :
    ∃ segment rest later', Cut functions segment pieces rest (.number value :: later) later' := by
  obtain ⟨starts, number, rfl⟩ := Lexer.isNumber_of_next step
  obtain ⟨numeric, exponent, rest, shape, whole, each, isExponent, held⟩ :=
    Piece.numeral_of_lexes same starts more (allows.parted rfl)
  exact cut_number legible shape whole number each isExponent (held ▸ more)

end Step

/-- A segment is cut off each formula whose text with placeholders has orderly lexemes. -/
theorem cut_of_lexes {afterWord : Bool} (legible : Piece.Legible afterWord pieces)
    (some : pieces ≠ []) (lexes : Lexer.Lexes (Piece.held pieces) lexemes)
    (orderly : Orderly functions lexemes) :
    ∃ segment rest later, Cut functions segment pieces rest lexemes later := by
  generalize same : Piece.held pieces = text at lexes
  cases lexes with
  | nil =>
    cases pieces with
    | nil => exact absurd rfl some
    | cons piece pieces => cases piece <;> cases same
  | @cons c rest behind lexeme later step more =>
    cases lexeme with
    -- A lexeme of each kind is cut off where the lexer ended it, which is never within a
    -- placeholder.
    | none => exact cut_blank same step more
    | some lexeme =>
      cases lexeme with
      | symbol sign => exact cut_symbol same step more
      | identifier name => exact cut_word same step more orderly.1
      | number value => exact cut_numeral same legible step more orderly.1

theorem Orderly.append {first second : List Lexeme}
    (orderly : Orderly functions (first ++ second)) : Orderly functions second := by
  induction first with
  | nil => exact orderly
  | cons lexeme first ih => exact ih orderly.2

namespace Segment

variable {segment next : Segment} {segments : List Segment}

theorem lexemes_of_closes (closes : segment.closes = true) :
    ∃ lexeme, segment.held.lexemes = [lexeme] ∧ lexeme.closes = true := by
  cases segment with
  | boolean | number | reference => exact ⟨_, rfl, rfl⟩
  | symbol sign =>
    cases sign with
    | closing bracket => exact ⟨_, rfl, rfl⟩
    | _ => cases closes
  | _ => cases closes

theorem lexemes_of_isOperand (operand : segment.isOperand = true) :
    ∃ lexeme rest, segment.held.lexemes = lexeme :: rest ∧ lexeme.isWord = true := by
  cases segment with
  | boolean | number | reference | call => exact ⟨_, _, rfl, rfl⟩
  | _ => cases operand

theorem pieces_ne_nil (formed : segment.Formed) : segment.pieces ≠ [] := by
  obtain ⟨c, rest, shape, -⟩ := formed.head
  cases segment with
  | reference lead found tail => simp [pieces]
  | _ => simp [pieces, shape]

theorem apart_of_cut {pieces rest : List Piece} {later : List Lexeme}
    (cut : Cut functions segment pieces rest lexemes later) (orderly : Orderly functions lexemes)
    {segments : List Segment} (shape : rest = (next :: segments).flatMap Segment.pieces)
    (same : later = ((next :: segments).map held).flatMap Segment.lexemes) :
    Apart segment next := by
  constructor
  · intro closes
    -- Two operands in a row are two lexemes in a row that no tree has.
    by_contra operand
    obtain ⟨lexeme, only, closes⟩ := lexemes_of_closes closes
    obtain ⟨other, more, head, word⟩ := lexemes_of_isOperand (Bool.eq_true_of_not_eq_false operand)
    have whole := cut.lexemes
    rw [only, same, List.map_cons, List.flatMap_cons, head] at whole
    rw [whole] at orderly
    have parted := orderly.1.parted closes other rfl
    rw [word] at parted
    cases parted
  · rintro sign other rfl rfl
    have alone := cut.alone sign rfl
    have text : Piece.held rest = other.text ++ Piece.held (segments.flatMap Segment.pieces) := by
      have own : ((Segment.symbol other).pieces : List Piece) = other.text.map .plain := rfl
      rw [shape, List.flatMap_cons, Piece.held_append, own, Piece.held_plain]
    intro c single d found
    refine alone c single d ?_
    rw [text, List.head?_append_of_ne_nil _ (symbol_text_ne_nil other)]
    exact found

end Segment

/-- A formula whose text with placeholders has orderly lexemes consists of segments. -/
theorem segments_of_pieces {afterWord : Bool} (legible : Piece.Legible afterWord pieces)
    (lexes : Lexer.Lexes (Piece.held pieces) lexemes) (orderly : Orderly functions lexemes) :
    ∃ segments : List Segment, pieces = segments.flatMap Segment.pieces ∧ Segment.Regular segments ∧
      (∀ segment ∈ segments, segment.held.Formed) ∧
      (∀ function head, .call function head ∈ segments → function ∈ functions) ∧
      lexemes = (segments.map Segment.held).flatMap Segment.lexemes := by
  -- By induction on the number of pieces, since each segment takes one at least.
  induction length : pieces.length using Nat.strongRecOn generalizing afterWord pieces lexemes with
  | ind bound ih =>
    by_cases some : pieces = []
    · subst some
      cases lexes
      exact ⟨[], rfl, ⟨nofun, .nil⟩, nofun, nofun, rfl⟩
    · obtain ⟨segment, rest, later, cut⟩ := cut_of_lexes legible some lexes orderly
      have whole := cut.pieces
      have own := cut.lexemes
      obtain ⟨after, legible⟩ := (whole ▸ legible).append
      have shorter : rest.length < bound := by
        have leads := List.length_pos_iff.mpr (Segment.pieces_ne_nil cut.formed)
        rw [← length, whole, List.length_append]
        omega
      obtain ⟨segments, shape, regular, held, member, same⟩ :=
        ih rest.length shorter legible cut.lexes (own ▸ orderly).append rfl
      refine ⟨segment :: segments, ?_, ⟨?_, ?_⟩, ?_, ?_, ?_⟩
      · rw [List.flatMap_cons, ← shape, whole]
      · exact List.forall_mem_cons.mpr ⟨cut.formed, regular.formed⟩
      · refine List.isChain_cons.mpr ⟨fun next found => ?_, regular.apart⟩
        cases segments with
        | nil => cases found
        | cons next' segments =>
          cases found
          exact Segment.apart_of_cut cut orderly shape same
      · exact List.forall_mem_cons.mpr ⟨cut.held, held⟩
      · intro function head found
        rcases List.mem_cons.mp found with first | found
        · exact cut.member function head first.symm
        · exact member function head found
      · rw [List.map_cons, List.flatMap_cons, ← same, own]

end IndicatorFormula
