import IndicatorFormula.Proofs.Expression.Parsing
import IndicatorFormula.Proofs.Expression.Vocabulary

/-! Lexemes that are written one behind the other.

What is written lexeme by lexeme, with blanks between them or without, is read as these lexemes
unless one goes on in the next. The lexemes of a sentence do not: a word is followed by a symbol,
and the sign for equality by what begins an operand. So it is enough to write down a sentence in
order to have its tree read. -/

set_option autoImplicit false
namespace IndicatorFormula

namespace Lexeme

/-- A text is read as a lexeme where nothing goes on behind it. -/
inductive Reads : Lexeme → Text → Prop where
  | number {literal : Text} {value : Double} (number : Lexer.IsNumber literal value) :
      Reads (.number value) literal
  | name {name : Text} (isName : Lexer.IsName name) : Reads (.identifier name) name
  | symbol (sign : Symbol) : Reads (.symbol sign) sign.text

def begins : Lexeme → Bool
  | .number _ | .identifier _ | .symbol (.opening _) => true
  | .symbol sign => sign.unary?.isSome

structure Touches (first second : Lexeme) : Prop where
  word : first.isWord = true → second.isWord = false
  /-- Behind some other symbols, the sign for equality would be read as part of a pair. -/
  equality : second = .symbol (.operator .eq) → first.closes = true

variable {first second : Lexeme} {sign : Symbol}

theorem touches_symbol (closes : first.closes = true) : first.Touches (.symbol sign) :=
  ⟨fun _ => rfl, fun _ => closes⟩

theorem symbol_touches (begins : second.begins = true) : (Lexeme.symbol sign).Touches second := by
  refine ⟨nofun, ?_⟩
  rintro rfl
  cases begins

theorem Reads.ne_nil {lexeme : Lexeme} {lead : Text} (reads : lexeme.Reads lead) : lead ≠ [] := by
  cases reads with
  | number number => cases number; exact List.cons_ne_nil _ _
  | name isName => cases isName; exact List.cons_ne_nil _ _
  | symbol sign => exact Segment.symbol_text_ne_nil sign

theorem Reads.equality {lexeme : Lexeme} {lead behind : Text} (reads : lexeme.Reads lead)
    (begins : (lead ++ behind).head? = some '=') : lexeme = .symbol (.operator .eq) := by
  cases reads with
  | number number =>
    cases number with
    | intro starts =>
      cases begins
      exact absurd (Lexer.isNumeric_of_startsNumber starts) (by decide)
  | name isName =>
    cases isName with
    | intro start =>
      cases begins
      exact absurd start (by decide)
  | symbol sign =>
    cases sign with
    | opening bracket | closing bracket => cases bracket <;> cases begins
    | comma | not => cases begins
    | operator operator => cases operator <;> first | rfl | cases begins

theorem Reads.ends {lexeme : Lexeme} {lead : Text} (reads : lexeme.Reads lead)
    (other : lexeme.isWord = false) (behind : Text) : Lexer.Ends (lead ++ behind) := by
  cases reads with
  | number | name => cases other
  | symbol sign =>
    obtain ⟨c, rest, shape⟩ := List.exists_cons_of_ne_nil (Segment.symbol_text_ne_nil sign)
    have mark := Lexer.isMark_of_mem_text (show c ∈ sign.text by simp [shape])
    simp only [Lexer.isMark, Bool.and_eq_true, Bool.not_eq_true', bne_iff_ne] at mark
    rw [shape]
    rintro d ⟨⟩
    exact ⟨mark.1.2, mark.2⟩

end Lexeme

inductive Spaced : Text → List Lexeme → Prop where
  | nil {gap : Text} (blank : ∀ c ∈ gap, Text.isBlank c = true) : Spaced gap []
  | cons {gap lead behind : Text} {lexeme : Lexeme} {lexemes : List Lexeme}
      (blank : ∀ c ∈ gap, Text.isBlank c = true) (reads : lexeme.Reads lead)
      (more : Spaced behind lexemes) : Spaced (gap ++ (lead ++ behind)) (lexeme :: lexemes)

namespace Spaced

variable {text more gap : Text} {lexemes others : List Lexeme}

theorem blanks (blank : ∀ c ∈ gap, Text.isBlank c = true) (spaced : Spaced text lexemes) :
    Spaced (gap ++ text) lexemes := by
  cases spaced with
  | nil blank' => exact .nil (List.forall_mem_append.mpr ⟨blank, blank'⟩)
  | cons blank' reads more =>
    rw [← List.append_assoc]
    exact .cons (List.forall_mem_append.mpr ⟨blank, blank'⟩) reads more

theorem lexeme {lexeme : Lexeme} {lead : Text} (reads : lexeme.Reads lead)
    (spaced : Spaced text lexemes) : Spaced (lead ++ text) (lexeme :: lexemes) := by
  have none : ∀ c ∈ ([] : Text), Text.isBlank c = true := by simp
  exact .cons none reads spaced

theorem single {lexeme : Lexeme} (reads : lexeme.Reads text) : Spaced text [lexeme] := by
  have nothing : Spaced [] [] := .nil (fun _ member => absurd member List.not_mem_nil)
  simpa using nothing.lexeme reads

theorem append (spaced : Spaced text lexemes) (spaced' : Spaced more others) :
    Spaced (text ++ more) (lexemes ++ others) := by
  induction spaced with
  | nil blank => exact spaced'.blanks blank
  | cons blank reads _ ih =>
    rw [List.append_assoc, List.append_assoc]
    exact .cons blank reads ih

theorem ends (spaced : Spaced text lexemes)
    (other : ∀ lexeme ∈ lexemes.head?, lexeme.isWord = false) : Lexer.Ends text := by
  have gaps : ∀ {gap behind : Text}, (∀ c ∈ gap, Text.isBlank c = true) → Lexer.Ends behind →
      Lexer.Ends (gap ++ behind) := by
    intro gap behind blank ends
    cases gap with
    | nil => exact ends
    | cons c gap =>
      rintro d ⟨⟩
      have blank := blank c List.mem_cons_self
      exact ⟨Text.isWord_of_isBlank blank, Text.ne_of_isBlank blank (by decide)⟩
  cases spaced with
  | nil blank =>
    rw [← List.append_nil text]
    exact gaps blank Lexer.ends_nil
  | cons blank reads more => exact gaps blank (reads.ends (other _ rfl) _)

theorem alone {sign : Symbol} (spaced : Spaced text lexemes)
    (touches : ∀ lexeme ∈ lexemes.head?, (Lexeme.symbol sign).Touches lexeme) :
    Lexer.Alone sign text := by
  have plain : ∀ c, sign.text = [c] → ∀ d, d ≠ '=' → Symbol.ofPair? c d = none := by
    intro c single d other
    have both : sign.text ≠ ['&'] ∧ sign.text ≠ ['|'] := by
      cases sign with
      | opening bracket | closing bracket => cases bracket <;> exact ⟨nofun, nofun⟩
      | comma | not => exact ⟨nofun, nofun⟩
      | operator operator => cases operator <;> exact ⟨nofun, nofun⟩
    unfold Symbol.ofPair?
    split <;>
      first | rfl | exact absurd rfl other | exact absurd single both.1 | exact absurd single both.2
  -- The sign for equality is the only lexeme that goes on in a symbol, and it stands behind a
  -- bracket at most.
  have closing : text.head? = some '=' → (Lexeme.symbol sign).closes = true := by
    intro begins
    cases spaced with
    | @nil gap blank => exact absurd (blank _ (List.mem_of_head? begins)) (by decide)
    | @cons gap lead behind lexeme lexemes blank reads more =>
      cases gap with
      | cons c gap =>
        cases begins
        exact absurd (blank _ List.mem_cons_self) (by decide)
      | nil => exact (touches lexeme rfl).equality (reads.equality begins)
  intro c single d found
  by_cases equality : d = '='
  · subst equality
    have closes := closing (by simpa using found)
    cases sign with
    | closing bracket =>
      cases bracket <;> cases single <;> rfl
    | _ => cases closes
  · exact plain c single d equality

/-- Lexemes are read where none goes on in the next. -/
theorem lexes (spaced : Spaced text lexemes) (chain : lexemes.IsChain Lexeme.Touches) :
    Lexer.Lexes text lexemes := by
  induction spaced with
  | @nil gap blank =>
    rw [← List.append_nil gap]
    exact Segment.lexes_blanks blank .nil
  | cons blank reads spaced ih =>
    have more := ih chain.tail
    have touches := (List.isChain_cons.mp chain).1
    refine Segment.lexes_blanks blank ?_
    cases reads with
    | number number =>
      exact .number number (spaced.ends fun lexeme next => (touches lexeme next).word rfl) more
    | name isName =>
      exact .name isName (spaced.ends fun lexeme next => (touches lexeme next).word rfl) more
    | symbol sign => exact .symbol (spaced.alone touches) more

end Spaced

structure IsOperand (lexemes : List Lexeme) : Prop where
  chain : lexemes.IsChain Lexeme.Touches
  first : ∃ lexeme rest, lexemes = lexeme :: rest ∧ lexeme.begins = true
  last : ∃ before lexeme, lexemes = before ++ [lexeme] ∧ lexeme.closes = true

namespace IsOperand

variable {lexemes before behind : List Lexeme}

theorem single {lexeme : Lexeme} (begins : lexeme.begins = true) (closes : lexeme.closes = true) :
    IsOperand [lexeme] :=
  ⟨.singleton _, ⟨lexeme, [], rfl, begins⟩, ⟨[], lexeme, rfl, closes⟩⟩

theorem chain_cons (operand : IsOperand lexemes) (sign : Symbol) :
    (.symbol sign :: lexemes).IsChain Lexeme.Touches := by
  refine List.isChain_cons.mpr ⟨fun next follows => ?_, operand.chain⟩
  obtain ⟨first, rest, rfl, begins⟩ := operand.first
  cases follows
  exact Lexeme.symbol_touches begins

theorem chain_append (operand : IsOperand before) {sign : Symbol} {rest : List Lexeme}
    (chain : (.symbol sign :: rest).IsChain Lexeme.Touches) :
    (before ++ .symbol sign :: rest).IsChain Lexeme.Touches := by
  refine List.isChain_append.mpr ⟨operand.chain, chain, fun last ends next follows => ?_⟩
  obtain ⟨lead, last', rfl, closes⟩ := operand.last
  cases follows
  rw [List.getLast?_concat] at ends
  cases ends
  exact Lexeme.touches_symbol closes

theorem join (operand : IsOperand before) (sign : Symbol) (operand' : IsOperand behind) :
    IsOperand (before ++ .symbol sign :: behind) := by
  refine ⟨operand.chain_append (operand'.chain_cons sign), ?_, ?_⟩
  · obtain ⟨first, rest, rfl, begins⟩ := operand.first
    exact ⟨first, _, rfl, begins⟩
  · obtain ⟨lead, last, rfl, closes⟩ := operand'.last
    exact ⟨before ++ .symbol sign :: lead, last, by simp, closes⟩

theorem signed (operand : IsOperand lexemes) (operator : UnaryOperator) :
    IsOperand (.symbol operator.symbol :: lexemes) := by
  refine ⟨operand.chain_cons _, ⟨_, _, rfl, by cases operator <;> rfl⟩, ?_⟩
  obtain ⟨lead, last, rfl, closes⟩ := operand.last
  exact ⟨.symbol operator.symbol :: lead, last, rfl, closes⟩

theorem enclosed (content : lexemes = [] ∨ IsOperand lexemes) (bracket : Bracket) :
    IsOperand (.symbol (.opening bracket) :: lexemes ++ [.symbol (.closing bracket)]) := by
  refine ⟨?_, ⟨_, _, rfl, rfl⟩, ⟨_, _, rfl, rfl⟩⟩
  rcases content with rfl | operand
  · exact .cons_cons ⟨nofun, nofun⟩ (.singleton _)
  · rw [List.cons_append]
    refine List.isChain_cons.mpr ⟨fun next follows => ?_, operand.chain_append (.singleton _)⟩
    obtain ⟨first, rest, rfl, begins⟩ := operand.first
    cases follows
    exact Lexeme.symbol_touches begins

theorem called (operand : IsOperand (.symbol (.opening .round) :: lexemes)) (name : Text) :
    IsOperand (.identifier name :: .symbol (.opening .round) :: lexemes) := by
  refine ⟨List.isChain_cons.mpr ⟨?_, operand.chain⟩, ⟨_, _, rfl, rfl⟩, ?_⟩
  · rintro next ⟨⟩
    exact Lexeme.touches_symbol rfl
  · obtain ⟨lead, last, shape, closes⟩ := operand.last
    exact ⟨.identifier name :: lead, last, by rw [shape]; rfl, closes⟩

end IsOperand

mutual

theorem isOperand_of_derives : {category : Category} → {tokens : List Token} → {tree : Expr} →
    Derives category tokens tree → IsOperand (tokens.map Token.lexeme)
  | _, _, _, .tighter _ derives => isOperand_of_derives derives
  | _, _, _, .binary _ _ derives derives' => by
    rw [List.map_append]
    exact (isOperand_of_derives derives).join _ (isOperand_of_derives derives')
  | _, _, _, .unary operator _ derives => (isOperand_of_derives derives).signed operator
  | _, _, _, .number _ _ | _, _, _, .name _ _ => .single rfl rfl
  | _, _, _, .group _ _ derives => by
    rw [List.map_append]
    exact .enclosed (.inr (isOperand_of_derives derives)) .round
  | _, _, _, .list _ _ derives => by
    rw [List.map_append]
    exact .enclosed (isOperand_of_derivesItems derives).1 .square
  | _, _, _, .call name _ _ _ derives => by
    rw [List.map_append]
    exact (IsOperand.enclosed (isOperand_of_derivesItems derives).1 .round).called name

theorem isOperand_of_derivesItems :
    {tokens : List Token} → {trees : List Expr} → DerivesItems tokens trees →
      (tokens.map Token.lexeme = [] ∨ IsOperand (tokens.map Token.lexeme)) ∧
        (trees ≠ [] → IsOperand (tokens.map Token.lexeme))
  | _, _, .none => ⟨.inl rfl, fun some => absurd rfl some⟩
  | _, _, .single derives =>
    ⟨.inr (isOperand_of_derives derives), fun _ => isOperand_of_derives derives⟩
  | _, _, .further items others _ derives => by
    have row :=
      ((isOperand_of_derivesItems items).2 others).join .comma (isOperand_of_derives derives)
    rw [List.map_append]
    exact ⟨.inr row, fun _ => row⟩

end

/-- A sentence that is written lexeme by lexeme is parsed as its tree. -/
theorem Spaced.parse {text : Text} {lexemes : List Lexeme} {tree : Expr}
    (spaced : Spaced text lexemes) (sentence : Sentence (unplacedTokens lexemes) tree) :
    ∃ placed, Expr.parse text = .ok placed ∧ placed.unplaced = tree := by
  have operand := isOperand_of_derives sentence
  rw [map_lexeme_unplacedTokens] at operand
  exact Expr.parse_of_lexes (spaced.lexes operand.chain) (Parser.tree_eq_ok_iff.mpr sentence)

end IndicatorFormula
