import IndicatorFormula.Expression.Lexer
import IndicatorFormula.Proofs.Number.ReadBack
import IndicatorFormula.Proofs.Outcome
import IndicatorFormula.Proofs.Text.Character

/-! The lexemes of a text.

A number or a name ends where a character follows that no word has, so a text can be cut there and
its parts read one after the other. -/

set_option autoImplicit false
namespace IndicatorFormula.Lexer

inductive Reading (c : Char) (rest : Text) : Option Lexeme → Text → Prop where
  | blank (blank : Text.isBlank c = true) : Reading c rest none rest
  | number {decimal : Decimal} (seen : Text.isBlank c = false) (starts : startsNumber c rest = true)
      (read : Decimal.read? (splitNumber c rest).1 = some decimal) :
      Reading c rest (some (.number (decimal.toDouble false))) (splitNumber c rest).2
  | name (seen : Text.isBlank c = false) (other : startsNumber c rest = false)
      (start : Text.isWordStart c = true) :
      Reading c rest (some (.identifier (c :: rest.takeWhile Text.isWord)))
        (rest.dropWhile Text.isWord)
  | pair {symbol : Symbol} (seen : Text.isBlank c = false) (other : startsNumber c rest = false)
      (plain : Text.isWordStart c = false)
      (found : rest.head?.bind (Symbol.ofPair? c) = some symbol) :
      Reading c rest (some (.symbol symbol)) (rest.drop 1)
  | single {symbol : Symbol} (seen : Text.isBlank c = false) (other : startsNumber c rest = false)
      (plain : Text.isWordStart c = false) (alone : rest.head?.bind (Symbol.ofPair? c) = none)
      (found : Symbol.ofChar? c = some symbol) : Reading c rest (some (.symbol symbol)) rest

theorem next_eq_ok_iff {c : Char} {rest behind : Text} {lexeme : Option Lexeme} :
    next c rest = .ok (lexeme, behind) ↔ Reading c rest lexeme behind := by
  unfold next
  constructor
  · intro step
    -- The lexer asks for these one after the other, and what is not found earlier is what the
    -- guards say.
    split at step
    · cases step
      exact .blank ‹_›
    rename_i seen
    rw [Bool.not_eq_true] at seen
    split at step
    · split at step <;> cases step
      exact .number seen ‹_› ‹_›
    rename_i other
    rw [Bool.not_eq_true] at other
    split at step
    · cases step
      exact .name seen other ‹_›
    rename_i plain
    rw [Bool.not_eq_true] at plain
    split at step
    · cases step
      exact .pair seen other plain ‹_›
    · split at step <;> cases step
      exact .single seen other plain ‹_› ‹_›
  · intro reading
    cases reading with
    | blank blank => rw [if_pos blank]
    | number seen starts read => simp only [seen, starts, read, Bool.false_eq_true, ↓reduceIte]
    | name seen other start => simp only [seen, other, start, Bool.false_eq_true, ↓reduceIte]
    | pair seen other plain found =>
      simp only [seen, other, plain, found, Bool.false_eq_true, ↓reduceIte]
    | single seen other plain alone found =>
      simp only [seen, other, plain, alone, found, Bool.false_eq_true, ↓reduceIte]

inductive Lexes : Text → List Lexeme → Prop where
  | nil : Lexes [] []
  | cons {c : Char} {rest behind : Text} {lexeme : Option Lexeme} {lexemes : List Lexeme}
      (step : next c rest = .ok (lexeme, behind)) (more : Lexes behind lexemes) :
      Lexes (c :: rest) (lexeme.toList ++ lexemes)

theorem Lexes.of_next {c : Char} {rest behind : Text} {lexeme : Lexeme} {lexemes : List Lexeme}
    (step : next c rest = .ok (some lexeme, behind)) (more : Lexes behind lexemes) :
    Lexes (c :: rest) (lexeme :: lexemes) :=
  .cons step more

theorem Lexes.of_blank {c : Char} {rest behind : Text} {lexemes : List Lexeme}
    (step : next c rest = .ok (none, behind)) (more : Lexes behind lexemes) :
    Lexes (c :: rest) lexemes :=
  .cons step more

theorem Lexes.rest {c : Char} {rest behind : Text} {lexeme : Option Lexeme} {lexemes : List Lexeme}
    (lexes : Lexes (c :: rest) lexemes) (step : next c rest = .ok (lexeme, behind)) :
    ∃ later, lexemes = lexeme.toList ++ later ∧ Lexes behind later := by
  cases lexes with
  | cons step' more =>
    rw [step] at step'
    cases step'
    exact ⟨_, rfl, more⟩

theorem Lexes.unique {text : Text} {lexemes other : List Lexeme} (lexes : Lexes text lexemes)
    (lexes' : Lexes text other) : lexemes = other := by
  induction lexes generalizing other with
  | nil =>
    cases lexes'
    rfl
  | cons step more ih =>
    obtain ⟨later, rfl, more'⟩ := lexes'.rest step
    rw [ih more']

theorem tokensFrom_of_error {c : Char} {rest : Text} {reason : DefectReason}
    (failed : next c rest = .error reason) (position : Nat) :
    tokensFrom position (c :: rest) = .error ⟨reason, some position⟩ := by
  rw [tokensFrom]
  split
  · rename_i step
    rw [failed] at step
    cases step
    rfl
  · rename_i step
    rw [failed] at step
    cases step

theorem tokensFrom_of_next {c : Char} {rest left : Text} {lexeme : Option Lexeme}
    (step : next c rest = .ok (lexeme, left)) (position : Nat) :
    tokensFrom position (c :: rest) = do
      let tokens ← tokensFrom (position + (rest.length + 1 - left.length)) left
      return (lexeme.map (⟨·, position⟩)).toList ++ tokens := by
  rw [tokensFrom]
  split
  · rename_i failed
    rw [step] at failed
    cases failed
  · rename_i step'
    rw [step] at step'
    cases step'
    cases lexeme <;> rfl

theorem lexes_of_tokensFrom {text : Text} {position : Nat} {tokens : List Token}
    (cut : tokensFrom position text = .ok tokens) : Lexes text (tokens.map Token.lexeme) := by
  fun_induction tokensFrom position text generalizing tokens with
  | case1 position =>
    cases cut
    exact .nil
  | case2 position c rest reason step => cases cut
  | case3 position c rest lexeme behind step ih =>
    obtain ⟨later, found, same⟩ := bind_eq_ok_iff.mp cut
    cases same
    cases lexeme with
    | none => exact .cons step (ih found)
    | some lexeme => exact .cons step (ih found)

theorem tokensFrom_of_lexes {text : Text} {lexemes : List Lexeme} (lexes : Lexes text lexemes)
    (position : Nat) :
    ∃ tokens, tokensFrom position text = .ok tokens ∧ tokens.map Token.lexeme = lexemes := by
  -- Positions are counted along, and no lexeme depends on them.
  induction lexes generalizing position with
  | nil => exact ⟨[], by rw [tokensFrom], rfl⟩
  | @cons c rest behind lexeme lexemes step more ih =>
    obtain ⟨tokens, cut, same⟩ := ih (position + (rest.length + 1 - behind.length))
    rw [tokensFrom_of_next step, cut]
    cases lexeme with
    | none => exact ⟨tokens, rfl, same⟩
    | some lexeme => exact ⟨⟨lexeme, position⟩ :: tokens, rfl, by rw [List.map_cons, same]; rfl⟩

def Ends (behind : Text) : Prop :=
  ∀ c ∈ behind.head?, Text.isWord c = false ∧ c ≠ '.'

theorem ends_nil : Ends [] :=
  fun _ found => nomatch found

theorem isWord_of_isDigit {c : Char} (digit : Text.isDigit c = true) : Text.isWord c = true := by
  simp [Text.isWord, Text.isAlphanumeric, digit]

theorem isWord_of_isWordStart {c : Char} (start : Text.isWordStart c = true) :
    Text.isWord c = true := by
  unfold Text.isWordStart at start
  rcases Bool.or_eq_true_iff.mp start with letter | line
  · simp [Text.isWord, Text.isAlphanumeric, letter]
  · simp [Text.isWord, line]

theorem isNumeric_of_ends {behind : Text} (ends : Ends behind) :
    ∀ c ∈ behind.head?, isNumeric c = false := by
  intro c found
  obtain ⟨notWord, notPoint⟩ := ends c found
  have notDigit : Text.isDigit c = false := by
    by_contra digit
    rw [isWord_of_isDigit (Bool.eq_true_of_not_eq_false digit)] at notWord
    cases notWord
  simp [isNumeric, notDigit, notPoint]

theorem takeWhile_of_head {holds : Char → Bool} {behind : Text}
    (stops : ∀ c ∈ behind.head?, holds c = false) :
    behind.takeWhile holds = [] ∧ behind.dropWhile holds = behind := by
  cases behind with
  | nil => exact ⟨rfl, rfl⟩
  | cons c behind => simp [stops c rfl]

theorem takeWhile_append_of_head {holds : Char → Bool} {behind : Text}
    (stops : ∀ c ∈ behind.head?, holds c = false) (text : Text) :
    (text ++ behind).takeWhile holds = text.takeWhile holds ∧
      (text ++ behind).dropWhile holds = text.dropWhile holds ++ behind := by
  induction text with
  | nil => exact takeWhile_of_head stops
  | cons c text ih =>
    by_cases goesOn : holds c = true
    · simp [goesOn, ih]
    · simp [goesOn]

theorem splitExponent_of_ends {behind : Text} (ends : Ends behind) :
    splitExponent behind = ([], behind) := by
  cases behind with
  | nil => rfl
  | cons c behind =>
    have notMark : c ≠ 'e' ∧ c ≠ 'E' := by
      constructor <;> rintro rfl <;> exact absurd (ends _ rfl).1 (by decide)
    simp [splitExponent, notMark.1, notMark.2]

theorem splitSign_of_unsigned {c : Char} (plus : c ≠ '+') (minus : c ≠ '-') (behind : Text) :
    splitSign (c :: behind) = ([], c :: behind) := by
  unfold splitSign
  split
  · rename_i found
    exact absurd (List.cons.inj found).1 plus
  · rename_i found
    exact absurd (List.cons.inj found).1 minus
  · rfl

theorem splitSign_append_of_ne_nil {text : Text} (leads : text ≠ []) (behind : Text) :
    splitSign (text ++ behind) = ((splitSign text).1, (splitSign text).2 ++ behind) := by
  cases text with
  | nil => exact absurd rfl leads
  | cons c text =>
    by_cases plus : c = '+'
    · subst plus
      rfl
    by_cases minus : c = '-'
    · subst minus
      rfl
    · rw [List.cons_append, splitSign_of_unsigned plus minus, splitSign_of_unsigned plus minus]
      rfl

theorem splitExponent_append_of_ends {text behind : Text} (whole : splitExponent text = (text, []))
    (ends : Ends behind) : splitExponent (text ++ behind) = (text, behind) := by
  cases text with
  | nil => exact splitExponent_of_ends ends
  | cons mark rest =>
    simp only [splitExponent] at whole
    split at whole
    · rename_i exponent
      obtain ⟨lead, tail⟩ := Prod.mk.inj whole
      -- Nothing is left of the text, so behind the sign there are digits only.
      have digits : ∀ c ∈ (splitSign rest).2, Text.isDigit c = true :=
        List.dropWhile_eq_nil_iff.mp tail
      have some : (splitSign rest).2 ≠ [] := by
        intro none
        simp [none] at exponent
      have leads : rest ≠ [] := by
        rintro rfl
        exact some rfl
      have head : ((splitSign rest).2 ++ behind).head? = (splitSign rest).2.head? := by
        rw [List.head?_append_of_ne_nil _ some]
      have stops : ∀ c ∈ behind.head?, Text.isDigit c = false := fun c found => by
        have numeric := isNumeric_of_ends ends c found
        exact (Bool.or_eq_false_iff.mp numeric).1
      obtain ⟨taken, dropped⟩ := takeWhile_of_head stops
      rw [List.cons_append]
      simp only [splitExponent, splitSign_append_of_ne_nil leads, head, exponent, ↓reduceIte]
      rw [List.takeWhile_append_of_pos digits, List.dropWhile_append_of_pos digits, taken, dropped,
        List.append_nil]
      rw [List.takeWhile_eq_self_iff.mpr digits] at lead
      rw [lead]
    · cases whole

theorem splitExponent_of_splitNumber {c : Char} {rest : Text}
    (whole : splitNumber c rest = (c :: rest, [])) :
    splitExponent (rest.dropWhile isNumeric) = (rest.dropWhile isNumeric, []) := by
  have nothing : (splitExponent (rest.dropWhile isNumeric)).2 = [] := congrArg Prod.snd whole
  have both := splitExponent_append (rest.dropWhile isNumeric)
  rw [nothing, List.append_nil] at both
  exact Prod.ext both nothing

theorem splitNumber_append_of_ends {c : Char} {rest behind : Text}
    (whole : splitNumber c rest = (c :: rest, [])) (ends : Ends behind) :
    splitNumber c (rest ++ behind) = (c :: rest, behind) := by
  have further := splitExponent_append_of_ends (splitExponent_of_splitNumber whole) ends
  obtain ⟨taken, dropped⟩ := takeWhile_append_of_head (isNumeric_of_ends ends) rest
  simp only [splitNumber, taken, dropped, further]
  rw [List.cons_append, List.takeWhile_append_dropWhile]

inductive IsNumber : Text → Double → Prop where
  | intro {c : Char} {rest : Text} {decimal : Decimal} (starts : startsNumber c rest = true)
      (whole : splitNumber c rest = (c :: rest, []))
      (read : Decimal.read? (c :: rest) = some decimal) :
      IsNumber (c :: rest) (decimal.toDouble false)

theorem isBlank_of_startsNumber {c : Char} {rest : Text} (starts : startsNumber c rest = true) :
    Text.isBlank c = false := by
  unfold startsNumber at starts
  rcases Bool.or_eq_true_iff.mp starts with digit | point
  · exact Text.isBlank_of_isWord (isWord_of_isDigit digit)
  · rw [Bool.and_eq_true, beq_iff_eq] at point
    rw [point.1]
    decide

theorem startsNumber_append {c : Char} {rest : Text} (starts : startsNumber c rest = true)
    (behind : Text) : startsNumber c (rest ++ behind) = true := by
  unfold startsNumber at starts ⊢
  cases rest with
  | nil =>
    rcases Bool.or_eq_true_iff.mp starts with digit | point
    · simp [digit]
    · simp at point
  | cons d rest => exact starts

theorem next_number {literal : Text} {value : Double} (number : IsNumber literal value)
    {behind : Text} (ends : Ends behind) :
    ∃ c rest, literal = c :: rest ∧
      next c (rest ++ behind) = .ok (some (.number value), behind) := by
  cases number with
  | @intro c rest decimal starts whole read =>
    have split := splitNumber_append_of_ends whole ends
    have reading : Reading c (rest ++ behind) (some (.number (decimal.toDouble false)))
        (splitNumber c (rest ++ behind)).2 :=
      .number (isBlank_of_startsNumber starts) (startsNumber_append starts behind)
        (by rw [split, read])
    rw [split] at reading
    exact ⟨c, rest, rfl, next_eq_ok_iff.mpr reading⟩

theorem Lexes.number {literal : Text} {value : Double} (number : IsNumber literal value)
    {behind : Text} {lexemes : List Lexeme} (ends : Ends behind) (more : Lexes behind lexemes) :
    Lexes (literal ++ behind) (.number value :: lexemes) := by
  obtain ⟨c, rest, rfl, step⟩ := next_number number ends
  exact .of_next step more

inductive IsName : Text → Prop where
  | intro {c : Char} {rest : Text} (start : Text.isWordStart c = true)
      (letter : Text.isDigit c = false) (word : ∀ d ∈ rest, Text.isWord d = true) :
      IsName (c :: rest)

theorem next_name {name : Text} (isName : IsName name) {behind : Text} (ends : Ends behind) :
    ∃ c rest, name = c :: rest ∧
      next c (rest ++ behind) = .ok (some (.identifier name), behind) := by
  cases isName with
  | @intro c rest start letter word =>
    have notPoint : c ≠ '.' := by
      rintro rfl
      exact absurd start (by decide)
    have reading : Reading c (rest ++ behind) _ _ :=
      .name (Text.isBlank_of_isWord (isWord_of_isWordStart start))
        (by simp [startsNumber, letter, notPoint]) start
    obtain ⟨taken, dropped⟩ := takeWhile_of_head fun d found => (ends d found).1
    rw [List.takeWhile_append_of_pos word, List.dropWhile_append_of_pos word, taken, dropped,
      List.append_nil] at reading
    exact ⟨c, rest, rfl, next_eq_ok_iff.mpr reading⟩

theorem Lexes.name {name : Text} (isName : IsName name) {behind : Text} {lexemes : List Lexeme}
    (ends : Ends behind) (more : Lexes behind lexemes) :
    Lexes (name ++ behind) (.identifier name :: lexemes) := by
  obtain ⟨c, rest, rfl, step⟩ := next_name isName ends
  exact .of_next step more

theorem next_blank {c : Char} (blank : Text.isBlank c = true) (behind : Text) :
    next c behind = .ok (none, behind) :=
  next_eq_ok_iff.mpr (.blank blank)

theorem Lexes.blank {c : Char} (blank : Text.isBlank c = true) {behind : Text}
    {lexemes : List Lexeme} (more : Lexes behind lexemes) : Lexes (c :: behind) lexemes :=
  .of_blank (next_blank blank behind) more

def Alone (symbol : Symbol) (behind : Text) : Prop :=
  ∀ c, symbol.text = [c] → ∀ d ∈ behind.head?, Symbol.ofPair? c d = none

def isMark (c : Char) : Bool :=
  !Text.isBlank c && !Text.isWord c && c != '.'

theorem isMark_of_mem_text {symbol : Symbol} {c : Char} (member : c ∈ symbol.text) :
    isMark c = true := by
  have each : ∀ c ∈ symbol.text, isMark c = true := by
    cases symbol with
    | opening bracket | closing bracket => cases bracket <;> decide
    | operator operator => cases operator <;> decide
    | _ => decide
  exact each c member

theorem next_of_isMark {c : Char} (mark : isMark c = true) (rest : Text) :
    next c rest =
      match rest.head?.bind (Symbol.ofPair? c) with
      | some symbol => .ok (some (.symbol symbol), rest.drop 1)
      | none =>
        match Symbol.ofChar? c with
        | some symbol => .ok (some (.symbol symbol), rest)
        | none => .error (.unexpectedCharacter c) := by
  simp only [isMark, Bool.and_eq_true, Bool.not_eq_true', bne_iff_ne] at mark
  obtain ⟨⟨notBlank, notWord⟩, notPoint⟩ := mark
  -- Neither a blank nor a number nor a name begins with a mark, so a symbol is all that is left.
  have notNumber : startsNumber c rest = false := by
    have notDigit : Text.isDigit c = false := by
      by_contra digit
      rw [isWord_of_isDigit (Bool.eq_true_of_not_eq_false digit)] at notWord
      cases notWord
    simp [startsNumber, notDigit, notPoint]
  have notStart : Text.isWordStart c = false := by
    by_contra start
    rw [isWord_of_isWordStart (Bool.eq_true_of_not_eq_false start)] at notWord
    cases notWord
  unfold next
  rw [notBlank, notNumber, notStart]
  rfl

theorem Lexes.symbol {symbol : Symbol} {behind : Text} {lexemes : List Lexeme}
    (alone : Alone symbol behind) (more : Lexes behind lexemes) :
    Lexes (symbol.text ++ behind) (.symbol symbol :: lexemes) := by
  have marks : ∀ c ∈ symbol.text, isMark c = true := fun _ => isMark_of_mem_text
  -- A symbol of one character is read unless it makes a pair with the next one, since pairs come
  -- first.
  have single : ∀ c, symbol.text = [c] → Symbol.ofChar? c = some symbol →
      Lexes (symbol.text ++ behind) (.symbol symbol :: lexemes) := by
    intro c text found
    have pair : behind.head?.bind (Symbol.ofPair? c) = none := by
      rw [Option.bind_eq_none_iff]
      exact alone c text
    rw [text] at marks ⊢
    rw [List.singleton_append]
    refine .of_next ?_ more
    rw [next_of_isMark (marks c List.mem_cons_self), pair]
    simp only [found]
  have double : ∀ c d, symbol.text = [c, d] → Symbol.ofPair? c d = some symbol →
      Lexes (symbol.text ++ behind) (.symbol symbol :: lexemes) := by
    intro c d text found
    rw [text] at marks ⊢
    refine .of_next ?_ more
    rw [next_of_isMark (marks c List.mem_cons_self)]
    simp [found]
  cases symbol with
  | opening bracket | closing bracket => cases bracket <;> exact single _ rfl rfl
  | comma | not => exact single _ rfl rfl
  | operator operator =>
    cases operator <;> first | exact single _ rfl rfl | exact double _ _ rfl rfl

end IndicatorFormula.Lexer
