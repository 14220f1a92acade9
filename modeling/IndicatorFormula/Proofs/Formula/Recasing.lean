import IndicatorFormula.Proofs.Formula.Segment

/-! Capital letters in lexemes.

Writing function names in capitals does not change where a text is cut, so the lexemes of a formula
are those of the formula with its function names capitalized, apart from the names of calls. -/

set_option autoImplicit false
namespace IndicatorFormula

inductive Recased : List Lexeme → List Lexeme → Prop where
  | nil : Recased [] []
  | same (lexeme : Lexeme) {lexemes others : List Lexeme} (more : Recased lexemes others) :
      Recased (lexeme :: lexemes) (lexeme :: others)
  | head {name : Text} {function : Builtin} {lexemes others : List Lexeme}
      (spelling : Text.Spelling function.name name) (more : Recased lexemes others) :
      Recased (.identifier name :: .symbol (.opening .round) :: lexemes)
        (.identifier (name.map Text.capital) :: .symbol (.opening .round) :: others)

namespace Lexer

open CallHead

variable {afterWord : Bool} {text behind : Text}

inductive Capitals : Bool → Text → Text → Prop where
  | nil (afterWord : Bool) : Capitals afterWord [] []
  | kept {afterWord : Bool} {c : Char} {rest : Text}
      (none : read? Builtin.all afterWord (c :: rest) = none) :
      Capitals afterWord (c :: rest) (c :: capitalizeCallsFrom (Text.isWord c) rest)
  | head {head : CallHead} {function : Builtin} (calls : head.Calls function) (behind : Text) :
      Capitals false (head.text ++ behind)
        (head.capitalized.text ++ capitalizeCallsFrom false behind)

theorem capitals (afterWord : Bool) (text : Text) :
    Capitals afterWord text (capitalizeCallsFrom afterWord text) := by
  cases text with
  | nil =>
    rw [capitalizeCallsFrom]
    exact .nil afterWord
  | cons c rest =>
    cases found : read? Builtin.all afterWord (c :: rest) with
    | none =>
      rw [capitalizeCallsFrom_cons found]
      exact .kept found
    | some pair =>
      obtain ⟨head, behind⟩ := pair
      obtain ⟨rfl, ⟨function, -, calls⟩, whole⟩ := read?_eq_some_iff.mp found
      rw [whole, capitalizeCallsFrom_head calls]
      exact .head calls behind

theorem isDigit_head {head : CallHead} {function : Builtin} (calls : head.Calls function) :
    ∃ c rest, head.text = c :: rest ∧ Text.isWord c = true ∧ Text.isDigit c = false := by
  obtain ⟨c, d, rest, shape, opens, word⟩ := calls.opensName
  refine ⟨c, d :: rest, shape, word, ?_⟩
  by_contra digit
  rw [opensName_of_isDigit (Bool.eq_true_of_not_eq_false digit)] at opens
  cases opens

theorem head_capitalizeCallsFrom {holds : Char → Bool}
    (letters : ∀ c, Text.isWord c = true → Text.isDigit c = false → holds c = false)
    (afterWord : Bool) (text : Text) :
    (capitalizeCallsFrom afterWord text).head?.any holds = text.head?.any holds := by
  have view := capitals afterWord text
  generalize capitalizeCallsFrom afterWord text = capital at view ⊢
  cases view with
  | nil | kept => rfl
  -- A function name begins with a letter before and after.
  | head calls behind =>
    obtain ⟨c, rest, shape, word, letter⟩ := isDigit_head calls
    obtain ⟨c', rest', shape', word', letter'⟩ := isDigit_head calls.capitalized
    simp [shape, shape', letters c word letter, letters c' word' letter']

theorem takeWhile_capitalizeCallsFrom {holds : Char → Bool}
    (digits : ∀ c, holds c = true → Text.isDigit c = true ∨ c = '.') (afterWord : Bool)
    (text : Text) :
    ∃ after, (capitalizeCallsFrom afterWord text).takeWhile holds = text.takeWhile holds ∧
      (capitalizeCallsFrom afterWord text).dropWhile holds =
        capitalizeCallsFrom after (text.dropWhile holds) := by
  induction text generalizing afterWord with
  | nil => exact ⟨afterWord, by simp [capitalizeCallsFrom]⟩
  | cons c rest ih =>
    -- No name is capitalized within the run, and it stops where it did.
    by_cases goesOn : holds c = true
    · have none : read? Builtin.all afterWord (c :: rest) = Option.none := by
        rcases digits c goesOn with digit | rfl
        · exact read?_eq_none (.inr fun d _ => opensName_of_isDigit digit d)
        · exact read?_eq_none (.inl (by decide))
      obtain ⟨after, taken, dropped⟩ := ih (Text.isWord c)
      refine ⟨after, ?_, ?_⟩
      · rw [capitalizeCallsFrom_cons none, List.takeWhile_cons_of_pos goesOn,
          List.takeWhile_cons_of_pos goesOn, taken]
      · rw [capitalizeCallsFrom_cons none, List.dropWhile_cons_of_pos goesOn,
          List.dropWhile_cons_of_pos goesOn, dropped]
    · have letters : ∀ d, Text.isWord d = true → Text.isDigit d = false → holds d = false := by
        intro d word letter
        by_contra goesOn
        rcases digits d (Bool.eq_true_of_not_eq_false goesOn) with digit | rfl
        · rw [letter] at digit
          cases digit
        · exact absurd word (by decide)
      have stops : ∀ d ∈ (capitalizeCallsFrom afterWord (c :: rest)).head?, holds d = false := by
        intro d found
        have same := head_capitalizeCallsFrom letters afterWord (c :: rest)
        rw [found] at same
        simpa [goesOn] using same
      obtain ⟨taken, dropped⟩ := takeWhile_of_head stops
      refine ⟨afterWord, ?_, ?_⟩
      · rw [taken, List.takeWhile_cons_of_neg goesOn]
      · rw [dropped, List.dropWhile_cons_of_neg goesOn]

theorem splitExponent_head {head : CallHead} {function : Builtin} (calls : head.Calls function)
    (behind : Text) : splitExponent (head.text ++ behind) = ([], head.text ++ behind) := by
  obtain ⟨c, d, rest, shape, opens, -⟩ := calls.opensName
  rw [shape]
  simp only [List.cons_append, splitExponent]
  refine if_neg fun exponent => ?_
  simp only [Bool.and_eq_true, Bool.or_eq_true, decide_eq_true_eq] at exponent
  obtain ⟨mark, digit⟩ := exponent
  -- A sign or a digit would have to follow, which is how no function name goes on.
  have goesOn : d = '+' ∨ d = '-' ∨ Text.isDigit d = true := by
    by_cases plus : d = '+'
    · exact .inl plus
    by_cases minus : d = '-'
    · exact .inr (.inl minus)
    · rw [splitSign] at digit
      · exact .inr (.inr digit)
      · exact fun behind same => plus (List.cons.inj same).1
      · exact fun behind same => minus (List.cons.inj same).1
  rw [opensName_of_exponent mark goesOn] at opens
  cases opens

theorem splitSign_capitalizeCallsFrom (text : Text) :
    ∃ after, splitSign (capitalizeCallsFrom true text) =
      ((splitSign text).1, capitalizeCallsFrom after (splitSign text).2) := by
  cases text with
  | nil => exact ⟨true, by simp [splitSign, capitalizeCallsFrom]⟩
  | cons c rest =>
    have whole : capitalizeCallsFrom true (c :: rest) =
        c :: capitalizeCallsFrom (Text.isWord c) rest :=
      capitalizeCallsFrom_cons rfl
    by_cases plus : c = '+'
    · subst plus
      exact ⟨_, by rw [whole, splitSign, splitSign]⟩
    by_cases minus : c = '-'
    · subst minus
      exact ⟨_, by rw [whole, splitSign, splitSign]⟩
    · exact ⟨true,
        by rw [splitSign_of_unsigned plus minus, whole, splitSign_of_unsigned plus minus]⟩

theorem isDigit_capitalizeCallsFrom (afterWord : Bool) (text : Text) :
    (capitalizeCallsFrom afterWord text).head?.any Text.isDigit = text.head?.any Text.isDigit :=
  head_capitalizeCallsFrom (fun _ _ letter => letter) afterWord text

theorem splitExponent_capitalizeCallsFrom (afterWord : Bool) (text : Text) :
    ∃ after, splitExponent (capitalizeCallsFrom afterWord text) =
      ((splitExponent text).1, capitalizeCallsFrom after (splitExponent text).2) := by
  have view := capitals afterWord text
  generalize same : capitalizeCallsFrom afterWord text = capital at view ⊢
  cases view with
  | nil => exact ⟨false, by simp [splitExponent, capitalizeCallsFrom]⟩
  | head calls behind =>
    rw [splitExponent_head calls, splitExponent_head calls.capitalized]
    exact ⟨false, by rw [same]⟩
  | @kept _ c rest none =>
    by_cases mark : c = 'e' ∨ c = 'E'
    · have word : Text.isWord c = true := by
        rcases mark with rfl | rfl <;> decide
      rw [word] at same ⊢
      obtain ⟨signed, sign⟩ := splitSign_capitalizeCallsFrom rest
      obtain ⟨after, taken, dropped⟩ :=
        takeWhile_capitalizeCallsFrom (fun _ => Or.inl) signed (splitSign rest).2
      simp only [splitExponent, sign, isDigit_capitalizeCallsFrom, taken, dropped]
      split
      · exact ⟨after, rfl⟩
      · exact ⟨afterWord, by rw [same]⟩
    · have other : (decide (c = 'e') || decide (c = 'E')) = false := by
        simpa [not_or] using mark
      refine ⟨afterWord, ?_⟩
      simp only [splitExponent, other, Bool.false_and, Bool.false_eq_true, ↓reduceIte, same]

theorem splitNumber_capitalizeCallsFrom (c : Char) (afterWord : Bool) (text : Text) :
    ∃ after, splitNumber c (capitalizeCallsFrom afterWord text) =
      ((splitNumber c text).1, capitalizeCallsFrom after (splitNumber c text).2) := by
  have numeric : ∀ d, isNumeric d = true → Text.isDigit d = true ∨ d = '.' := fun d numeric =>
    (Bool.or_eq_true_iff.mp numeric).imp id beq_iff_eq.mp
  obtain ⟨behind, taken, dropped⟩ := takeWhile_capitalizeCallsFrom numeric afterWord text
  obtain ⟨after, exponent⟩ := splitExponent_capitalizeCallsFrom behind (text.dropWhile isNumeric)
  exact ⟨after, by simp only [splitNumber, taken, dropped, exponent]⟩

theorem takeWhile_isWord_capitalizeCallsFrom (text : Text) :
    (capitalizeCallsFrom true text).takeWhile Text.isWord = text.takeWhile Text.isWord ∧
      (capitalizeCallsFrom true text).dropWhile Text.isWord =
        capitalizeCallsFrom true (text.dropWhile Text.isWord) := by
  induction text with
  | nil => simp [capitalizeCallsFrom]
  | cons c rest ih =>
    have whole : capitalizeCallsFrom true (c :: rest) =
        c :: capitalizeCallsFrom (Text.isWord c) rest :=
      capitalizeCallsFrom_cons rfl
    by_cases word : Text.isWord c = true
    · rw [word] at whole
      rw [whole, List.takeWhile_cons_of_pos word, List.takeWhile_cons_of_pos word,
        List.dropWhile_cons_of_pos word, List.dropWhile_cons_of_pos word, ih.1, ih.2]
      exact ⟨rfl, rfl⟩
    · rw [whole, List.takeWhile_cons_of_neg word, List.takeWhile_cons_of_neg word,
        List.dropWhile_cons_of_neg word, List.dropWhile_cons_of_neg word, whole]
      exact ⟨rfl, rfl⟩

theorem ofPair?_of_isWord (c : Char) {d : Char} (word : Text.isWord d = true) :
    Symbol.ofPair? c d = none := by
  by_cases follows : d = 'd'
  · subst follows
    unfold Symbol.ofPair?
    split <;> first | rfl | simp_all
  · refine Segment.ofPair?_eq_none c fun member => ?_
    have plain : ∀ d ∈ Segment.followers, d = 'd' ∨ Text.isWord d = false := by decide
    rcases plain d member with same | other
    · exact follows same
    · rw [word] at other
      cases other

theorem ofPair?_capitalizeCallsFrom (c : Char) (afterWord : Bool) (text : Text) :
    (capitalizeCallsFrom afterWord text).head?.bind (Symbol.ofPair? c) =
        text.head?.bind (Symbol.ofPair? c) ∧
      ((text.head?.bind (Symbol.ofPair? c)).isSome →
        ∃ after, (capitalizeCallsFrom afterWord text).drop 1 =
          capitalizeCallsFrom after (text.drop 1)) := by
  have view := capitals afterWord text
  generalize capitalizeCallsFrom afterWord text = capital at view ⊢
  cases view with
  | nil => exact ⟨rfl, fun impossible => nomatch impossible⟩
  | kept none => exact ⟨rfl, fun _ => ⟨_, rfl⟩⟩
  | head calls behind =>
    obtain ⟨d, rest, shape, word, -⟩ := isDigit_head calls
    obtain ⟨d', rest', shape', word', -⟩ := isDigit_head calls.capitalized
    simp [shape, shape', ofPair?_of_isWord c word, ofPair?_of_isWord c word']

theorem next_capitalizeCallsFrom {c : Char} {rest capital : Text} {lexeme : Option Lexeme}
    (step : next c (capitalizeCallsFrom (Text.isWord c) rest) = .ok (lexeme, capital)) :
    ∃ after behind, next c rest = .ok (lexeme, behind) ∧
      capital = capitalizeCallsFrom after behind := by
  obtain ⟨afterNumber, number⟩ := splitNumber_capitalizeCallsFrom c (Text.isWord c) rest
  obtain ⟨pair, second⟩ := ofPair?_capitalizeCallsFrom c (Text.isWord c) rest
  -- The lexer asks the same questions in the same order, and gets the same answers.
  have same : startsNumber c (capitalizeCallsFrom (Text.isWord c) rest) = startsNumber c rest := by
    rw [startsNumber, isDigit_capitalizeCallsFrom, startsNumber]
  cases next_eq_ok_iff.mp step with
  | blank blank => exact ⟨_, rest, next_eq_ok_iff.mpr (.blank blank), rfl⟩
  | number seen starts read =>
    rw [number] at read ⊢
    exact ⟨afterNumber, _, next_eq_ok_iff.mpr (.number seen (same ▸ starts) read), rfl⟩
  | name seen other start =>
    obtain ⟨taken, dropped⟩ := takeWhile_isWord_capitalizeCallsFrom rest
    rw [isWord_of_isWordStart start, taken, dropped]
    exact ⟨true, _, next_eq_ok_iff.mpr (.name seen (same ▸ other) start), rfl⟩
  | pair seen other plain found =>
    rw [pair] at found
    obtain ⟨after, behind⟩ := second (by rw [found]; rfl)
    exact ⟨after, _, next_eq_ok_iff.mpr (.pair seen (same ▸ other) plain found), behind⟩
  | single seen other plain alone found =>
    exact ⟨_, rest, next_eq_ok_iff.mpr (.single seen (same ▸ other) plain (pair ▸ alone) found),
      rfl⟩

theorem Lexes.blanks {gap behind : Text} {lexemes : List Lexeme}
    (blank : ∀ c ∈ gap, Text.isBlank c = true) (lexes : Lexes (gap ++ behind) lexemes) :
    Lexes behind lexemes := by
  induction gap with
  | nil => exact lexes
  | cons c gap ih =>
    obtain ⟨later, rfl, more⟩ :=
      lexes.rest (next_blank (blank c List.mem_cons_self) (gap ++ behind))
    exact ih (fun d member => blank d (List.mem_cons_of_mem c member)) more

theorem Lexes.head {head : CallHead} {function : Builtin} (calls : head.Calls function)
    {behind : Text} {lexemes : List Lexeme} (lexes : Lexes (head.text ++ behind) lexemes) :
    ∃ later, lexemes = .identifier head.name :: .symbol (.opening .round) :: later ∧
      Lexes behind later := by
  obtain ⟨c, rest, name, step⟩ :=
    next_name (Segment.isName_of_calls calls) (@Segment.ends_of_calls behind head function calls)
  rw [text_append, name, List.cons_append] at lexes
  obtain ⟨later, rfl, more⟩ := lexes.rest step
  have step : next '(' behind = .ok (some (.symbol (.opening .round)), behind) := by
    have none : behind.head?.bind (Symbol.ofPair? '(') = Option.none := by
      cases behind <;> rfl
    rw [next_of_isMark (by decide), none]
    rfl
  obtain ⟨last, rfl, behind⟩ := (more.blanks calls.gap).rest step
  exact ⟨last, rfl, behind⟩

/-- A formula whose capitalized text has lexemes has them too, apart from the names of calls. -/
theorem Lexes.of_capitalizeCallsFrom {afterWord : Bool} {text : Text} {capitals : List Lexeme}
    (lexes : Lexes (capitalizeCallsFrom afterWord text) capitals) :
    ∃ lexemes, Lexes text lexemes ∧ Recased lexemes capitals := by
  induction length : text.length using Nat.strongRecOn generalizing afterWord text capitals with
  | ind bound ih =>
    -- Either a lexeme is read alike, or the head of a call is read as a whole.
    have view := Lexer.capitals afterWord text
    generalize capitalizeCallsFrom afterWord text = capital at view lexes
    cases view with
    | nil =>
      cases lexes
      exact ⟨[], .nil, .nil⟩
    | @kept _ c rest none =>
      cases lexes with
      | @cons _ _ _ lexeme _ step more =>
        obtain ⟨after, behind, first, rfl⟩ := next_capitalizeCallsFrom step
        have shorter := length_le_of_next first
        rw [List.length_cons] at length
        obtain ⟨lexemes, lexes, recased⟩ := ih behind.length (by omega) more rfl
        refine ⟨_, .cons first lexes, ?_⟩
        cases lexeme with
        | none => exact recased
        | some lexeme => exact .same lexeme recased
    | head calls behind =>
      obtain ⟨later, rfl, more⟩ := lexes.head calls.capitalized
      have longer : behind.length < bound := by
        rw [← length]
        simp [CallHead.text]
        omega
      obtain ⟨lexemes, lexes, recased⟩ := ih behind.length longer more rfl
      exact ⟨_, Segment.lexes_head calls lexes, .head calls.name recased⟩

end Lexer
end IndicatorFormula
