import IndicatorFormula.Proofs.Expression.Lexemes

/-! Blanks separate tokens.

The lexer looks one character past a symbol and two past a number. No blank goes on in a lexeme,
whichever it is, so the tokens of a text with a blank in it are those of the text before the blank
and those of the text behind it. -/

set_option autoImplicit false
namespace IndicatorFormula

/-- A token or, without a lexeme, the end of a text, in its place. -/
structure Mark where
  lexeme : Option Lexeme
  position : Nat
  deriving DecidableEq

namespace Mark

def shift (distance : Nat) (mark : Mark) : Mark :=
  { mark with position := distance + mark.position }

end Mark

namespace Token

def mark (token : Token) : Mark :=
  ⟨some token.lexeme, token.position⟩

def shift (distance : Nat) (token : Token) : Token :=
  { token with position := distance + token.position }

end Token

def Defect.shift (distance : Nat) (defect : Defect) : Defect :=
  { defect with position := defect.position.map (distance + ·) }

namespace Lexer

/-- The tokens of an expression and its end. -/
def marks (expression : Text) : Except Defect (List Mark) := do
  return (← tokens expression).map Token.mark ++ [⟨none, expression.length⟩]

def Parted (behind : Text) : Prop :=
  ∀ c ∈ behind.head?, Text.isBlank c = true

theorem parted_cons {blank : Char} (isBlank : Text.isBlank blank = true) (behind : Text) :
    Parted (blank :: behind) := by
  rintro c ⟨⟩
  exact isBlank

section Parted

variable {behind : Text}

theorem Parted.stops {holds : Char → Bool} (parted : Parted behind)
    (other : ∀ c, Text.isBlank c = true → holds c = false) : ∀ c ∈ behind.head?, holds c = false :=
  fun c found => other c (parted c found)

theorem isDigit_of_isBlank {c : Char} (blank : Text.isBlank c = true) : Text.isDigit c = false := by
  by_contra digit
  have word := isWord_of_isDigit (Bool.eq_true_of_not_eq_false digit)
  rw [Text.isWord_of_isBlank blank] at word
  cases word

theorem isNumeric_of_isBlank {c : Char} (blank : Text.isBlank c = true) : isNumeric c = false := by
  have notPoint : c ≠ '.' := Text.ne_of_isBlank blank (by decide)
  simp [isNumeric, isDigit_of_isBlank blank, notPoint]

theorem ofPair?_of_isBlank (c : Char) {d : Char} (blank : Text.isBlank d = true) :
    Symbol.ofPair? c d = none := by
  have notEqual : d ≠ '=' := Text.ne_of_isBlank blank (by decide)
  have notAnd : d ≠ '&' := Text.ne_of_isBlank blank (by decide)
  have notOr : d ≠ '|' := Text.ne_of_isBlank blank (by decide)
  unfold Symbol.ofPair?
  split <;> first | rfl | contradiction

theorem Parted.head?_any (parted : Parted behind) (text : Text) :
    (text ++ behind).head?.any Text.isDigit = text.head?.any Text.isDigit := by
  cases text with
  | cons c text => rfl
  | nil =>
    have stops := parted.stops fun _ => isDigit_of_isBlank
    cases behind with
    | nil => rfl
    | cons c behind => exact stops c rfl

theorem Parted.splitSign (parted : Parted behind) (text : Text) :
    splitSign (text ++ behind) = ((splitSign text).1, (splitSign text).2 ++ behind) := by
  cases text with
  | cons c text => exact splitSign_append_of_ne_nil (List.cons_ne_nil c text) behind
  | nil =>
    cases behind with
    | nil => rfl
    | cons c behind =>
      have notPlus : c ≠ '+' := Text.ne_of_isBlank (parted c rfl) (by decide)
      have notMinus : c ≠ '-' := Text.ne_of_isBlank (parted c rfl) (by decide)
      exact splitSign_of_unsigned notPlus notMinus behind

theorem Parted.splitExponent (parted : Parted behind) (text : Text) :
    splitExponent (text ++ behind) =
      ((splitExponent text).1, (splitExponent text).2 ++ behind) := by
  cases text with
  | nil =>
    refine splitExponent_of_ends fun c found => ⟨?_, ?_⟩
    · exact Text.isWord_of_isBlank (parted c found)
    · exact Text.ne_of_isBlank (parted c found) (by decide)
  | cons mark rest =>
    obtain ⟨taken, dropped⟩ :=
      takeWhile_append_of_head (parted.stops fun _ => isDigit_of_isBlank) (Lexer.splitSign rest).2
    simp only [List.cons_append, Lexer.splitExponent, parted.splitSign, parted.head?_any, taken,
      dropped]
    split <;> rfl

theorem Parted.splitNumber (parted : Parted behind) (c : Char) (rest : Text) :
    splitNumber c (rest ++ behind) =
      ((splitNumber c rest).1, (splitNumber c rest).2 ++ behind) := by
  obtain ⟨taken, dropped⟩ :=
    takeWhile_append_of_head (parted.stops fun _ => isNumeric_of_isBlank) rest
  simp only [Lexer.splitNumber, taken, dropped, parted.splitExponent]

theorem Parted.ofPair? (parted : Parted behind) (c : Char) (rest : Text) :
    (rest ++ behind).head?.bind (Symbol.ofPair? c) = rest.head?.bind (Symbol.ofPair? c) := by
  cases rest with
  | cons d rest => rfl
  | nil =>
    rw [List.nil_append, List.head?_nil, Option.bind_none, Option.bind_eq_none_iff]
    exact fun d found => ofPair?_of_isBlank c (parted d found)

/-- What is read, and that nothing can be, does not depend on what is behind a blank. -/
theorem Parted.next (parted : Parted behind) (c : Char) (rest : Text) :
    next c (rest ++ behind) = (next c rest).map fun read => (read.1, read.2 ++ behind) := by
  obtain ⟨taken, dropped⟩ :=
    takeWhile_append_of_head (parted.stops fun _ => Text.isWord_of_isBlank) rest
  have starts : startsNumber c (rest ++ behind) = startsNumber c rest := by
    rw [startsNumber, parted.head?_any, startsNumber]
  -- The lexer asks the same questions in the same order, and gets the same answers.
  simp only [Lexer.next, starts, parted.splitNumber, parted.ofPair?, taken, dropped]
  split
  · rfl
  split
  · split <;> rfl
  split
  · rfl
  split
  · rename_i symbol pair
    cases rest with
    | nil => cases pair
    | cons d rest => rfl
  · split <;> rfl

/-- Tokens are cut from the text before a blank and then from the text that begins with it. -/
theorem Parted.tokensFrom (parted : Parted behind) (position : Nat) (text : Text) :
    tokensFrom position (text ++ behind) = do
      let before ← tokensFrom position text
      let later ← tokensFrom (position + text.length) behind
      return before ++ later := by
  fun_induction Lexer.tokensFrom position text with
  | case1 position => exact (bind_pure _).symm
  | case2 position c rest reason step =>
    have failed : Lexer.next c (rest ++ behind) = .error reason := by rw [parted.next, step]; rfl
    exact tokensFrom_of_error failed position
  | case3 position c rest lexeme left step ih =>
    have whole : Lexer.next c (rest ++ behind) = .ok (lexeme, left ++ behind) := by
      rw [parted.next, step]; rfl
    have shorter := length_le_of_next step
    have consumed : (rest ++ behind).length + 1 - (left ++ behind).length =
        rest.length + 1 - left.length := by
      simp only [List.length_append]
      omega
    have ends : position + (rest.length + 1 - left.length) + left.length =
        position + (c :: rest).length := by
      rw [List.length_cons]
      omega
    rw [List.cons_append, tokensFrom_of_next whole, consumed, ih, ends]
    simp only [bind_assoc, pure_bind]
    refine bind_congr fun before => ?_
    refine bind_congr fun later => ?_
    cases lexeme <;> rfl

theorem tokensFrom_shift (distance position : Nat) (text : Text) :
    Lexer.tokensFrom (distance + position) text =
      ((Lexer.tokensFrom position text).map (List.map (Token.shift distance))).mapError
        (Defect.shift distance) := by
  fun_induction Lexer.tokensFrom position text with
  | case1 position =>
    rw [Lexer.tokensFrom]
    rfl
  | case2 position c rest reason step => exact tokensFrom_of_error step _
  | case3 position c rest lexeme left step ih =>
    rw [tokensFrom_of_next step, Nat.add_assoc, ih]
    cases Lexer.tokensFrom (position + (rest.length + 1 - left.length)) left with
    | error defect => rfl
    | ok tokens => cases lexeme <;> rfl

end Parted

theorem tokensFrom_blank {blank : Char} (isBlank : Text.isBlank blank = true) (position : Nat)
    (text : Text) :
    Lexer.tokensFrom position (blank :: text) = Lexer.tokensFrom (position + 1) text := by
  rw [tokensFrom_of_next (next_blank isBlank text), Nat.add_sub_cancel_left]
  exact bind_pure _

/-- The tokens of a text with a blank in it are those of the text before the blank and those of the
text behind it, which stand further behind. If one of these texts cannot be cut into tokens, then
the reason is that of the first such text, and the place is where it is found there. -/
theorem marks_append_blank (first second : Text) {blank : Char}
    (isBlank : Text.isBlank blank = true) :
    marks (first ++ blank :: second) = do
      let before ← tokens first
      let behind ← (marks second).mapError (Defect.shift (first.length + 1))
      return before.map Token.mark ++ behind.map (Mark.shift (first.length + 1)) := by
  have further : tokensFrom (0 + first.length) (blank :: second) =
      ((tokens second).map (List.map (Token.shift (first.length + 1)))).mapError
        (Defect.shift (first.length + 1)) := by
    rw [tokensFrom_blank isBlank, Nat.zero_add]
    exact tokensFrom_shift (first.length + 1) 0 second
  have ends : (first ++ blank :: second).length = first.length + 1 + second.length := by
    simp only [List.length_append, List.length_cons]
    omega
  rw [marks, tokens, (parted_cons isBlank second).tokensFrom, further, ends, ← tokens, marks]
  cases tokens first with
  | error defect => rfl
  | ok before =>
    cases tokens second with
    | error defect => rfl
    | ok behind =>
      have same : (behind.map (Token.shift (first.length + 1))).map Token.mark =
          (behind.map Token.mark).map (Mark.shift (first.length + 1)) := by
        rw [List.map_map, List.map_map]
        rfl
      refine congrArg Except.ok ?_
      rw [List.map_append, List.map_append, same, List.append_assoc]
      rfl

/-- A blank behind a sign keeps the digits behind it out of the exponent. -/
theorem marks_append_blank_exponent :
    marks ("1e+".toList ++ '\u2003' :: "5".toList) = .ok
        [⟨some (.number (.ofInt 1)), 0⟩, ⟨some (.identifier ['e']), 1⟩,
          ⟨some (.symbol (.operator .add)), 2⟩, ⟨some (.number (.ofInt 5)), 4⟩, ⟨none, 5⟩] ∧
      marks ("1e+".toList ++ '\u2003' :: "5.6.7".toList) =
        .error ⟨.invalidNumber "5.6.7".toList, some 4⟩ := by
  have isBlank : Text.isBlank '\u2003' = true := by decide
  have before : tokens "1e+".toList = .ok [⟨.number (.ofInt 1), 0⟩, ⟨.identifier ['e'], 1⟩,
      ⟨.symbol (.operator .add), 2⟩] := by decide +kernel
  have behind : marks "5".toList = .ok [⟨some (.number (.ofInt 5)), 0⟩, ⟨none, 1⟩] := by
    decide +kernel
  have failed : marks "5.6.7".toList = .error ⟨.invalidNumber "5.6.7".toList, some 0⟩ := by
    decide +kernel
  constructor
  · rw [marks_append_blank _ _ isBlank, before, behind]
    rfl
  · rw [marks_append_blank _ _ isBlank, before, failed]
    rfl

end Lexer
end IndicatorFormula
