import IndicatorFormula.Proofs.Formula.Scanning
import IndicatorFormula.Substitution.Pass
import IndicatorFormula.Substitution.Validation

/-! Formulas in segments.

A formula that is well-formed arithmetic once its references are numbers is a row of blanks, truth
values, heads of calls, numbers, symbols and references. Every pass over its text acts on its
segments one by one. -/

set_option autoImplicit false
namespace IndicatorFormula

/-- A part of a formula. The number of days may stand within the digits of a number. -/
inductive Segment where
  | blank (c : Char)
  | boolean (value : Bool)
  | call (function : Builtin) (head : CallHead)
  | number (literal : Text) (value : Double)
  | symbol (sign : Symbol)
  | reference (lead : Text) (found : Reference) (tail : Text)

namespace Segment

def text : Segment → Text
  | .blank c => [c]
  | .boolean value => if value then trueLiteral else falseLiteral
  | .call _ head => head.text
  | .number literal _ => literal
  | .symbol sign => sign.text
  | .reference lead found tail => lead ++ (found.text ++ tail)

inductive Formed : Segment → Prop where
  | blank {c : Char} (blank : Text.isBlank c = true) : Formed (.blank c)
  | boolean (value : Bool) : Formed (.boolean value)
  | call {function : Builtin} {head : CallHead} (calls : head.Calls function) :
      Formed (.call function head)
  | number {literal : Text} {value : Double} (number : Lexer.IsNumber literal value) :
      Formed (.number literal value)
  | symbol (sign : Symbol) : Formed (.symbol sign)
  | reference {lead : Text} {found : Reference} {tail : Text} (legible : found.Legible)
      (digits : ∀ c ∈ lead, Text.isDigit c = true) (fresh : lead ≠ [] → found.kind = .days)
      (literal : Lexer.IsLiteral tail) : Formed (.reference lead found tail)

def closes : Segment → Bool
  | .boolean _ | .number .. | .reference .. | .symbol (.closing _) => true
  | _ => false

def isOperand : Segment → Bool
  | .boolean _ | .call .. | .number .. | .reference .. => true
  | _ => false

structure Apart (first second : Segment) : Prop where
  operands : first.closes = true → second.isOperand = false
  symbols : ∀ sign other, first = .symbol sign → second = .symbol other →
    Lexer.Alone sign other.text

structure Regular (segments : List Segment) : Prop where
  formed : ∀ segment ∈ segments, segment.Formed
  apart : segments.IsChain Apart

variable {segment : Segment} {segments : List Segment} {afterWord : Bool} {behind : Text}

theorem Regular.tail (regular : Regular (segment :: segments)) : Regular segments :=
  ⟨fun other member => regular.formed other (List.mem_cons_of_mem _ member), regular.apart.tail⟩

theorem Regular.head (regular : Regular (segment :: segments)) :
    segment.Formed ∧ ∀ next ∈ segments.head?, Apart segment next :=
  ⟨regular.formed _ List.mem_cons_self, (List.isChain_cons.mp regular.apart).1⟩

theorem silent_literal {functions : List Builtin} {literal : Text}
    (isLiteral : Lexer.IsLiteral literal) :
    Silent (CallHead.read? functions) afterWord literal behind := by
  obtain ⟨numeric, exponent, rfl, each, isExponent⟩ := isLiteral
  have digit : ∀ c, Text.isDigit c = true →
      ∀ after rest, CallHead.read? functions after (c :: rest) = none :=
    fun c digit _ _ =>
      CallHead.read?_eq_none (.inr fun d _ => CallHead.opensName_of_isDigit digit d)
  refine silent_append (silent_of_each fun c member after rest => ?_) ?_
  · have numeric := each c member
    unfold Lexer.isNumeric at numeric
    rcases Bool.or_eq_true_iff.mp numeric with isDigit | point
    · exact digit c isDigit after rest
    · rw [beq_iff_eq.mp point]
      exact CallHead.read?_eq_none (.inl (by decide))
  -- The mark of an exponent is a letter, but what follows it is no second letter of a function
  -- name.
  · by_cases none : exponent = []
    · rw [none]
      trivial
    · obtain ⟨mark, sign, digits, rfl, marked, signed, some, isDigit⟩ := isExponent.parts none
      have signs : ∀ c ∈ sign, c = '+' ∨ c = '-' := by
        rcases signed with rfl | rfl | rfl <;> simp
      have goesOn : ∀ d ∈ (sign ++ digits).head?, d = '+' ∨ d = '-' ∨ Text.isDigit d = true := by
        intro d found
        rcases List.mem_append.mp (List.mem_of_head? found) with member | member
        · exact (signs d member).imp id .inl
        · exact .inr (.inr (isDigit d member))
      refine ⟨CallHead.read?_eq_none (.inr fun d found => ?_),
        silent_of_each fun c member after rest => ?_⟩
      · refine CallHead.opensName_of_exponent marked (goesOn d ?_)
        rwa [List.head?_append_of_ne_nil _ (by simp [some])] at found
      · rcases List.mem_append.mp member with member | member
        · rcases signs c member with rfl | rfl <;> exact CallHead.read?_eq_none (.inl (by decide))
        · exact digit c (isDigit c member) after rest

theorem silent_boolean {functions : List Builtin} (value : Bool) :
    Silent (CallHead.read? functions) false (boolean value).text behind := by
  -- Two letters are enough to tell that no function is called so.
  have word : ∀ {c d : Char} {rest : Text}, CallHead.opensName c d = false → Text.isWord c = true →
      (∀ c ∈ d :: rest, Text.isWord c = true) →
      Silent (CallHead.read? functions) false (c :: d :: rest) behind := by
    intro c d rest other isWord each
    refine ⟨CallHead.read?_eq_none (.inr fun d' found => by cases found; exact other), ?_⟩
    rw [isWord]
    exact silent_of_word (fun _ _ _ => rfl) each
  cases value with
  | false => exact word (by decide) (by decide) (by decide)
  | true => exact word (by decide) (by decide) (by decide)

theorem silent_head {functions : List Builtin} {function : Builtin} {head : CallHead}
    (calls : head.Calls function) (other : function ∉ functions) :
    Silent (CallHead.read? functions) false head.text behind := by
  refine calls.silent ?_ (fun _ _ _ => rfl) fun c gap after rest => CallHead.read?_eq_none (.inl ?_)
  · refine Option.eq_none_iff_forall_ne_some.mpr fun ⟨head', behind'⟩ found => ?_
    obtain ⟨-, ⟨function', member, calls'⟩, whole⟩ := CallHead.read?_eq_some_iff.mp found
    obtain ⟨rfl, -⟩ := calls.unique calls' whole
    rw [calls.name.unique calls'.name] at other
    exact other member
  · rcases gap with blank | rfl
    · exact Text.isWord_of_isBlank blank
    · decide

theorem Formed.silent {functions : List Builtin} (formed : segment.Formed)
    (fresh : afterWord = true → segment.isOperand = false)
    (other : ∀ function head, segment = .call function head → function ∉ functions) :
    Silent (CallHead.read? functions) afterWord segment.text behind := by
  -- Behind a word comes no operand, so whatever looks back finds none.
  have start : segment.isOperand = true → afterWord = false := by
    intro operand
    by_contra word
    rw [fresh (Bool.eq_true_of_not_eq_false word)] at operand
    cases operand
  cases formed with
  | @blank c blank =>
    exact ⟨CallHead.read?_eq_none (.inl (Text.isWord_of_isBlank blank)), trivial⟩
  | boolean value =>
    rw [start rfl]
    exact silent_boolean value
  | call calls =>
    rw [start rfl]
    exact silent_head calls (other _ _ rfl)
  | number number => exact silent_literal number.isLiteral
  | symbol sign =>
    refine silent_of_each fun c member after rest => CallHead.read?_eq_none (.inl ?_)
    have mark := Lexer.isMark_of_mem_text member
    simp only [Lexer.isMark, Bool.and_eq_true, Bool.not_eq_true'] at mark
    exact mark.1.2
  | @reference lead found tail legible digits fresh literal =>
    refine silent_append (silent_of_each fun c member after rest => ?_)
      (silent_append ?_ (silent_literal literal))
    · exact CallHead.read?_eq_none
        (.inr fun d _ => CallHead.opensName_of_isDigit (digits c member) d)
    · obtain ⟨lead', last, shape, closing⟩ := legible.last
      have inner := legible.inner
      rw [shape] at inner ⊢
      refine CallHead.silent_of_inner inner ?_
      rcases closing with rfl | rfl <;> decide

theorem not_mem_starts_of_literal {literal : Text} (isLiteral : Lexer.IsLiteral literal) :
    ∀ c ∈ literal, c ∉ Reference.starts := by
  have plain : ∀ c ∈ Reference.starts, Lexer.isNumeric c = false := by decide
  refine isLiteral.forall (fun c numeric start => ?_) (by decide)
  rw [plain c start] at numeric
  cases numeric

def pieces : Segment → List Piece
  | .reference lead found tail => lead.map .plain ++ .reference found :: tail.map .plain
  | segment => segment.text.map .plain

theorem Formed.ofTextFrom_append (formed : segment.Formed)
    (fresh : afterWord = true → segment.isOperand = false) (quiet : behind.head? ≠ some 'd') :
    Piece.ofTextFrom afterWord (segment.text ++ behind) =
      segment.pieces ++ Piece.ofTextFrom (segment.text.endsWord afterWord) behind := by
  cases formed with
  | @blank c blank =>
    refine Piece.ofTextFrom_append (Reference.silent_of_plain fun d member start => ?_)
    rw [List.mem_singleton.mp member] at start
    rw [Reference.isBlank_of_mem_starts c start] at blank
    cases blank
  | boolean value =>
    refine Piece.ofTextFrom_append (Reference.silent_of_plain ?_)
    cases value <;> decide
  | call calls => exact Piece.ofTextFrom_append (Reference.silent_head calls behind)
  | number number =>
    exact Piece.ofTextFrom_append
      (Reference.silent_of_plain (not_mem_starts_of_literal number.isLiteral))
  | symbol sign =>
    by_cases bracket : sign = .opening .square
    · subst bracket
      exact Piece.ofTextFrom_append ⟨Reference.read?_bracket quiet, trivial⟩
    · refine Piece.ofTextFrom_append (Reference.silent_of_plain ?_)
      cases sign with
      | opening bracket' | closing bracket' =>
        cases bracket' <;> first | decide | exact absurd rfl bracket
      | operator operator => cases operator <;> decide
      | _ => decide
  | @reference lead found tail legible digits days literal =>
    have numeric : ∀ c ∈ lead, c ∉ Reference.starts :=
      not_mem_starts_of_literal
        ⟨lead, [], by simp, fun c member => by simp [Lexer.isNumeric, digits c member], rfl⟩
    have after : lead.endsWord afterWord = true → found.kind = .days := by
      intro word
      refine days ?_
      rintro rfl
      exact absurd (fresh word) (by simp [isOperand])
    simp only [text, List.append_assoc]
    rw [Piece.ofTextFrom_append (Reference.silent_of_plain numeric),
      Piece.ofTextFrom_reference legible after,
      Piece.ofTextFrom_append (Reference.silent_of_plain (not_mem_starts_of_literal literal))]
    simp [pieces, Text.endsWord_append, legible.endsWord]

theorem isWord_of_mem_symbol {sign : Symbol} {c : Char} (member : c ∈ sign.text) :
    Text.isWord c = false := by
  have mark := Lexer.isMark_of_mem_text member
  simp only [Lexer.isMark, Bool.and_eq_true, Bool.not_eq_true'] at mark
  exact mark.1.2

theorem symbol_text_ne_nil (sign : Symbol) : sign.text ≠ [] := by
  cases sign with
  | opening bracket | closing bracket => cases bracket <;> decide
  | operator operator => cases operator <;> decide
  | _ => decide

theorem endsWord_head (head : CallHead) : head.text.endsWord afterWord = false := by
  rw [CallHead.text, Text.endsWord_append]
  exact (by decide : Text.isWord '(' = false)

theorem Formed.closes_of_endsWord (formed : segment.Formed)
    (word : segment.text.endsWord afterWord = true) : segment.closes = true := by
  have plain : ∀ {text : Text}, text ≠ [] → (∀ c ∈ text, Text.isWord c = false) →
      ¬ text.endsWord afterWord = true := by
    intro text some plain
    rw [Text.endsWord_of_plain some plain]
    exact Bool.false_ne_true
  -- Blanks, heads and symbols end with characters of no words.
  cases formed with
  | @blank c blank =>
    refine absurd word (plain (List.cons_ne_nil _ _) fun d member => ?_)
    rw [List.mem_singleton.mp member]
    exact Text.isWord_of_isBlank blank
  | @call function head calls =>
    rw [text, endsWord_head] at word
    cases word
  | symbol sign => exact absurd word (plain (symbol_text_ne_nil sign) fun c => isWord_of_mem_symbol)
  | boolean | number | reference => rfl

def followers : List Char :=
  ['d', '{', '=', '&', '|', '<']

theorem Formed.head (formed : segment.Formed) :
    ∃ c rest, segment.text = c :: rest ∧
      (c ∈ followers → (c ≠ 'd' ∧ c ≠ '{') ∧ ∃ sign, segment = .symbol sign) := by
  cases formed with
  | @blank c blank =>
    have seen : ∀ c ∈ followers, Text.isBlank c = false := by decide
    refine ⟨c, [], rfl, fun member => ?_⟩
    rw [seen c member] at blank
    cases blank
  | boolean value => cases value <;> exact ⟨_, _, rfl, fun member => absurd member (by decide)⟩
  | call calls =>
    have plain : ∀ c ∈ followers, c = 'd' ∨ Text.isWord c = false := by decide
    obtain ⟨c, d, rest, shape, opens, word⟩ := calls.opensName
    refine ⟨c, d :: rest, shape, fun member => ?_⟩
    rcases plain c member with rfl | other
    · rw [CallHead.opensName_days] at opens
      cases opens
    · rw [word] at other
      cases other
  | number number =>
    cases number with
    | @intro c rest decimal starts whole read =>
      have plain : ∀ c ∈ followers, Lexer.isNumeric c = false := by decide
      refine ⟨c, rest, rfl, fun member => ?_⟩
      have numeric := Lexer.isNumeric_of_startsNumber starts
      rw [plain c member] at numeric
      cases numeric
  | symbol sign =>
    cases sign with
    | opening bracket | closing bracket =>
      cases bracket <;> exact ⟨_, _, rfl, fun _ => ⟨by decide, _, rfl⟩⟩
    | operator operator => cases operator <;> exact ⟨_, _, rfl, fun _ => ⟨by decide, _, rfl⟩⟩
    | _ => exact ⟨_, _, rfl, fun _ => ⟨by decide, _, rfl⟩⟩
  | @reference lead found tail legible digits fresh literal =>
    cases lead with
    | nil =>
      have plain : ∀ c ∈ followers, c ∉ Reference.starts := by decide
      obtain ⟨c, rest, shape, start⟩ := legible.head
      exact ⟨c, rest ++ tail, by simp [text, shape], fun member => absurd start (plain c member)⟩
    | cons c lead =>
      have plain : ∀ c ∈ followers, Text.isDigit c = false := by decide
      refine ⟨c, lead ++ (found.text ++ tail), rfl, fun member => ?_⟩
      have digit := digits c List.mem_cons_self
      rw [plain c member] at digit
      cases digit

theorem Formed.quiet (formed : segment.Formed) :
    ∃ c rest, segment.text = c :: rest ∧ c ≠ 'd' ∧ c ≠ '{' := by
  obtain ⟨c, rest, shape, other⟩ := formed.head
  refine ⟨c, rest, shape, ?_, ?_⟩
  · rintro rfl
    exact (other (by decide)).1.1 rfl
  · rintro rfl
    exact (other (by decide)).1.2 rfl

/-- A scanner that goes through single segments goes through formulas segment by segment, however
each segment is written. What is written for one does not go on what precedes it, and ends with a
word only where the segment ends an operand. -/
theorem Regular.scan_written {α : Type} {scan : Bool → Text → List α} {write : Segment → Text}
    {out : Segment → List α} (regular : Regular segments)
    (empty : ∀ afterWord, scan afterWord [] = [])
    (starts : ∀ segment ∈ segments, ∃ c rest, write segment = c :: rest ∧ c ≠ 'd' ∧ c ≠ '{')
    (ends : ∀ segment ∈ segments, ∀ afterWord, (write segment).endsWord afterWord = true →
      segment.closes = true)
    (step : ∀ segment ∈ segments, ∀ afterWord behind,
      (afterWord = true → segment.isOperand = false) →
        behind.head? ≠ some 'd' ∧ behind.head? ≠ some '{' →
        scan afterWord (write segment ++ behind) =
          out segment ++ scan ((write segment).endsWord afterWord) behind)
    (fresh : afterWord = true → ∀ segment ∈ segments.head?, segment.isOperand = false) :
    scan afterWord (segments.flatMap write) = segments.flatMap out := by
  -- The rest is scanned as if it stood alone: it is not taken for a reference that has begun.
  induction segments generalizing afterWord with
  | nil => exact empty afterWord
  | cons segment segments ih =>
    have quiet : (segments.flatMap write).head? ≠ some 'd' ∧
        (segments.flatMap write).head? ≠ some '{' := by
      cases segments with
      | nil => simp
      | cons follower segments =>
        obtain ⟨c, rest, shape, other⟩ :=
          starts follower (List.mem_cons_of_mem _ List.mem_cons_self)
        rw [List.flatMap_cons, shape]
        exact ⟨fun same => other.1 (Option.some.inj same),
          fun same => other.2 (Option.some.inj same)⟩
    rw [List.flatMap_cons, List.flatMap_cons,
      step segment List.mem_cons_self afterWord _ (fun word => fresh word segment rfl) quiet]
    rw [ih regular.tail (fun other member => starts other (List.mem_cons_of_mem _ member))
      (fun other member => ends other (List.mem_cons_of_mem _ member))
      (fun other member => step other (List.mem_cons_of_mem _ member)) fun word follower found =>
        (regular.head.2 follower found).operands (ends segment List.mem_cons_self _ word)]

theorem Regular.scan {α : Type} {scan : Bool → Text → List α} {out : Segment → List α}
    (regular : Regular segments) (empty : ∀ afterWord, scan afterWord [] = [])
    (step : ∀ segment ∈ segments, ∀ afterWord behind, segment.Formed →
      (afterWord = true → segment.isOperand = false) →
      behind.head? ≠ some 'd' ∧ behind.head? ≠ some '{' →
      scan afterWord (segment.text ++ behind) =
        out segment ++ scan (segment.text.endsWord afterWord) behind)
    (fresh : afterWord = true → ∀ segment ∈ segments.head?, segment.isOperand = false) :
    scan afterWord (segments.flatMap text) = segments.flatMap out :=
  regular.scan_written empty (fun segment member => (regular.formed segment member).quiet)
    (fun segment member _ => (regular.formed segment member).closes_of_endsWord)
    (fun segment member afterWord behind =>
      step segment member afterWord behind (regular.formed segment member)) fresh

theorem Regular.ofText (regular : Regular segments) :
    Piece.ofText (segments.flatMap text) = segments.flatMap pieces :=
  regular.scan (fun _ => by rw [Piece.ofTextFrom])
    (fun _ _ _ _ formed fresh quiet => formed.ofTextFrom_append fresh quiet.1)
    fun word => nomatch word

theorem Regular.ofText_plain {functions : List Builtin} (regular : Regular segments)
    (other : ∀ function head, .call function head ∈ segments → function ∉ functions) :
    CallPiece.ofText functions (segments.flatMap text) = (segments.flatMap text).map .plain := by
  rw [List.map_flatMap]
  refine regular.scan (fun _ => by rw [CallPiece.ofTextFrom])
      (fun segment member _ _ formed fresh _ => ?_) fun word =>
    nomatch word
  refine CallPiece.ofTextFrom_append (formed.silent fresh fun function head same => ?_)
  exact other function head (same ▸ member)

def capitalized : Segment → Segment
  | .call function head => .call function head.capitalized
  | segment => segment

theorem Regular.capitalizeCalls (regular : Regular segments) :
    capitalizeCalls (segments.flatMap text) = (segments.map capitalized).flatMap text := by
  rw [List.flatMap_map]
  refine regular.scan (fun _ => by rw [capitalizeCallsFrom])
    (fun segment _ afterWord behind formed fresh _ => ?_) fun word => by cases word
  have silent : (∀ function head, segment ≠ .call function head) →
      capitalizeCallsFrom afterWord (segment.text ++ behind) =
        segment.text ++ capitalizeCallsFrom (segment.text.endsWord afterWord) behind :=
    fun other => capitalizeCallsFrom_append
      (formed.silent fresh fun function head same => absurd same (other _ _))
  cases formed with
  | call calls =>
    have start : afterWord = false := by
      by_contra word
      cases fresh (Bool.eq_true_of_not_eq_false word)
    rw [start, text, capitalizeCallsFrom_head calls, endsWord_head]
    rfl
  | _ => exact silent fun _ _ same => by cases same

structure Alike (first second : Segment) : Prop where
  closes : first.closes = second.closes
  isOperand : first.isOperand = second.isOperand
  symbol : ∀ sign, first = .symbol sign ↔ second = .symbol sign

theorem Regular.map {change : Segment → Segment} (regular : Regular segments)
    (alike : ∀ segment, Alike (change segment) segment)
    (formed : ∀ segment ∈ segments, (change segment).Formed) : Regular (segments.map change) := by
  constructor
  · intro segment member
    obtain ⟨segment, within, rfl⟩ := List.mem_map.mp member
    exact formed segment within
  · refine List.isChain_map_of_isChain _ (fun first second apart => ⟨?_, ?_⟩) regular.apart
    · rw [(alike first).closes, (alike second).isOperand]
      exact apart.operands
    · intro sign other same same'
      exact apart.symbols sign other (((alike first).symbol sign).mp same)
        (((alike second).symbol other).mp same')

theorem alike_capitalized (segment : Segment) : Alike segment.capitalized segment := by
  cases segment <;> exact ⟨rfl, rfl, fun _ => by simp [capitalized]⟩

theorem Formed.capitalized (formed : segment.Formed) : segment.capitalized.Formed := by
  cases formed with
  | call calls => exact .call calls.capitalized
  | blank blank => exact .blank blank
  | boolean value => exact .boolean value
  | number number => exact .number number
  | symbol sign => exact .symbol sign
  | reference legible digits fresh literal => exact .reference legible digits fresh literal

theorem Regular.capitalized (regular : Regular segments) :
    Regular (segments.map Segment.capitalized) :=
  regular.map alike_capitalized fun segment member => (regular.formed segment member).capitalized

def lexemes : Segment → List Lexeme
  | .blank _ | .reference .. => []
  | .boolean value => [.identifier (boolean value).text]
  | .call _ head => [.identifier head.name, .symbol (.opening .round)]
  | .number _ value => [.number value]
  | .symbol sign => [.symbol sign]

theorem Formed.ends (formed : segment.Formed) (plain : segment.isOperand = false) :
    Lexer.Ends (segment.text ++ behind) := by
  have stops : ∀ {c : Char} {rest : Text}, Text.isWord c = false → c ≠ '.' →
      Lexer.Ends (c :: rest ++ behind) := by
    intro c rest notWord notPoint d found
    cases found
    exact ⟨notWord, notPoint⟩
  cases formed with
  | @blank c blank =>
    exact stops (Text.isWord_of_isBlank blank) (Text.ne_of_isBlank blank (by decide))
  | symbol sign =>
    obtain ⟨c, rest, shape⟩ := List.exists_cons_of_ne_nil (symbol_text_ne_nil sign)
    have member : c ∈ sign.text := by simp [shape]
    have mark := Lexer.isMark_of_mem_text member
    simp only [Lexer.isMark, Bool.and_eq_true, bne_iff_ne] at mark
    rw [text, shape]
    exact stops (isWord_of_mem_symbol member) mark.2
  | boolean | call | number | reference => cases plain

theorem ofPair?_eq_none (c : Char) {d : Char} (other : d ∉ followers) :
    Symbol.ofPair? c d = none := by
  unfold Symbol.ofPair?
  split <;> first | rfl | exact absurd (by decide) other

theorem Formed.alone (formed : segment.Formed) {sign : Symbol}
    (apart : Apart (.symbol sign) segment) : Lexer.Alone sign (segment.text ++ behind) := by
  intro c single d found
  obtain ⟨d', rest, shape, other⟩ := formed.head
  rw [shape] at found
  cases found
  -- Only another symbol can go on a symbol, and it is apart from it.
  by_cases member : d ∈ followers
  · obtain ⟨-, sign', rfl⟩ := other member
    exact apart.symbols sign sign' rfl rfl c single d
      (by rw [show sign'.text = d :: rest from shape]; rfl)
  · exact ofPair?_eq_none c member

theorem isName_of_calls {head : CallHead} {function : Builtin} (calls : head.Calls function) :
    Lexer.IsName head.name := by
  have word := Text.isWord_of_spelling calls.name
  have within := calls.name.within
  have letter : ∃ first rest, function.name = first :: rest ∧ Text.isDigit first = false := by
    cases function <;> exact ⟨_, _, rfl, by decide⟩
  obtain ⟨first, rest, name, letter⟩ := letter
  rw [name] at within
  obtain ⟨c, later, ⟨member, spelled⟩, -, shape⟩ := List.forall₂_cons_left_iff.mp within
  -- Function names begin with letters, and so does every spelling of them.
  have start :=
    Text.of_spells (fun e c => Text.isDigit e || (Text.isWordStart c && !Text.isDigit c))
      (by decide +kernel) member spelled
  simp only [letter, Bool.false_or, Bool.and_eq_true, Bool.not_eq_true'] at start
  rw [shape] at word ⊢
  exact .intro start.1 start.2 fun d within => word d (List.mem_cons_of_mem c within)

theorem lexes_blanks {gap : Text} (blank : ∀ c ∈ gap, Text.isBlank c = true) {lexemes : List Lexeme}
    (more : Lexer.Lexes behind lexemes) : Lexer.Lexes (gap ++ behind) lexemes := by
  induction gap with
  | nil => exact more
  | cons c gap ih =>
    exact .blank (blank c List.mem_cons_self)
      (ih fun d member => blank d (List.mem_cons_of_mem c member))

theorem ends_of_calls {head : CallHead} {function : Builtin} (calls : head.Calls function) :
    Lexer.Ends (head.gap ++ '(' :: behind) := by
  intro c found
  rcases calls.behind_name behind c found with blank | rfl
  · exact ⟨Text.isWord_of_isBlank blank, Text.ne_of_isBlank blank (by decide)⟩
  · decide

theorem lexes_head {head : CallHead} {function : Builtin} (calls : head.Calls function)
    {lexemes : List Lexeme} (more : Lexer.Lexes behind lexemes) :
    Lexer.Lexes (head.text ++ behind)
      (.identifier head.name :: .symbol (.opening .round) :: lexemes) := by
  rw [CallHead.text_append]
  have alone : Lexer.Alone (.opening .round) behind := by
    rintro c ⟨⟩ d -
    rfl
  exact .name (isName_of_calls calls) (ends_of_calls calls)
    (lexes_blanks calls.gap (.symbol alone more))

/-- The lexemes of a formula without references are those of its segments. -/
theorem Regular.lexes (regular : Regular segments)
    (filled : ∀ lead found tail, .reference lead found tail ∉ segments) :
    Lexer.Lexes (segments.flatMap text) (segments.flatMap lexemes) := by
  induction segments with
  | nil => exact .nil
  | cons segment segments ih =>
    have more :=
      ih regular.tail
        fun lead found tail member => filled lead found tail (List.mem_cons_of_mem _ member)
    obtain ⟨formed, apart⟩ := regular.head
    -- What follows a word or a number decides that it ends there.
    have ends : segment.closes = true → Lexer.Ends (segments.flatMap text) := by
      intro closes
      cases segments with
      | nil => exact Lexer.ends_nil
      | cons follower segments =>
        rw [List.flatMap_cons]
        exact regular.tail.head.1.ends ((apart follower rfl).operands closes)
    rw [List.flatMap_cons, List.flatMap_cons]
    cases formed with
    | blank blank => exact .blank blank more
    | boolean value =>
      refine .name ?_ (ends rfl) more
      cases value <;> exact .intro (by decide) (by decide) (by decide)
    | call calls => exact lexes_head calls more
    | number number => exact .number number (ends rfl) more
    | symbol sign =>
      refine .symbol ?_ more
      cases segments with
      | nil => exact fun _ _ _ found => nomatch found
      | cons follower segments => exact regular.tail.head.1.alone (apart follower rfl)
    | reference => exact absurd List.mem_cons_self (filled _ _ _)

/-- Some segments may stand for one: they are regular, and whatever is apart from the one is apart
from them. -/
structure Fits (segment : Segment) (others : List Segment) : Prop where
  some : others ≠ []
  regular : Regular others
  first : ∀ before, Apart before segment → ∀ other ∈ others.head?, Apart before other
  last : ∀ behind, Apart segment behind → ∀ other ∈ others.getLast?, Apart other behind

theorem fits_single {other : Segment} (formed : other.Formed) (plain : ∀ sign, other ≠ .symbol sign)
    (closes : other.closes = true → segment.closes = true)
    (operand : other.isOperand = true → segment.isOperand = true) : Fits segment [other] := by
  refine ⟨List.cons_ne_nil _ _, ⟨?_, List.isChain_singleton _⟩, ?_, ?_⟩
  · exact fun other member => List.mem_singleton.mp member ▸ formed
  · rintro before apart other ⟨⟩
    refine ⟨fun closed => ?_, fun _ sign _ same => absurd same (plain sign)⟩
    -- If it began an operand then the segment would, too.
    by_contra begins
    have separate := apart.operands closed
    rw [operand (Bool.eq_true_of_not_eq_false begins)] at separate
    cases separate
  · rintro behind apart other ⟨⟩
    exact ⟨fun closed => apart.operands (closes closed),
      fun sign _ same _ => absurd same (plain sign)⟩

theorem apart_opening (before : Segment) (bracket : Bracket) :
    Apart before (.symbol (.opening bracket)) := by
  refine ⟨fun _ => rfl, ?_⟩
  rintro sign other - ⟨⟩ c - d found
  refine ofPair?_eq_none c ?_
  cases bracket <;> cases found <;> decide

theorem apart_closing {behind : Segment} (bracket : Bracket) (plain : behind.isOperand = false) :
    Apart (.symbol (.closing bracket)) behind := by
  refine ⟨fun _ => plain, ?_⟩
  rintro sign other ⟨⟩ - c single d -
  cases bracket <;> cases single <;> rfl

theorem fits_group (inner : List Segment) (closes : segment.closes = true)
    (regular : Regular ([.symbol (.opening .round)] ++ inner ++ [.symbol (.closing .round)])) :
    Fits segment ([.symbol (.opening .round)] ++ inner ++ [.symbol (.closing .round)]) := by
  refine ⟨by simp, regular, ?_, ?_⟩
  · rintro before - other ⟨⟩
    exact apart_opening before .round
  · intro behind apart other ends
    rw [List.getLast?_append_of_ne_nil _ (by simp)] at ends
    cases ends
    exact apart_closing .round (apart.operands closes)

theorem fits_self (formed : segment.Formed) : Fits segment [segment] := by
  refine ⟨List.cons_ne_nil _ _, ⟨?_, List.isChain_singleton _⟩, ?_, ?_⟩
  · exact fun other member => List.mem_singleton.mp member ▸ formed
  · rintro before apart other ⟨⟩
    exact apart
  · rintro behind apart other ⟨⟩
    exact apart

/-- Formulas stay regular if what stands for their segments fits. -/
theorem Regular.flatMap {change : Segment → List Segment} (regular : Regular segments)
    (fits : ∀ segment ∈ segments, Fits segment (change segment)) :
    Regular (segments.flatMap change) := by
  refine ⟨fun other member => ?_, ?_⟩
  · obtain ⟨segment, within, member⟩ := List.mem_flatMap.mp member
    exact (fits segment within).regular.formed other member
  induction segments with
  | nil => exact .nil
  | cons segment segments ih =>
    have here := fits segment List.mem_cons_self
    have later := ih regular.tail fun other member => fits other (List.mem_cons_of_mem _ member)
    rw [List.flatMap_cons]
    -- Only the seam is left, between the last of these and the first of what stands for the
    -- follower.
    refine here.regular.apart.append later fun last ends first begins => ?_
    cases segments with
    | nil => cases begins
    | cons follower segments =>
      have next := fits follower (List.mem_cons_of_mem _ List.mem_cons_self)
      rw [List.flatMap_cons, List.head?_append_of_ne_nil _ next.some] at begins
      exact here.last first (next.first segment (regular.head.2 follower rfl) first begins) last
        ends

end Segment
end IndicatorFormula
