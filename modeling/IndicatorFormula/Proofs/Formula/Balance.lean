import IndicatorFormula.Proofs.Expression.Parsing
import IndicatorFormula.Proofs.Formula.Cutting

/-! Brackets that close.

Every bracket of a sentence of the grammar closes, so every bracket of a text that is parsed does,
and every call in it. That holds of round and square brackets alike because the scanner for calls
does not tell them apart. -/

set_option autoImplicit false
namespace IndicatorFormula

/-- What something does to the number of brackets that are open. -/
inductive Nesting where
  | opens
  | closes
  | stays
  deriving DecidableEq

/-- How many brackets are open behind something, unless it closes one that has not been opened. -/
def Nesting.turn : Nesting → Nat → Option Nat
  | .opens, depth => some (depth + 1)
  | .closes, depth + 1 => some depth
  | .closes, 0 => none
  | .stays, depth => some depth

def depth? {α : Type} (nesting : α → Nesting) (depth : Nat) (list : List α) : Option Nat :=
  list.foldlM (fun depth x => (nesting x).turn depth) depth

/-- What a list opens it closes, and nothing else. -/
def Balanced {α : Type} (nesting : α → Nesting) (list : List α) : Prop :=
  ∀ depth, depth? nesting depth list = some depth

section

variable {α : Type} {nesting : α → Nesting}

theorem depth?_append (depth : Nat) (list more : List α) :
    depth? nesting depth (list ++ more) =
      (depth? nesting depth list).bind fun deeper => depth? nesting deeper more :=
  List.foldlM_append

theorem depth?_cons (depth : Nat) (x : α) (rest : List α) :
    depth? nesting depth (x :: rest) =
      ((nesting x).turn depth).bind fun deeper => depth? nesting deeper rest :=
  List.foldlM_cons

theorem depth?_opens {x : α} (opens : nesting x = .opens) (depth : Nat) (rest : List α) :
    depth? nesting depth (x :: rest) = depth? nesting (depth + 1) rest := by
  rw [depth?_cons, opens]
  rfl

theorem depth?_closes {x : α} (closes : nesting x = .closes) (depth : Nat) (rest : List α) :
    depth? nesting (depth + 1) (x :: rest) = depth? nesting depth rest := by
  rw [depth?_cons, closes]
  rfl

theorem depth?_stays {x : α} (stays : nesting x = .stays) (depth : Nat) (rest : List α) :
    depth? nesting depth (x :: rest) = depth? nesting depth rest := by
  rw [depth?_cons, stays]
  rfl

theorem depth?_flatMap_congr {β : Type} {items : List β} {old new : β → List α}
    (same : ∀ item ∈ items, ∀ depth, depth? nesting depth (new item) =
      depth? nesting depth (old item)) (depth : Nat) :
    depth? nesting depth (items.flatMap new) = depth? nesting depth (items.flatMap old) := by
  induction items generalizing depth with
  | nil => rfl
  | cons item items ih =>
    rw [List.flatMap_cons, List.flatMap_cons, depth?_append, depth?_append,
      same item List.mem_cons_self depth]
    congr 1
    funext deeper
    exact ih (fun other member => same other (List.mem_cons_of_mem _ member)) deeper

theorem balanced_nil : Balanced nesting [] :=
  fun _ => rfl

theorem balanced_of_stays {list : List α} (stays : ∀ x ∈ list, nesting x = .stays) :
    Balanced nesting list := by
  intro depth
  induction list with
  | nil => rfl
  | cons x list ih =>
    rw [depth?_stays (stays x List.mem_cons_self)]
    exact ih fun y member => stays y (List.mem_cons_of_mem x member)

theorem Balanced.append {list more : List α} (first : Balanced nesting list)
    (second : Balanced nesting more) : Balanced nesting (list ++ more) := by
  intro depth
  rw [depth?_append, first depth, Option.bind_some, second depth]

theorem Balanced.cons {x : α} {list : List α} (stays : nesting x = .stays)
    (balanced : Balanced nesting list) : Balanced nesting (x :: list) := by
  intro depth
  rw [depth?_stays stays, balanced depth]

theorem Balanced.enclosed {first last : α} {list : List α} (opens : nesting first = .opens)
    (balanced : Balanced nesting list) (closes : nesting last = .closes) :
    Balanced nesting (first :: list ++ [last]) := by
  intro depth
  rw [List.cons_append, depth?_opens opens, depth?_append, balanced (depth + 1), Option.bind_some,
    depth?_closes closes]
  rfl

theorem Nesting.turn_around {kind : Nesting} {depth deeper : Nat}
    (turned : kind.turn depth = some deeper) (outside : Nat) :
    kind.turn (depth + outside) = some (deeper + outside) := by
  cases kind with
  | opens =>
    cases turned
    exact congrArg some (Nat.add_right_comm ..)
  | stays =>
    cases turned
    rfl
  | closes =>
    cases depth with
    | zero => cases turned
    | succ depth =>
      cases turned
      rw [Nat.add_right_comm]
      rfl

theorem depth?_around {list : List α} {depth deeper : Nat}
    (within : depth? nesting depth list = some deeper) (outside : Nat) :
    depth? nesting (depth + outside) list = some (deeper + outside) := by
  induction list generalizing depth with
  | nil => rw [Option.some.inj within]; rfl
  | cons x list ih =>
    rw [depth?_cons] at within
    obtain ⟨middle, turned, within⟩ := Option.bind_eq_some_iff.mp within
    rw [depth?_cons, Nesting.turn_around turned, Option.bind_some, ih within]

theorem balanced_of_depth? {list : List α} (closed : depth? nesting 0 list = some 0) :
    Balanced nesting list := by
  intro depth
  have whole := depth?_around closed depth
  rwa [Nat.zero_add] at whole

theorem Balanced.depth?_eq {list : List α} (balanced : Balanced nesting list) (depth : Nat)
    (more : List α) : depth? nesting depth (list ++ more) = depth? nesting depth more := by
  rw [depth?_append, balanced depth, Option.bind_some]

theorem exists_closing_around {list : List α} {depth outside : Nat}
    (closed : depth? nesting (outside + 1 + depth) list = some 0) :
    ∃ inner last later, list = inner ++ last :: later ∧ depth? nesting depth inner = some 0 ∧
      nesting last = .closes ∧ depth? nesting outside later = some 0 := by
  induction list generalizing depth with
  | nil =>
    have impossible : outside + 1 + depth = 0 := Option.some.inj closed
    omega
  | cons x list ih =>
    -- The first bracket to close at the depth itself is the one.
    cases kind : nesting x with
    | opens =>
      rw [depth?_opens kind, Nat.add_assoc] at closed
      obtain ⟨inner, last, later, rfl, within, closes, behind⟩ := ih closed
      exact ⟨x :: inner, last, later, rfl, by rw [depth?_opens kind, within], closes, behind⟩
    | stays =>
      rw [depth?_stays kind] at closed
      obtain ⟨inner, last, later, rfl, within, closes, behind⟩ := ih closed
      exact ⟨x :: inner, last, later, rfl, by rw [depth?_stays kind, within], closes, behind⟩
    | closes =>
      cases depth with
      | zero =>
        rw [Nat.add_zero, depth?_closes kind] at closed
        exact ⟨[], x, list, rfl, rfl, kind, closed⟩
      | succ depth =>
        rw [← Nat.add_assoc, depth?_closes kind] at closed
        obtain ⟨inner, last, later, rfl, within, closes, behind⟩ := ih closed
        exact ⟨x :: inner, last, later, rfl, by rw [depth?_closes kind, within], closes, behind⟩

theorem exists_closing {list : List α} {depth : Nat}
    (closed : depth? nesting (depth + 1) list = some 0) :
    ∃ inner last later, list = inner ++ last :: later ∧ Balanced nesting inner ∧
      nesting last = .closes ∧ depth? nesting depth later = some 0 := by
  obtain ⟨inner, last, later, whole, within, rest⟩ :=
    exists_closing_around (show depth? _ (_ + 1 + 0) _ = _ from closed)
  exact ⟨inner, last, later, whole, balanced_of_depth? within, rest⟩

end

def Text.nesting (c : Char) : Nesting :=
  if c = '(' || c = '[' then .opens else if c = ')' || c = ']' then .closes else .stays

def Lexeme.nesting : Lexeme → Nesting
  | .symbol (.opening _) => .opens
  | .symbol (.closing _) => .closes
  | _ => .stays

def Token.nesting (token : Token) : Nesting :=
  token.lexeme.nesting

theorem stays_unary (operator : UnaryOperator) (position : Nat) :
    Token.nesting ⟨.symbol operator.symbol, position⟩ = .stays := by
  cases operator <;> rfl

mutual

theorem balanced_of_derives : {category : Category} → {tokens : List Token} → {tree : Expr} →
    Derives category tokens tree → Balanced Token.nesting tokens
  | _, _, _, .tighter _ derives => balanced_of_derives derives
  | _, _, _, .binary _ _ derives derives' =>
    (balanced_of_derives derives).append ((balanced_of_derives derives').cons rfl)
  | _, _, _, .unary operator position derives =>
    (balanced_of_derives derives).cons (stays_unary operator position)
  | _, _, _, .number value position => balanced_nil.cons rfl
  | _, _, _, .name name position => balanced_nil.cons rfl
  | _, _, _, .group opening closing derives => (balanced_of_derives derives).enclosed rfl rfl
  | _, _, _, .list opening closing derives => (balanced_of_derivesItems derives).enclosed rfl rfl
  | _, _, _, .call name position opening closing derives =>
    ((balanced_of_derivesItems derives).enclosed rfl rfl).cons rfl

theorem balanced_of_derivesItems : {tokens : List Token} → {items : List Expr} →
    DerivesItems tokens items → Balanced Token.nesting tokens
  | _, _, .none => balanced_nil
  | _, _, .single derives => balanced_of_derives derives
  | _, _, .further items _ _ derives =>
    (balanced_of_derivesItems items).append ((balanced_of_derives derives).cons rfl)

end

theorem balanced_of_tree {lexemes : List Lexeme} {tree : Expr}
    (reads : Parser.tree lexemes = .ok tree) : Balanced Lexeme.nesting lexemes := by
  intro depth
  rw [← balanced_of_derives (Parser.tree_eq_ok_iff.mp reads) depth]
  unfold depth?
  rw [unplacedTokens, List.foldlM_map]
  rfl

namespace Text

theorem stays_of_ne {c : Char} (other : ∀ mark ∈ ['(', '[', ')', ']'], c ≠ mark) :
    nesting c = .stays := by
  simp only [List.mem_cons, List.not_mem_nil, or_false, forall_eq_or_imp, forall_eq] at other
  simp [nesting, other]

theorem stays_of_isWord {c : Char} (word : isWord c = true) : nesting c = .stays := by
  refine stays_of_ne fun mark member => ?_
  have plain : ∀ mark ∈ ['(', '[', ')', ']'], isWord mark = false := by decide
  rintro rfl
  rw [plain c member] at word
  cases word

theorem stays_of_isBlank {c : Char} (blank : isBlank c = true) : nesting c = .stays := by
  refine stays_of_ne fun mark member => ne_of_isBlank blank ?_
  have plain : ∀ mark ∈ ['(', '[', ')', ']'], isBlank mark = false := by decide
  exact plain mark member

theorem stays_of_isNumeric {c : Char} (numeric : Lexer.isNumeric c = true) :
    nesting c = .stays := by
  rcases Bool.or_eq_true_iff.mp numeric with digit | point
  · exact stays_of_isWord (Lexer.isWord_of_isDigit digit)
  · rw [beq_iff_eq.mp point]
    rfl

end Text

namespace Lexer

theorem stays_splitExponent (text : Text) :
    ∀ c ∈ (splitExponent text).1, Text.nesting c = .stays := by
  cases text with
  | nil => simp [splitExponent]
  | cons mark rest =>
    simp only [splitExponent]
    split
    · rename_i exponent
      have sign : ∀ c ∈ (splitSign rest).1, Text.nesting c = .stays := by
        unfold splitSign
        split <;> simp [Text.nesting]
      simp only [Bool.and_eq_true, Bool.or_eq_true, decide_eq_true_eq] at exponent
      intro c member
      rw [List.mem_append, List.mem_cons] at member
      rcases member with (rfl | member) | member
      · rcases exponent.1 with rfl | rfl <;> rfl
      · exact sign c member
      · exact Text.stays_of_isWord (isWord_of_isDigit (List.mem_takeWhile_imp member))
    · simp

theorem depth?_of_next {c : Char} {rest behind : Text} {lexeme : Option Lexeme}
    (step : next c rest = .ok (lexeme, behind)) :
    ∃ lead, c :: rest = lead ++ behind ∧
      ∀ depth, depth? Text.nesting depth lead = depth? Lexeme.nesting depth lexeme.toList := by
  -- Apart from brackets nothing in a text or among lexemes counts.
  have quiet : ∀ {lead : Text} {lexeme : Option Lexeme}, (∀ d ∈ lead, Text.nesting d = .stays) →
      (∀ other ∈ lexeme.toList, Lexeme.nesting other = .stays) →
      ∀ depth, depth? Text.nesting depth lead = depth? Lexeme.nesting depth lexeme.toList :=
    fun lead lexeme depth => by
    rw [balanced_of_stays lead depth, balanced_of_stays lexeme depth]
  cases lexeme with
  | none =>
    obtain ⟨blank, rfl⟩ := blank_of_next step
    exact ⟨[c], rfl, quiet (by simpa using Text.stays_of_isBlank blank) nofun⟩
  | some lexeme =>
    cases lexeme with
    | number value =>
      obtain ⟨starts, -, rfl⟩ := isNumber_of_next step
      refine ⟨_, (splitNumber_append c rest).symm,
        quiet (fun d member => ?_) (by simp [Lexeme.nesting])⟩
      simp only [splitNumber, List.mem_append, List.mem_cons] at member
      rcases member with (rfl | member) | member
      · exact Text.stays_of_isNumeric (isNumeric_of_startsNumber starts)
      · exact Text.stays_of_isNumeric (List.mem_takeWhile_imp member)
      · exact stays_splitExponent _ d member
    | identifier name =>
      obtain ⟨-, -, rfl, rfl⟩ := identifier_of_next step
      refine ⟨_, List.takeWhile_append_dropWhile.symm,
        quiet (fun d member => ?_) (by simp [Lexeme.nesting])⟩
      exact Text.stays_of_isWord (List.mem_takeWhile_imp member)
    | symbol sign =>
      obtain ⟨whole, -⟩ := symbol_of_next step
      refine ⟨sign.text, whole, fun depth => ?_⟩
      cases sign with
      | opening bracket => cases bracket <;> rfl
      | closing bracket => cases bracket <;> cases depth <;> rfl
      | operator operator => cases operator <;> rfl
      | _ => rfl

theorem Lexes.depth?_eq {text : Text} {lexemes : List Lexeme} (lexes : Lexes text lexemes)
    (depth : Nat) : depth? Text.nesting depth text = depth? Lexeme.nesting depth lexemes := by
  induction lexes generalizing depth with
  | nil => rfl
  | cons step more ih =>
    obtain ⟨lead, whole, same⟩ := depth?_of_next step
    rw [whole, depth?_append, depth?_append, same]
    congr 1
    funext deeper
    exact ih deeper

end Lexer

/-- A text that is parsed is balanced. -/
theorem balanced_of_parse {text : Text} {tree : Expr} (parsed : Expr.parse text = .ok tree) :
    Balanced Text.nesting text := by
  obtain ⟨tokens, cut, parsed⟩ := bind_eq_ok_iff.mp parsed
  intro depth
  rw [(Lexer.lexes_of_tokensFrom cut).depth?_eq depth,
    ← balanced_of_derives (Parser.sentence_of_parse parsed) depth]
  exact List.foldlM_map ..

theorem CallHead.Calls.depth?_eq {head : CallHead} {function : Builtin}
    (calls : head.Calls function) (depth : Nat) (behind : Text) :
    depth? Text.nesting depth (head.text ++ behind) = depth? Text.nesting (depth + 1) behind := by
  have name : Balanced Text.nesting head.name := balanced_of_stays fun c member =>
    Text.stays_of_isWord (Text.isWord_of_spelling calls.name c member)
  have gap : Balanced Text.nesting head.gap := balanced_of_stays fun c member =>
    Text.stays_of_isBlank (calls.gap c member)
  rw [CallHead.text_append, name.depth?_eq, gap.depth?_eq]
  rfl

theorem depth?_capitalizeCallsFrom (afterWord : Bool) (text : Text) (depth : Nat) :
    depth? Text.nesting depth (capitalizeCallsFrom afterWord text) =
      depth? Text.nesting depth text := by
  fun_induction capitalizeCallsFrom afterWord text generalizing depth with
  | case1 => rfl
  | case2 afterWord c rest head behind read ih =>
    obtain ⟨-, ⟨function, -, calls⟩, whole⟩ := CallHead.read?_eq_some_iff.mp read
    rw [whole, calls.depth?_eq, calls.capitalized.depth?_eq, ih]
  | case3 afterWord c rest none ih => simp only [depth?_cons, ih]

theorem Reference.Legible.balanced {reference : Reference} (legible : reference.Legible) :
    Balanced Text.nesting reference.text := by
  cases legible with
  | days =>
    have word : Balanced Text.nesting ['d', 'a', 'y', 's'] := balanced_of_stays (by decide)
    exact word.enclosed (show Text.nesting '[' = .opens from rfl)
      (show Text.nesting ']' = .closes from rfl)
  | @braced kind parts member some few each =>
    have key : ∀ c ∈ kind.key, Text.nesting c = .stays := by
      cases kind <;> first | decide | exact absurd member (by decide)
    refine balanced_of_stays fun c found => ?_
    rw [(text_braced member parts).2, List.mem_append, List.mem_append, List.mem_cons,
      List.mem_singleton] at found
    rcases found with (found | rfl | found) | rfl
    · exact key c found
    · rfl
    · rcases mem_join found with rfl | ⟨part, within, found⟩
      · rfl
      · rcases Bool.or_eq_true_iff.mp ((each part within).2 c found) with word | star
        · exact Text.stays_of_isWord word
        · rw [beq_iff_eq.mp star]
          rfl
    · rfl

section

variable {c : Char} {depth : Nat}

theorem opens_iff : Text.nesting c = .opens ↔ (c = '(' || c = '[') = true := by
  unfold Text.nesting
  split
  · exact iff_of_true rfl ‹_›
  · split <;> exact iff_of_false nofun ‹_›

theorem closes_iff :
    Text.nesting c = .closes ↔ ¬ (c = '(' || c = '[') = true ∧ (c = ')' || c = ']') = true := by
  unfold Text.nesting
  split
  · exact iff_of_false nofun fun both => both.1 ‹_›
  · split
    · exact iff_of_true rfl ⟨‹_›, ‹_›⟩
    · exact iff_of_false nofun fun both => absurd both.2 ‹_›

theorem splitClosing?_opens (opens : Text.nesting c = .opens) (depth : Nat) (rest : Text) :
    splitClosing? depth (c :: rest) =
      (splitClosing? (depth + 1) rest).map fun found => (c :: found.1, found.2) := by
  rw [splitClosing?.eq_def]
  exact if_pos (opens_iff.mp opens)

theorem splitClosing?_closes (closes : Text.nesting c = .closes) (depth : Nat) (rest : Text) :
    splitClosing? depth (c :: rest) =
      match depth with
      | 0 => some ([], c, rest)
      | depth + 1 => (splitClosing? depth rest).map fun found => (c :: found.1, found.2) := by
  obtain ⟨other, closes⟩ := closes_iff.mp closes
  rw [splitClosing?.eq_def]
  exact (if_neg other).trans (if_pos closes)

theorem splitClosing?_stays (stays : Text.nesting c = .stays) (depth : Nat) (rest : Text) :
    splitClosing? depth (c :: rest) =
      (splitClosing? depth rest).map fun found => (c :: found.1, found.2) := by
  have notOpens : ¬ (c = '(' || c = '[') = true := fun opens => by
    rw [opens_iff.mpr opens] at stays
    cases stays
  have notCloses : ¬ (c = ')' || c = ']') = true := fun closes => by
    rw [closes_iff.mpr ⟨notOpens, closes⟩] at stays
    cases stays
  rw [splitClosing?.eq_def]
  exact (if_neg notOpens).trans (if_neg notCloses)

end

theorem splitClosing?_append {argument : Text} {closer : Char} {depth : Nat}
    (within : depth? Text.nesting depth argument = some 0) (closes : Text.nesting closer = .closes)
    (behind : Text) :
    splitClosing? depth (argument ++ closer :: behind) = some (argument, closer, behind) := by
  induction argument generalizing depth with
  | nil =>
    cases within
    exact splitClosing?_closes closes 0 behind
  | cons c argument ih =>
    cases nesting : Text.nesting c with
    | opens =>
      rw [depth?_opens nesting] at within
      rw [List.cons_append, splitClosing?_opens nesting, ih within]
      rfl
    | stays =>
      rw [depth?_stays nesting] at within
      rw [List.cons_append, splitClosing?_stays nesting, ih within]
      rfl
    | closes =>
      cases depth with
      | zero =>
        rw [depth?_cons, nesting] at within
        cases within
      | succ depth =>
        rw [depth?_closes nesting] at within
        rw [List.cons_append, splitClosing?_closes nesting]
        simp only [ih within, Option.map_some]

namespace CallPiece

theorem ofHead_append (head : CallHead) {argument : Text} {closer : Char}
    (balanced : Balanced Text.nesting argument) (closes : Text.nesting closer = .closes)
    (behind : Text) :
    ofHead head (argument ++ closer :: behind) = (.call head argument closer, behind) := by
  rw [ofHead, splitClosing?_append (balanced 0) closes]

/-- All calls close if nothing is open in the end. -/
theorem ofTextFrom_closes (functions : List Builtin) {afterWord : Bool} {text : Text} {depth : Nat}
    (closed : depth? Text.nesting depth text = some 0) (head : CallHead) :
    .unclosed head ∉ ofTextFrom functions afterWord text := by
  fun_induction ofTextFrom functions afterWord text generalizing depth with
  | case1 => exact List.not_mem_nil
  | case2 afterWord c rest head' behind read ih =>
    obtain ⟨-, ⟨function, -, calls⟩, whole⟩ := CallHead.read?_eq_some_iff.mp read
    rw [whole, calls.depth?_eq] at closed
    -- The call takes in what is balanced and ends, and behind it nothing more is open than before
    -- it.
    obtain ⟨argument, closer, later, rfl, balanced, closes, closed⟩ := exists_closing closed
    rw [ofHead_append head' balanced closes] at ih ⊢
    intro member
    rcases List.mem_cons.mp member with impossible | member
    · cases impossible
    · exact ih closed member
  | case3 afterWord c rest none ih =>
    rw [depth?_cons] at closed
    obtain ⟨deeper, -, closed⟩ := Option.bind_eq_some_iff.mp closed
    intro member
    rcases List.mem_cons.mp member with impossible | member
    · cases impossible
    · exact ih closed member

end CallPiece
end IndicatorFormula
