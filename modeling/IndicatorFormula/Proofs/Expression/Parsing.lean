import IndicatorFormula.Proofs.Expression.Grammar

/-! The parser finds the tree of every sentence.

Behind the tokens of an expression the parser may still hold operators unapplied. They are applied
before anything that could tell the difference, so its state is as good as one with the finished
expression. -/

set_option autoImplicit false
namespace IndicatorFormula

def unplacedTokens (lexemes : List Lexeme) : List Token :=
  lexemes.map fun lexeme => ⟨lexeme, 0⟩

@[simp] theorem unplacedTokens_cons (lexeme : Lexeme) (lexemes : List Lexeme) :
    unplacedTokens (lexeme :: lexemes) = ⟨lexeme, 0⟩ :: unplacedTokens lexemes :=
  List.map_cons

@[simp] theorem unplacedTokens_append (lexemes more : List Lexeme) :
    unplacedTokens (lexemes ++ more) = unplacedTokens lexemes ++ unplacedTokens more :=
  List.map_append

theorem map_lexeme_unplacedTokens (lexemes : List Lexeme) :
    (unplacedTokens lexemes).map Token.lexeme = lexemes := by
  rw [unplacedTokens, List.map_map]
  exact List.map_id lexemes

namespace Parser

theorem reduce_expected {frames : List Frame} {operator : BinaryOperator}
    (fits : (expected frames).rank ≤ operator.level) (tree : Expr) :
    reduce operator.leftLevel frames tree = (frames, tree) := by
  cases frames with
  | nil => rfl
  | cons frame frames =>
    cases frame with
    | unary sign position =>
      have high : Category.signed.rank ≤ operator.level := fits
      rw [reduce, if_neg]
      change ¬ operator.leftLevel ≤ 6
      revert high
      cases operator <;> decide
    | binary other position first =>
      rw [reduce, if_neg]
      cases other <;> cases operator <;>
        first | decide | exact absurd fits (by simp only [expected]; decide)
    | group | list | call => rfl

/-- A state is as good as one with an expression behind frames, except for operators that bind more
tightly than a level. -/
def Completes (state : State) (frames : List Frame) (tree : Expr) (level : Nat) : Prop :=
  ∃ inner expression, (∀ token : Token, token.lexeme ≠ .symbol (.opening .round) →
      step state token = stepOperator inner expression token) ∧
    finish state = finishOperator inner expression ∧
    -- The level of powers itself is never asked for: a power is only compared with what stands on
    -- its left.
    ∀ lower ≤ level, lower ≠ BinaryOperator.pow.level →
      reduce lower inner expression = reduce lower frames tree

namespace Completes

variable {state : State} {frames : List Frame} {tree : Expr} {level : Nat}

theorem operator (frames : List Frame) (tree : Expr) (level : Nat) :
    Completes (.operator frames tree) frames tree level :=
  ⟨frames, tree, fun _ _ => rfl, rfl, fun _ _ _ => rfl⟩

theorem mono {lower : Nat} (completes : Completes state frames tree level) (le : lower ≤ level) :
    Completes state frames tree lower := by
  obtain ⟨inner, expression, steps, ends, same⟩ := completes
  exact ⟨inner, expression, steps, ends, fun lowest below => same lowest (below.trans le)⟩

theorem reduced {frames' : List Frame} {tree' : Expr} {lower : Nat}
    (completes : Completes state frames tree level)
    (same : ∀ lowest ≤ lower, lowest ≠ BinaryOperator.pow.level →
      lowest ≤ level ∧ reduce lowest frames tree = reduce lowest frames' tree') :
    Completes state frames' tree' lower := by
  obtain ⟨inner, expression, steps, ends, same'⟩ := completes
  refine ⟨inner, expression, steps, ends, fun lowest below other => ?_⟩
  obtain ⟨le, same⟩ := same lowest below other
  rw [same' lowest le other, same]

theorem finish_eq (completes : Completes state frames tree level) :
    finish state = finishOperator frames tree := by
  obtain ⟨inner, expression, -, ends, same⟩ := completes
  rw [ends, finishOperator, same 0 (Nat.zero_le _) (by decide), finishOperator]

theorem step_operator {operator : BinaryOperator}
    (completes : Completes state frames tree operator.leftLevel)
    (fits : (expected frames).rank ≤ operator.level) (position : Nat) :
    step state ⟨.symbol (.operator operator), position⟩ =
      .ok (.operand (.binary operator position tree :: frames) false) := by
  obtain ⟨inner, expression, steps, -, same⟩ := completes
  have apart : operator.leftLevel ≠ BinaryOperator.pow.level := by cases operator <;> decide
  rw [steps _ (by simp)]
  simp only [stepOperator, same _ le_rfl apart, reduce_expected fits]

theorem step_closing (completes : Completes state (.group :: frames) tree level) (position : Nat) :
    step state ⟨.symbol (.closing .round), position⟩ = .ok (.operator frames tree) := by
  obtain ⟨inner, expression, steps, -, same⟩ := completes
  rw [steps _ (by simp)]
  simp only [stepOperator, same 0 (Nat.zero_le _) (by decide), reduce]

variable {holder : Holder} {items : List Expr}

theorem step_end (completes : Completes state (holder.frame items :: frames) tree level)
    (position : Nat) :
    step state ⟨.symbol (.closing holder.bracket), position⟩ =
      .ok (.operator frames (holder.tree (items ++ [tree]))) := by
  obtain ⟨inner, expression, steps, -, same⟩ := completes
  rw [steps _ (by simp)]
  cases holder <;>
    simp only [stepOperator, same 0 (Nat.zero_le _) (by decide), Holder.frame, Holder.bracket,
      reduce] <;> rfl

theorem step_comma (completes : Completes state (holder.frame items :: frames) tree level)
    (position : Nat) :
    step state ⟨.symbol .comma, position⟩ =
      .ok (.operand (holder.frame (items ++ [tree]) :: frames) false) := by
  obtain ⟨inner, expression, steps, -, same⟩ := completes
  rw [steps _ (by simp)]
  cases holder <;>
    simp only [stepOperator, same 0 (Nat.zero_le _) (by decide), Holder.frame, reduce]

end Completes

theorem step_sign (frames : List Frame) (empty : Bool) (operator : UnaryOperator) (position : Nat) :
    step (.operand frames empty) ⟨.symbol operator.symbol, position⟩ =
      .ok (.operand (.unary operator position :: frames) false) := by
  cases operator <;> rfl

theorem steps_opening (holder : Holder) (frames : List Frame) (empty : Bool) (place : Nat) :
    steps (.operand frames empty) (holder.opening place) =
      .ok (.operand (holder.frame [] :: frames) true) := by
  cases holder <;> rfl

theorem step_empty (holder : Holder) (frames : List Frame) (position : Nat) :
    step (.operand (holder.frame [] :: frames) true) ⟨.symbol (.closing holder.bracket), position⟩ =
      .ok (.operator frames (holder.tree [])) := by
  cases holder <;> rfl

/-- Reads an expression where the frames expect one of its category. -/
def Covers (category : Category) (tokens : List Token) (tree : Expr) : Prop :=
  ∀ (frames : List Frame) (empty : Bool), (expected frames).rank ≤ category.rank →
    ∃ state, steps (.operand frames empty) tokens = .ok state ∧
      Completes state frames tree category.rank

def CoversItems (tokens : List Token) (items : List Expr) : Prop :=
  ∀ (holder : Holder) (frames : List Frame), items = [] ∧ tokens = [] ∨
    ∃ before tree state, items = before ++ [tree] ∧
      steps (.operand (holder.frame [] :: frames) true) tokens = .ok state ∧
      Completes state (holder.frame before :: frames) tree Category.disjunction.rank

namespace Covers

variable {category left right : Category} {tokens before behind : List Token}
  {tree first second : Expr}

theorem tighter {inner : Category} (next : category.tighter? = some inner)
    (covers : Covers inner tokens tree) : Covers category tokens tree := by
  have le : category.rank ≤ inner.rank := by
    revert next
    cases category <;> cases inner <;> decide
  intro frames empty fits
  obtain ⟨state, taken, completes⟩ := covers frames empty (fits.trans le)
  exact ⟨state, taken, completes.mono le⟩

theorem binary {operator : BinaryOperator} (joins : Joins category operator left right)
    (position : Nat) (covers : Covers left before first) (covers' : Covers right behind second) :
    Covers category (before ++ ⟨.symbol (.operator operator), position⟩ :: behind)
      (.binary operator position first second) := by
  obtain ⟨level, leftLevel, rightLevel⟩ := joins.ranks
  have le : category.rank ≤ left.rank := by
    rw [level, leftLevel]
    cases operator <;> decide
  intro frames empty fits
  obtain ⟨state, taken, completes⟩ := covers frames empty (fits.trans le)
  have read := (leftLevel ▸ completes).step_operator (level ▸ fits) position
  obtain ⟨next, taken', completes'⟩ :=
    covers' (.binary operator position first :: frames) false (by rw [expected_binary joins])
  refine ⟨next, ?_, completes'.reduced fun lowest below other => ⟨?_, ?_⟩⟩
  · rw [steps_append taken, steps_cons read, taken']
  -- Nothing is asked for between a power and its exponent.
  · rcases rightLevel with ⟨rfl, rfl⟩ | ⟨-, rank⟩
    · have below : lowest ≤ BinaryOperator.pow.level := level ▸ below
      exact Nat.le_of_lt_succ (Nat.lt_of_le_of_ne below other)
    · omega
  · rw [reduce, if_pos (level ▸ below)]

theorem unary (operator : UnaryOperator) (position : Nat) (covers : Covers .signed tokens tree) :
    Covers .signed (⟨.symbol operator.symbol, position⟩ :: tokens)
      (.unary operator position tree) := by
  intro frames empty fits
  obtain ⟨state, taken, completes⟩ := covers (.unary operator position :: frames) false le_rfl
  refine ⟨state, ?_, completes.reduced fun lowest below _ => ⟨below, ?_⟩⟩
  · rw [steps_cons (step_sign frames empty operator position), taken]
  · have tight : lowest ≤ operator.level := below
    rw [reduce, if_pos tight]

theorem number (value : Double) (position : Nat) :
    Covers .factor [⟨.number value, position⟩] (.number value) :=
  fun frames _ _ => ⟨.operator frames (.number value), rfl, .operator ..⟩

theorem name (name : Text) (position : Nat) :
    Covers .factor [⟨.identifier name, position⟩] (.ofIdentifier name position) := by
  intro frames empty fits
  refine ⟨.name frames name position, rfl, frames, .ofIdentifier name position,
    fun token other => ?_, rfl, fun _ _ _ => rfl⟩
  simp only [step]

theorem group (opening closing : Nat) (covers : Covers .disjunction tokens tree) :
    Covers .factor
      (⟨.symbol (.opening .round), opening⟩ :: tokens ++ [⟨.symbol (.closing .round), closing⟩])
      tree := by
  intro frames empty fits
  obtain ⟨state, taken, completes⟩ := covers (.group :: frames) false le_rfl
  refine ⟨.operator frames tree, ?_, .operator ..⟩
  have opened : step (.operand frames empty) ⟨.symbol (.opening .round), opening⟩ =
      .ok (.operand (.group :: frames) false) :=
    rfl
  rw [List.cons_append, steps_cons opened, steps_append taken,
    steps_cons (completes.step_closing closing)]
  rfl

theorem held (holder : Holder) (place closing : Nat) {items : List Expr}
    (covers : CoversItems tokens items) :
    Covers .factor
      (holder.opening place ++ tokens ++ [⟨.symbol (.closing holder.bracket), closing⟩])
      (holder.tree items) := by
  intro frames empty fits
  refine ⟨.operator frames (holder.tree items), ?_, .operator ..⟩
  rw [List.append_assoc, steps_append (steps_opening holder frames empty place)]
  rcases covers holder frames with ⟨rfl, rfl⟩ | ⟨before, tree, state, rfl, taken, completes⟩
  · rw [List.nil_append, steps_cons (step_empty holder frames closing)]
    rfl
  · rw [steps_append taken, steps_cons (completes.step_end closing)]
    rfl

end Covers

namespace CoversItems

variable {before behind tokens : List Token} {items : List Expr} {tree : Expr}

theorem nil : CoversItems [] [] :=
  fun _ _ => .inl ⟨rfl, rfl⟩

theorem single (covers : Covers .disjunction tokens tree) : CoversItems tokens [tree] := by
  intro holder frames
  obtain ⟨state, taken, completes⟩ :=
    covers (holder.frame [] :: frames) true (by rw [expected_holder])
  exact .inr ⟨[], tree, state, rfl, taken, completes⟩

theorem further (coversItems : CoversItems before items) (others : items ≠ []) (comma : Nat)
    (covers : Covers .disjunction behind tree) :
    CoversItems (before ++ ⟨.symbol .comma, comma⟩ :: behind) (items ++ [tree]) := by
  intro holder frames
  -- Without earlier items there would be no comma.
  rcases coversItems holder frames with ⟨rfl, -⟩ | ⟨earlier, last, state, rfl, taken, completes⟩
  · exact absurd rfl others
  · obtain ⟨next, taken', completes'⟩ :=
      covers (holder.frame (earlier ++ [last]) :: frames) false (by rw [expected_holder])
    refine .inr ⟨earlier ++ [last], tree, next, rfl, ?_, completes'⟩
    rw [steps_append taken, steps_cons (completes.step_comma comma), taken']

end CoversItems

mutual

/-- The parser reads every expression of the grammar. -/
theorem covers_of_derives : {category : Category} → {tokens : List Token} → {tree : Expr} →
    Derives category tokens tree → Covers category tokens tree
  | _, _, _, .tighter next derives => (covers_of_derives derives).tighter next
  | _, _, _, .binary joins position derives derives' =>
    (covers_of_derives derives).binary joins position (covers_of_derives derives')
  | _, _, _, .unary operator position derives => (covers_of_derives derives).unary operator position
  | _, _, _, .number value position => .number value position
  | _, _, _, .name name position => .name name position
  | _, _, _, .group opening closing derives => (covers_of_derives derives).group opening closing
  | _, _, _, .list opening closing derives =>
    .held .list opening closing (coversItems_of_derives derives)
  | _, _, _, .call name position opening closing derives =>
    .held (.call name position) opening closing (coversItems_of_derives derives)

theorem coversItems_of_derives : {tokens : List Token} → {items : List Expr} →
    DerivesItems tokens items → CoversItems tokens items
  | _, _, .none => .nil
  | _, _, .single derives => .single (covers_of_derives derives)
  | _, _, .further items others comma derives =>
    (coversItems_of_derives items).further others comma (covers_of_derives derives)

end

theorem parse_of_sentence {tokens : List Token} {tree : Expr} (sentence : Sentence tokens tree)
    (ends : Nat) : parse tokens ends = .ok tree := by
  obtain ⟨state, taken, completes⟩ := covers_of_derives sentence [] false le_rfl
  exact run_eq_ok_iff.mpr ⟨state, taken, completes.finish_eq⟩

theorem read_eq_steps (state : State) (lexemes : List Lexeme) :
    read state lexemes = steps state (unplacedTokens lexemes) := by
  rw [steps, unplacedTokens, List.foldlM_map]
  rfl

/-- The lexemes that have a tree are those of a sentence. -/
theorem tree_eq_ok_iff {lexemes : List Lexeme} {tree : Expr} :
    Parser.tree lexemes = .ok tree ↔ Sentence (unplacedTokens lexemes) tree := by
  have parses : Parser.tree lexemes = .ok tree ↔ parse (unplacedTokens lexemes) 0 = .ok tree := by
    rw [Parser.tree, complete, read_eq_steps, bind_eq_ok_iff, parse, run_eq_ok_iff]
  exact parses.trans ⟨sentence_of_parse, fun sentence => parse_of_sentence sentence 0⟩

theorem run_error {ends : Nat} {state : State} {tokens : List Token} {defect : Defect}
    (refused : run ends state tokens = .error defect) :
    defect.position = some ends ∨ ∃ before token behind, tokens = before ++ token :: behind ∧
      defect.position = some token.position ∧
      ∀ ends' other, run ends' state (before ++ token :: other) = .error defect := by
  -- No step looks ahead, so what comes behind a refused token makes no difference.
  rcases exists_of_run_error refused with
    ⟨before, token, behind, next, rfl, taken, stops, place⟩ | ⟨next, -, -, place⟩
  · refine .inr ⟨before, token, behind, rfl, place, fun ends' other => ?_⟩
    rw [run_of_steps taken, run, stops, ← place]
  · exact .inl place

/-- The parser accepts the sentences of the grammar, each with its only tree, and refuses everything
else, at the end or at the first token that makes it no beginning of what it reads. -/
theorem parse_eq_ok_iff_sentence (tokens : List Token) (ends : Nat) :
    (∀ tree, parse tokens ends = .ok tree ↔ Sentence tokens tree) ∧
      (∀ tree other, Sentence tokens tree → Sentence tokens other → tree = other) ∧
      ((¬ ∃ tree, Sentence tokens tree) ↔ ∃ defect, parse tokens ends = .error defect) ∧
      ∀ defect, parse tokens ends = .error defect →
        defect.position = some ends ∨ ∃ before token behind, tokens = before ++ token :: behind ∧
          defect.position = some token.position ∧
          ∀ ends' other, parse (before ++ token :: other) ends' = .error defect := by
  have accepted : ∀ tree, parse tokens ends = .ok tree ↔ Sentence tokens tree := fun tree =>
    ⟨sentence_of_parse, fun sentence => parse_of_sentence sentence ends⟩
  refine ⟨accepted, fun tree other sentence sentence' => ?_, ?_,
    fun defect refused => run_error refused⟩
  -- Both trees are what the parser finds.
  · have same := ((accepted tree).mpr sentence).symm.trans ((accepted other).mpr sentence')
    exact Except.ok.inj same
  · cases parsed : parse tokens ends with
    | ok tree =>
      have sentence := (accepted tree).mp parsed
      exact iff_of_false (fun none => none ⟨tree, sentence⟩) nofun
    | error defect =>
      refine iff_of_true ?_ ⟨defect, rfl⟩
      rintro ⟨tree, sentence⟩
      rw [(accepted tree).mpr sentence] at parsed
      cases parsed

end Parser
end IndicatorFormula
