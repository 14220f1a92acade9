import IndicatorFormula.Proofs.Expression.Places

/-! The grammar of expressions, and that the parser accepts exactly its sentences.

Every category of expressions takes in the tighter ones. The operators of one category group to the
left because only their left operand is of the category itself; a power groups to the right because
its exponent may be a power again, and it may have a sign.

The parser has no categories: it keeps a stack of frames and applies operators by their levels. What
it has read always opens its frames, and each frame says of which category the expression behind it
has to be. That carries the proof in both directions. -/

set_option autoImplicit false
namespace IndicatorFormula

inductive Category where
  | disjunction | conjunction | comparison | sum | product | signed | power | factor
  deriving DecidableEq, Repr

namespace Category

def tighter? : Category → Option Category
  | .disjunction => some .conjunction
  | .conjunction => some .comparison
  | .comparison => some .sum
  | .sum => some .product
  | .product => some .signed
  | .signed => some .power
  | .power => some .factor
  | .factor => none

def rank : Category → Nat
  | .disjunction => 1
  | .conjunction => 2
  | .comparison => 3
  | .sum => 4
  | .product => 5
  | .signed => 6
  | .power => 7
  | .factor => 8

end Category

/-- The category of an operator between two operands, and those of its left and of its right
operand. -/
inductive Joins : Category → BinaryOperator → Category → Category → Prop where
  | or : Joins .disjunction .or .disjunction .conjunction
  | and : Joins .conjunction .and .conjunction .comparison
  | comparison {operator : BinaryOperator} (member : operator ∈ [.gt, .lt, .ge, .le, .eq, .ne]) :
      Joins .comparison operator .comparison .sum
  | sum {operator : BinaryOperator} (member : operator ∈ [.add, .sub]) :
      Joins .sum operator .sum .product
  | product {operator : BinaryOperator} (member : operator ∈ [.mul, .div, .mod]) :
      Joins .product operator .product .signed
  | power : Joins .power .pow .factor .signed

mutual

/-- Tokens are an expression of a category, and have a tree. -/
inductive Derives : Category → List Token → Expr → Prop where
  | tighter {category inner : Category} {tokens : List Token} {tree : Expr}
      (next : category.tighter? = some inner) (derives : Derives inner tokens tree) :
      Derives category tokens tree
  | binary {category left right : Category} {operator : BinaryOperator} {before behind : List Token}
      {first second : Expr} (joins : Joins category operator left right) (position : Nat)
      (derives : Derives left before first) (derives' : Derives right behind second) :
      Derives category (before ++ ⟨.symbol (.operator operator), position⟩ :: behind)
        (.binary operator position first second)
  | unary (operator : UnaryOperator) (position : Nat) {tokens : List Token} {tree : Expr}
      (derives : Derives .signed tokens tree) :
      Derives .signed (⟨.symbol operator.symbol, position⟩ :: tokens)
        (.unary operator position tree)
  | number (value : Double) (position : Nat) :
      Derives .factor [⟨.number value, position⟩] (.number value)
  | name (name : Text) (position : Nat) :
      Derives .factor [⟨.identifier name, position⟩] (.ofIdentifier name position)
  | group (opening closing : Nat) {tokens : List Token} {tree : Expr}
      (derives : Derives .disjunction tokens tree) :
      Derives .factor
        (⟨.symbol (.opening .round), opening⟩ :: tokens ++ [⟨.symbol (.closing .round), closing⟩])
        tree
  | list (opening closing : Nat) {tokens : List Token} {items : List Expr}
      (derives : DerivesItems tokens items) :
      Derives .factor
        (⟨.symbol (.opening .square), opening⟩ :: tokens ++ [⟨.symbol (.closing .square), closing⟩])
        (.list items)
  | call (name : Text) (position opening closing : Nat) {tokens : List Token}
      {arguments : List Expr} (derives : DerivesItems tokens arguments) :
      Derives .factor (⟨.identifier name, position⟩ :: ⟨.symbol (.opening .round), opening⟩ ::
        tokens ++ [⟨.symbol (.closing .round), closing⟩]) (.call name position arguments)

inductive DerivesItems : List Token → List Expr → Prop where
  | none : DerivesItems [] []
  | single {tokens : List Token} {tree : Expr} (derives : Derives .disjunction tokens tree) :
      DerivesItems tokens [tree]
  | further {before behind : List Token} {trees : List Expr} {tree : Expr}
      (items : DerivesItems before trees) (others : trees ≠ []) (comma : Nat)
      (derives : Derives .disjunction behind tree) :
      DerivesItems (before ++ ⟨.symbol .comma, comma⟩ :: behind) (trees ++ [tree])

end

/-- The sentences of the grammar and their trees. -/
def Sentence (tokens : List Token) (tree : Expr) : Prop :=
  Derives .disjunction tokens tree

theorem Derives.loosen {category inner : Category} {tokens : List Token} {tree : Expr}
    (derives : Derives inner tokens tree) (looser : category.rank ≤ inner.rank) :
    Derives category tokens tree := by
  -- Categories are finitely many, so going up one by one is an induction on the difference of
  -- ranks.
  induction steps : inner.rank - category.rank generalizing category with
  | zero =>
    have same : category = inner := by
      cases category <;> cases inner <;> simp [Category.rank] at looser steps ⊢
    exact same ▸ derives
  | succ steps ih =>
    obtain ⟨next, tighter, rank⟩ : ∃ next, category.tighter? = some next ∧
        next.rank = category.rank + 1 := by
      cases category <;>
        first | exact ⟨_, rfl, rfl⟩ | (cases inner <;> simp [Category.rank] at steps)
    exact .tighter tighter (ih (by omega) (by omega))

namespace Joins

variable {category left right : Category} {operator : BinaryOperator}

theorem ranks (joins : Joins category operator left right) :
    category.rank = operator.level ∧ left.rank = operator.leftLevel ∧
      (operator = .pow ∧ right = .signed ∨
        operator.level ≤ 5 ∧ right.rank = operator.level + 1) := by
  cases joins with
  | comparison member | sum member | product member =>
    revert member
    cases operator <;> decide
  | _ => decide

theorem exists_joins (operator : BinaryOperator) :
    ∃ category left right, Joins category operator left right := by
  cases operator with
  | or => exact ⟨_, _, _, .or⟩
  | and => exact ⟨_, _, _, .and⟩
  | pow => exact ⟨_, _, _, .power⟩
  | gt | lt | ge | le | eq | ne => exact ⟨_, _, _, .comparison (by decide)⟩
  | add | sub => exact ⟨_, _, _, .sum (by decide)⟩
  | mul | div | mod => exact ⟨_, _, _, .product (by decide)⟩

end Joins

namespace Parser

inductive Holder where
  | list
  | call (name : Text) (position : Nat)

namespace Holder

def frame (items : List Expr) : Holder → Frame
  | .list => .list items
  | .call name position => .call name position items

def tree (items : List Expr) : Holder → Expr
  | .list => .list items
  | .call name position => .call name position items

def bracket : Holder → Bracket
  | .list => .square
  | .call .. => .round

def opening (place : Nat) : Holder → List Token
  | .list => [⟨.symbol (.opening .square), place⟩]
  | .call name position => [⟨.identifier name, position⟩, ⟨.symbol (.opening .round), place⟩]

theorem derives (holder : Holder) (place closing : Nat) {tokens : List Token} {items : List Expr}
    (derives : DerivesItems tokens items) :
    Derives .factor
      (holder.opening place ++ tokens ++ [⟨.symbol (.closing holder.bracket), closing⟩])
      (holder.tree items) := by
  cases holder with
  | list => exact .list place closing derives
  | call name position => exact .call name position place closing derives

end Holder

def expected : List Frame → Category
  | .unary .. :: _ => .signed
  | .binary operator .. :: _ =>
    match operator with
    | .or => .conjunction
    | .and => .comparison
    | .gt | .lt | .ge | .le | .eq | .ne => .sum
    | .add | .sub => .product
    | .mul | .div | .mod | .pow => .signed
  | _ => .disjunction

theorem expected_binary {category left right : Category} {operator : BinaryOperator}
    (joins : Joins category operator left right) (position : Nat) (first : Expr)
    (frames : List Frame) : expected (.binary operator position first :: frames) = right := by
  cases joins with
  | comparison member | sum member | product member =>
    revert member
    cases operator <;> simp [expected]
  | _ => rfl

theorem expected_holder (holder : Holder) (items : List Expr) (frames : List Frame) :
    expected (holder.frame items :: frames) = .disjunction := by
  cases holder <;> rfl

theorem expected_le (frames : List Frame) : (expected frames).rank ≤ Category.signed.rank := by
  unfold expected
  split
  · decide
  · split <;> decide
  · decide

/-- An operator is not applied to what stands before it unless it binds more loosely than the frame
before it. -/
theorem expected_of_reduced {level : Nat} {frames frames' : List Frame} {tree tree' : Expr}
    (reduced : reduce level frames tree = (frames', tree')) {category left right : Category}
    {operator : BinaryOperator} (joins : Joins category operator left right)
    (own : level = operator.leftLevel) : (expected frames').rank ≤ category.rank := by
  have ranks := joins.ranks
  have low : 1 ≤ category.rank := by cases category <;> decide
  subst own
  fun_induction reduce operator.leftLevel frames tree with
  | case1 sign position frames tree tight ih => exact ih reduced
  | case3 other position first frames tree tight ih => exact ih reduced
  | case2 sign position frames tree loose =>
    cases reduced
    -- Only a power binds more tightly than a sign.
    cases operator <;>
      simp_all [BinaryOperator.leftLevel, BinaryOperator.level, UnaryOperator.level, expected,
        Category.rank]
  -- This operator stays where it is since it is looser, and what it expects is one rank above it.
  | case4 other position first frames tree loose =>
    cases reduced
    obtain ⟨category', left', right', joins'⟩ := Joins.exists_joins other
    have ranks' := joins'.ranks
    rw [expected_binary joins']
    rcases ranks'.2.2 with ⟨rfl, rfl⟩ | ⟨low', rank'⟩
    · cases operator <;> simp_all [BinaryOperator.leftLevel, BinaryOperator.level, Category.rank]
    · rw [rank', ranks.1]
      cases operator with
      | pow =>
        change other.level + 1 ≤ 7
        omega
      | _ => exact Nat.not_le.mp loose
  | case5 frames' tree' notUnary notBinary =>
    cases reduced
    cases frames' with
    | nil => exact low
    | cons frame frames =>
      cases frame with
      | unary sign position => exact absurd rfl (notUnary sign position frames)
      | binary other position first => exact absurd rfl (notBinary other position first frames)
      | _ => exact low

/-- Items of a list or a call, and a comma behind them unless there are none yet. -/
inductive Begun : List Token → List Expr → Prop where
  | none : Begun [] []
  | some {tokens : List Token} {items : List Expr} (derives : DerivesItems tokens items)
      (others : items ≠ []) (comma : Nat) : Begun (tokens ++ [⟨.symbol .comma, comma⟩]) items

theorem Begun.further {before behind : List Token} {items : List Expr} {tree : Expr}
    (begun : Begun before items) (derives : Derives .disjunction behind tree) :
    DerivesItems (before ++ behind) (items ++ [tree]) := by
  cases begun with
  | none => exact .single derives
  | some items others comma =>
    rw [List.append_assoc]
    exact .further items others comma derives

inductive Opens : List Frame → List Token → Prop where
  | nil : Opens [] []
  | unary {frames : List Frame} {tokens : List Token} (opens : Opens frames tokens)
      (operator : UnaryOperator) (position : Nat) :
      Opens (.unary operator position :: frames) (tokens ++ [⟨.symbol operator.symbol, position⟩])
  | binary {frames : List Frame} {tokens before : List Token} {category left right : Category}
      {operator : BinaryOperator} {first : Expr} (opens : Opens frames tokens)
      (joins : Joins category operator left right) (fits : (expected frames).rank ≤ category.rank)
      (derives : Derives left before first) (position : Nat) :
      Opens (.binary operator position first :: frames)
        (tokens ++ before ++ [⟨.symbol (.operator operator), position⟩])
  | group {frames : List Frame} {tokens : List Token} (opens : Opens frames tokens) (place : Nat) :
      Opens (.group :: frames) (tokens ++ [⟨.symbol (.opening .round), place⟩])
  | held {frames : List Frame} {tokens before : List Token} {items : List Expr} {frame : Frame}
      (opens : Opens frames tokens) (holder : Holder) (is : frame = holder.frame items)
      (place : Nat) (begun : Begun before items) :
      Opens (frame :: frames) (tokens ++ holder.opening place ++ before)

theorem Opens.inside {frames : List Frame} {tokens : List Token} {items : List Expr}
    {holder : Holder} (opens : Opens (holder.frame items :: frames) tokens) :
    ∃ outer before place, Opens frames outer ∧ Begun before items ∧
      tokens = outer ++ holder.opening place ++ before := by
  cases holder with
  | list =>
    cases opens with
    | held opens holder is place begun =>
      cases holder with
      | list =>
        cases is
        exact ⟨_, _, place, opens, begun, rfl⟩
      | call => cases is
  | call name position =>
    cases opens with
    | held opens holder is place begun =>
      cases holder with
      | list => cases is
      | call =>
        cases is
        exact ⟨_, _, place, opens, begun, rfl⟩

/-- The tokens that have been read in a state. -/
inductive Reads : State → List Token → Prop where
  | operand {frames : List Frame} {tokens : List Token} (opens : Opens frames tokens) :
      Reads (.operand frames false) tokens
  | empty {frames : List Frame} {tokens : List Token} (opens : Opens frames tokens)
      (holder : Holder) (place : Nat) :
      Reads (.operand (holder.frame [] :: frames) true) (tokens ++ holder.opening place)
  | name {frames : List Frame} {tokens : List Token} (opens : Opens frames tokens) (name : Text)
      (position : Nat) :
      Reads (.name frames name position) (tokens ++ [⟨.identifier name, position⟩])
  | operator {frames : List Frame} {before tokens : List Token} {tree : Expr}
      (opens : Opens frames before) (derives : Derives .factor tokens tree) :
      Reads (.operator frames tree) (before ++ tokens)

/-- Applying operators keeps the tokens, and comes to nothing looser than the level. -/
theorem reduce_derives {level : Nat} {frames frames' : List Frame} {tree tree' : Expr}
    {category : Category} {before tokens : List Token}
    (reduced : reduce level frames tree = (frames', tree')) (opens : Opens frames before)
    (derives : Derives category tokens tree) (fits : (expected frames).rank ≤ category.rank)
    (binds : level ≤ category.rank) :
    ∃ before' tokens' category', Opens frames' before' ∧ Derives category' tokens' tree' ∧
      level ≤ category'.rank ∧ before' ++ tokens' = before ++ tokens := by
  -- The frames are taken up one by one. Each of them fits what stands behind it, which is what
  -- `Opens` keeps.
  fun_induction reduce level frames tree generalizing before tokens category with
  | case1 operator position frames tree tight ih =>
    cases opens with
    | unary opens =>
      have signed := Derives.unary operator position (derives.loosen fits)
      have low : (expected frames).rank ≤ Category.signed.rank := expected_le frames
      obtain ⟨before', tokens', category', opens, derives, binds, same⟩ :=
        ih reduced opens signed low tight
      exact ⟨before', tokens', category', opens, derives, binds, by simpa using same⟩
    | held opens holder is => cases holder <;> cases is
  | case3 operator position first frames tree tight ih =>
    cases opens with
    | binary opens joins fits' derives' =>
      rw [expected_binary joins] at fits
      have joined := Derives.binary joins position derives' (derives.loosen fits)
      obtain ⟨before', tokens', category', opens, derives, binds, same⟩ :=
        ih reduced opens joined fits' (joins.ranks.1 ▸ tight)
      exact ⟨before', tokens', category', opens, derives, binds, by simpa using same⟩
    | held opens holder is => cases holder <;> cases is
  | _ =>
    cases reduced
    exact ⟨before, tokens, category, opens, derives, binds, rfl⟩

theorem reduce_zero {frames frames' : List Frame} {tree tree' : Expr} {before tokens : List Token}
    (reduced : reduce 0 frames tree = (frames', tree')) (opens : Opens frames before)
    (derives : Derives .factor tokens tree) :
    ∃ before' tokens', Opens frames' before' ∧ Derives .disjunction tokens' tree' ∧
      before' ++ tokens' = before ++ tokens := by
  have fits : (expected frames).rank ≤ Category.factor.rank :=
    (expected_le frames).trans (by decide)
  obtain ⟨before', tokens', category, opens, derives, -, same⟩ :=
    reduce_derives reduced opens derives fits (Nat.zero_le _)
  have loosest : Category.disjunction.rank ≤ category.rank := by cases category <;> decide
  exact ⟨before', tokens', opens, derives.loosen loosest, same⟩

theorem Opens.further {h : Holder} {items : List Expr} {rest : List Frame}
    {before tokens : List Token} {tree : Expr} (opens : Opens (h.frame items :: rest) before)
    (derives : Derives .disjunction tokens tree) (position : Nat) :
    Reads (.operand (h.frame (items ++ [tree]) :: rest) false)
        (before ++ tokens ++ [⟨.symbol .comma, position⟩]) ∧
      Reads (.operator rest (h.tree (items ++ [tree])))
        (before ++ tokens ++ [⟨.symbol (.closing h.bracket), position⟩]) := by
  obtain ⟨outer, begun, place, outside, items, rfl⟩ := opens.inside
  have items := items.further derives
  constructor
  · have read := Reads.operand (outside.held h rfl place (.some items (by simp) position))
    simpa using read
  · have read := Reads.operator outside (h.derives place position items)
    simpa using read

theorem Reads.opens {frames : List Frame} {empty : Bool} {before : List Token}
    (reads : Reads (.operand frames empty) before) : Opens frames before := by
  cases reads with
  | operand opens => exact opens
  | empty outer holder place => simpa using outer.held holder rfl place .none

theorem Reads.of_empty {frames : List Frame} {before : List Token}
    (reads : Reads (.operand frames true) before) :
    ∃ outer tokens holder place, Opens outer tokens ∧ frames = Holder.frame [] holder :: outer ∧
      before = tokens ++ holder.opening place := by
  cases reads with
  | empty opens holder place => exact ⟨_, _, holder, place, opens, rfl, rfl⟩

theorem Reads.closed {h : Holder} {items : List Expr} {frames : List Frame} {before : List Token}
    (reads : Reads (.operand (h.frame items :: frames) true) before) (position : Nat) :
    Reads (.operator frames (h.tree items))
      (before ++ [⟨.symbol (.closing h.bracket), position⟩]) := by
  obtain ⟨outer, tokens, holder, place, opens, same, rfl⟩ := reads.of_empty
  obtain ⟨rfl, rfl, rfl⟩ : h = holder ∧ items = [] ∧ frames = outer := by
    cases h <;> cases holder <;> cases same <;> exact ⟨rfl, rfl, rfl⟩
  have read := Reads.operator opens (h.derives place position .none)
  simpa using read

section

variable {position : Nat} {frames : List Frame} {lexeme : Lexeme} {before tokens : List Token}
  {next : State}

theorem OperandStep.reads {empty : Bool} (read : OperandStep position frames empty lexeme next)
    (reads : Reads (.operand frames empty) before) :
    Reads next (before ++ [⟨lexeme, position⟩]) := by
  cases read with
  | number _ _ value => exact .operator reads.opens (.number value position)
  | identifier _ _ name => exact .name reads.opens name position
  | @sign _ _ _ operator same =>
    subst same
    exact .operand (.unary reads.opens operator position)
  | opensGroup => exact .operand (.group reads.opens position)
  | opensList => exact .empty reads.opens .list position
  | closesList => exact reads.closed (h := .list) position
  | closesCall function place => exact reads.closed (h := .call function place) position

theorem OperatorStep.reads {tree : Expr} (read : OperatorStep position frames tree lexeme next)
    (opens : Opens frames before) (derives : Derives .factor tokens tree) :
    Reads next (before ++ tokens ++ [⟨lexeme, position⟩]) := by
  cases read with
  | binary operator reduced =>
    obtain ⟨category, left, right, joins⟩ := Joins.exists_joins operator
    have high : operator.leftLevel ≤ Category.factor.rank := by cases operator <;> decide
    have fits : (expected frames).rank ≤ Category.factor.rank :=
      (expected_le frames).trans (by decide)
    obtain ⟨before', tokens', category', opens, derives, binds, same⟩ :=
      reduce_derives reduced opens derives fits high
    rw [← same]
    exact .operand (.binary opens joins (expected_of_reduced reduced joins rfl)
      (derives.loosen (joins.ranks.2.1 ▸ binds)) position)
  -- Whatever else is accepted ends the expression, so all operators behind the innermost bracket
  -- are applied.
  | item reduced =>
    obtain ⟨_, _, opens, derives, same⟩ := reduce_zero reduced opens derives
    rw [← same]
    exact (opens.further (h := .list) derives position).1
  | argument reduced =>
    obtain ⟨_, _, opens, derives, same⟩ := reduce_zero reduced opens derives
    rw [← same]
    exact (opens.further (h := .call _ _) derives position).1
  | closesGroup reduced =>
    obtain ⟨_, _, opens, derives, same⟩ := reduce_zero reduced opens derives
    rw [← same]
    cases opens with
    | group outer place =>
      have read := Reads.operator outer (.group place position derives)
      simpa using read
    | held opens holder is => cases holder <;> cases is
  | closesList reduced =>
    obtain ⟨_, _, opens, derives, same⟩ := reduce_zero reduced opens derives
    rw [← same]
    exact (opens.further (h := .list) derives position).2
  | closesCall reduced =>
    obtain ⟨_, _, opens, derives, same⟩ := reduce_zero reduced opens derives
    rw [← same]
    exact (opens.further (h := .call _ _) derives position).2

end

theorem step_reads {state next : State} {before : List Token} {token : Token}
    (reads : Reads state before) (taken : step state token = .ok next) :
    Reads next (before ++ [token]) := by
  obtain ⟨lexeme, position⟩ := token
  cases step_eq_ok_iff.mp taken with
  | operand read => exact read.reads reads
  | operator read =>
    cases reads with
    | operator opens derives => exact read.reads opens derives
  | name _ read =>
    cases reads with
    | name opens => exact read.reads opens (.name _ _)
  | call frames name place =>
    cases reads with
    | name opens =>
      rw [List.append_assoc]
      exact .empty opens (.call name place) position

theorem finishOperator_reads {frames : List Frame} {before tokens : List Token}
    {expression tree : Expr} (opens : Opens frames before)
    (derives : Derives .factor tokens expression)
    (finished : finishOperator frames expression = .ok tree) :
    Sentence (before ++ tokens) tree := by
  obtain ⟨before', tokens', opens, derives, same⟩ :=
    reduce_zero (finishOperator_eq_ok_iff.mp finished) opens derives
  cases opens
  rw [← same]
  exact derives

theorem finish_reads {state : State} {tokens : List Token} {tree : Expr}
    (reads : Reads state tokens) (finished : finish state = .ok tree) : Sentence tokens tree := by
  cases reads with
  | @operand frames => cases frames <;> cases finished
  | empty => cases finished
  | name opens name position => exact finishOperator_reads opens (.name name position) finished
  | operator opens derives => exact finishOperator_reads opens derives finished

theorem steps_reads {state next : State} {before tokens : List Token} (reads : Reads state before)
    (taken : steps state tokens = .ok next) : Reads next (before ++ tokens) := by
  -- The state stands for the tokens before the rest, and every step adds one to them.
  induction tokens generalizing state before with
  | nil =>
    cases taken
    rwa [List.append_nil]
  | cons token tokens ih =>
    obtain ⟨middle, first, later⟩ := steps_cons_eq_ok_iff.mp taken
    rw [List.append_cons]
    exact ih (step_reads reads first) later

/-- A parsed text is a sentence with the tree that was found. -/
theorem sentence_of_parse {tokens : List Token} {ends : Nat} {tree : Expr}
    (parsed : parse tokens ends = .ok tree) : Sentence tokens tree := by
  obtain ⟨next, taken, finished⟩ := run_eq_ok_iff.mp parsed
  exact finish_reads (steps_reads (.operand .nil) taken) finished

end Parser
end IndicatorFormula
