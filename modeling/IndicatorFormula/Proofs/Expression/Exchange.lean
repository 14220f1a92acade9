import IndicatorFormula.Proofs.Expression.Vocabulary
import IndicatorFormula.Proofs.Expression.Grouping
import IndicatorFormula.Proofs.Expression.Enclosure

/-! Operands in exchange for others.

A formula is not validated with the operands that it is filled in with: a number takes the place of
another one, a truth value that of a test, and a list of samples that of the arguments of an
aggregate function. The parser cannot tell: what it reads for such an operand leaves its stack
alone, so that the trees differ in these operands only. -/

set_option autoImplicit false
namespace IndicatorFormula

def IsSampled (name : Text) : Prop :=
  ∃ function ∈ Builtin.aggregates, function.name = name

def TakesSamples (name : Text) : Prop :=
  ∃ function ∈ Builtin.aggregates, function.name = name ∧ function ≠ .percentile ∧ function ≠ .rank

theorem TakesSamples.isSampled {name : Text} (takes : TakesSamples name) : IsSampled name := by
  obtain ⟨function, member, named, -⟩ := takes
  exact ⟨function, member, named⟩

instance (name : Text) : Decidable (IsSampled name) :=
  inferInstanceAs (Decidable (∃ function ∈ Builtin.aggregates, function.name = name))

theorem not_isSampled_isNull : ¬ IsSampled Builtin.isNull.name := by
  decide

def truthLiteral (value : Bool) : Text :=
  if value then trueLiteral else falseLiteral

theorem not_isSampled_truthLiteral (value : Bool) : ¬ IsSampled (truthLiteral value) := by
  cases value <;> decide

theorem ofIdentifier_truthLiteral (value : Bool) :
    Expr.ofIdentifier (truthLiteral value) 0 = .boolean value := by
  cases value <;> rfl

namespace Expr

inductive IsSigned : Expr → Prop where
  | number (value : Double) : IsSigned (.number value)
  | minus {operand : Expr} (signed : IsSigned operand) : IsSigned (.unary .minus 0 operand)

section

variable (kept : Text → Prop)

mutual

inductive Exchanges : Expr → Expr → Prop where
  | number (value : Double) {other : Expr} (signed : other.IsSigned) :
      Exchanges (.number value) other
  | test {name : Text} (named : name = Builtin.isNull.name) (arguments : List Expr) (value : Bool) :
      Exchanges (.call name 0 arguments) (.boolean value)
  | aggregate {name : Text} (takes : TakesSamples name) (arguments : List Expr)
      {samples : List Expr} (signed : ∀ sample ∈ samples, sample.IsSigned) :
      Exchanges (.call name 0 arguments) (.call name 0 [.list samples])
  | boolean (value : Bool) : Exchanges (.boolean value) (.boolean value)
  | variable (name : Text) : Exchanges (.variable name 0) (.variable name 0)
  | list {items others : List Expr} (each : ExchangesAll items others) :
      Exchanges (.list items) (.list others)
  | unary (operator : UnaryOperator) {operand other : Expr} (exchanges : Exchanges operand other) :
      Exchanges (.unary operator 0 operand) (.unary operator 0 other)
  | binary (operator : BinaryOperator) {left right left' right' : Expr}
      (exchanges : Exchanges left left') (exchanges' : Exchanges right right') :
      Exchanges (.binary operator 0 left right) (.binary operator 0 left' right')
  | call {name : Text} (keeps : kept name) {arguments others : List Expr}
      (each : ExchangesAll arguments others) :
      Exchanges (.call name 0 arguments) (.call name 0 others)

inductive ExchangesAll : List Expr → List Expr → Prop where
  | nil : ExchangesAll [] []
  | cons {first other : Expr} {rest others : List Expr} (exchanges : Exchanges first other)
      (each : ExchangesAll rest others) : ExchangesAll (first :: rest) (other :: others)

end

end

variable {kept : Text → Prop}

theorem exchanges_ofIdentifier (name : Text) :
    Exchanges kept (ofIdentifier name 0) (ofIdentifier name 0) := by
  unfold ofIdentifier
  split
  · exact .boolean true
  split
  · exact .boolean false
  · exact .variable name

theorem ExchangesAll.append {items others : List Expr} (each : ExchangesAll kept items others)
    {last other : Expr} (exchanges : Exchanges kept last other) :
    ExchangesAll kept (items ++ [last]) (others ++ [other]) := by
  induction items generalizing others with
  | nil =>
    cases each
    exact .cons exchanges .nil
  | cons first rest ih =>
    cases each with
    | cons exchanges each => exact .cons exchanges (ih each)

theorem Exchanges.isSigned {operand other : Expr} (exchanges : Exchanges kept operand other)
    (signed : operand.IsSigned) : other.IsSigned := by
  induction signed generalizing other with
  | number value =>
    cases exchanges
    assumption
  | minus signed ih =>
    cases exchanges with
    | unary _ exchanges => exact .minus (ih exchanges)

theorem ExchangesAll.isSigned {operands others : List Expr}
    (each : ExchangesAll kept operands others) (signed : ∀ operand ∈ operands, operand.IsSigned) :
    ∀ other ∈ others, other.IsSigned := by
  induction operands generalizing others with
  | nil =>
    cases each
    exact signed
  | cons first rest ih =>
    cases each with
    | cons exchanges each =>
      obtain ⟨first, rest⟩ := List.forall_mem_cons.mp signed
      exact List.forall_mem_cons.mpr ⟨exchanges.isSigned first, ih each rest⟩

mutual

/-- Operands may be exchanged again. Aggregate functions have a list of samples by then, and go on
having one. -/
theorem Exchanges.trans {kept' : Text → Prop} (plain : ∀ name, kept name → ¬ IsSampled name) :
    {first second third : Expr} → Exchanges kept first second → Exchanges kept' second third →
      Exchanges kept first third
  | _, _, _, .number value signed, exchanges => .number value (exchanges.isSigned signed)
  | _, _, _, .test named arguments value, .boolean _ => .test named arguments value
  | _, _, _, .aggregate takes _ _, .test named _ _ =>
    absurd (named ▸ takes.isSampled) not_isSampled_isNull
  | _, _, _, .aggregate takes arguments _, .aggregate _ _ signed =>
    .aggregate takes arguments signed
  | _, _, _, .aggregate takes arguments signed, .call _ (.cons (.list each) .nil) =>
    .aggregate takes arguments (each.isSigned signed)
  | _, _, _, .boolean value, .boolean _ => .boolean value
  | _, _, _, .variable name, .variable _ => .variable name
  | _, _, _, .list each, .list each' => .list (each.trans plain each')
  | _, _, _, .unary operator exchanges, .unary _ exchanges' =>
    .unary operator (exchanges.trans plain exchanges')
  | _, _, _, .binary operator left right, .binary _ left' right' =>
    .binary operator (left.trans plain left') (right.trans plain right')
  | _, _, _, .call _ _, .test named _ value => .test named _ value
  | _, _, _, .call keeps _, .aggregate takes _ _ => absurd takes.isSampled (plain _ keeps)
  | _, _, _, .call keeps each, .call _ each' => .call keeps (each.trans plain each')

theorem ExchangesAll.trans {kept' : Text → Prop} (plain : ∀ name, kept name → ¬ IsSampled name) :
    {first second third : List Expr} → ExchangesAll kept first second →
      ExchangesAll kept' second third → ExchangesAll kept first third
  | _, _, _, .nil, .nil => .nil
  | _, _, _, .cons exchanges each, .cons exchanges' each' =>
    .cons (exchanges.trans plain exchanges') (each.trans plain each')

end

end Expr

namespace Parser

open IndicatorFormula.Expr (ExchangesAll exchanges_ofIdentifier)

section

variable (kept : Text → Prop)

inductive Frame.Exchanges : Frame → Frame → Prop where
  | unary (operator : UnaryOperator) : Exchanges (.unary operator 0) (.unary operator 0)
  | binary (operator : BinaryOperator) {left other : Expr} (exchanges : left.Exchanges kept other) :
      Exchanges (.binary operator 0 left) (.binary operator 0 other)
  | group : Exchanges .group .group
  | list {items others : List Expr} (each : ExchangesAll kept items others) :
      Exchanges (.list items) (.list others)
  | call {name : Text} (keeps : kept name) {arguments others : List Expr}
      (each : ExchangesAll kept arguments others) :
      Exchanges (.call name 0 arguments) (.call name 0 others)

abbrev FramesExchange : List Frame → List Frame → Prop :=
  List.Forall₂ (Frame.Exchanges kept)

inductive State.Exchanges : State → State → Prop where
  | operand {frames others : List Frame} (same : FramesExchange kept frames others) (empty : Bool) :
      Exchanges (.operand frames empty) (.operand others empty)
  | name {frames others : List Frame} (same : FramesExchange kept frames others) {name : Text}
      (keeps : kept name) : Exchanges (.name frames name 0) (.name others name 0)
  | operator {frames others : List Frame} (same : FramesExchange kept frames others)
      {expression other : Expr} (exchanges : expression.Exchanges kept other) :
      Exchanges (.operator frames expression) (.operator others other)
  | truth {frames others : List Frame} (same : FramesExchange kept frames others)
      {expression : Expr} {value : Bool} (exchanges : expression.Exchanges kept (.boolean value)) :
      Exchanges (.operator frames expression) (.name others (truthLiteral value) 0)

end

variable {kept : Text → Prop} {frames others : List Frame} {expression other : Expr}
  {lexeme : Lexeme}

theorem reduce_exchanges {level : Nat} {rest : List Frame} {tree : Expr}
    (reduced : reduce level frames expression = (rest, tree))
    (same : FramesExchange kept frames others) (exchanges : expression.Exchanges kept other) :
    ∃ rest' tree', reduce level others other = (rest', tree') ∧ FramesExchange kept rest rest' ∧
      tree.Exchanges kept tree' := by
  fun_induction reduce level frames expression generalizing others other with
  | case1 operator position frames expression tight ih =>
    obtain _ | ⟨⟨⟩, outer⟩ := same
    rw [reduce, if_pos tight]
    exact ih reduced outer (.unary operator exchanges)
  | case2 operator position frames expression loose =>
    cases reduced
    obtain _ | ⟨⟨⟩, outer⟩ := same
    rw [reduce, if_neg loose]
    exact ⟨_, _, rfl, .cons (.unary operator) outer, exchanges⟩
  | case3 operator position left frames expression tight ih =>
    obtain _ | ⟨head, outer⟩ := same
    cases head with
    | binary _ first =>
      rw [reduce, if_pos tight]
      exact ih reduced outer (.binary operator first exchanges)
  | case4 operator position left frames expression loose =>
    cases reduced
    obtain _ | ⟨head, outer⟩ := same
    cases head with
    | binary _ first =>
      rw [reduce, if_neg loose]
      exact ⟨_, _, rfl, .cons (.binary operator first) outer, exchanges⟩
  -- Neither stack has an operator on top, since frames are of the same kind on both sides.
  | case5 frames expression notUnary notBinary =>
    cases reduced
    refine ⟨others, other, ?_, same, exchanges⟩
    cases same with
    | nil => rfl
    | cons exchanges outer =>
      cases exchanges with
      | unary operator => exact absurd rfl (notUnary operator 0 _)
      | binary operator => exact absurd rfl (notBinary operator 0 _ _)
      | _ => rfl

theorem exchange_list {items : List Expr}
    (same : FramesExchange kept (.list items :: frames) others) :
    ∃ items' outer, others = .list items' :: outer ∧ ExchangesAll kept items items' ∧
      FramesExchange kept frames outer := by
  obtain _ | ⟨head, outer⟩ := same
  cases head with
  | list each => exact ⟨_, _, rfl, each, outer⟩

theorem exchange_call {function : Text} {place : Nat} {arguments : List Expr}
    (same : FramesExchange kept (.call function place arguments :: frames) others) :
    place = 0 ∧ kept function ∧ ∃ arguments' outer, others = .call function 0 arguments' :: outer ∧
      ExchangesAll kept arguments arguments' ∧ FramesExchange kept frames outer := by
  obtain _ | ⟨head, outer⟩ := same
  cases head with
  | call keeps each => exact ⟨rfl, keeps, _, _, rfl, each, outer⟩

theorem OperandStep.exchanges {empty : Bool} {next : State}
    (read : OperandStep 0 frames empty lexeme next) (same : FramesExchange kept frames others)
    (keeps : ∀ name, lexeme = .identifier name → kept name) :
    ∃ next', OperandStep 0 others empty lexeme next' ∧ next.Exchanges kept next' := by
  cases read with
  | number _ _ value =>
    exact ⟨_, .number others empty value, .operator same (.number value (.number value))⟩
  | identifier _ _ name => exact ⟨_, .identifier others empty name, .name same (keeps name rfl)⟩
  | sign _ _ signs => exact ⟨_, .sign others empty signs, .operand (.cons (.unary _) same) false⟩
  | opensGroup => exact ⟨_, .opensGroup others empty, .operand (.cons .group same) false⟩
  | opensList => exact ⟨_, .opensList others empty, .operand (.cons (.list .nil) same) true⟩
  | closesList =>
    obtain ⟨_, _, rfl, each, outer⟩ := exchange_list same
    exact ⟨_, .closesList _ _, .operator outer (.list each)⟩
  | closesCall =>
    obtain ⟨rfl, keeps, _, _, rfl, each, outer⟩ := exchange_call same
    exact ⟨_, .closesCall _ _ _ _, .operator outer (.call keeps each)⟩

theorem OperatorStep.exchanges {next : State} (read : OperatorStep 0 frames expression lexeme next)
    (same : FramesExchange kept frames others) (exchanges : expression.Exchanges kept other) :
    ∃ next', OperatorStep 0 others other lexeme next' ∧ next.Exchanges kept next' := by
  -- What is read goes into the innermost frame, or takes its place.
  cases read with
  | binary operator reduced =>
    obtain ⟨_, _, reduced', outer, exchanges⟩ := reduce_exchanges reduced same exchanges
    exact ⟨_, .binary operator reduced', .operand (.cons (.binary operator exchanges) outer) false⟩
  | item reduced =>
    obtain ⟨_, _, reduced', same, exchanges⟩ := reduce_exchanges reduced same exchanges
    obtain ⟨_, _, rfl, each, outer⟩ := exchange_list same
    exact ⟨_, .item reduced', .operand (.cons (.list (each.append exchanges)) outer) false⟩
  | argument reduced =>
    obtain ⟨_, _, reduced', same, exchanges⟩ := reduce_exchanges reduced same exchanges
    obtain ⟨rfl, keeps, _, _, rfl, each, outer⟩ := exchange_call same
    exact ⟨_, .argument reduced',
      .operand (.cons (.call keeps (each.append exchanges)) outer) false⟩
  | closesGroup reduced =>
    obtain ⟨_, _, reduced', _ | ⟨⟨⟩, outer⟩, exchanges⟩ := reduce_exchanges reduced same exchanges
    exact ⟨_, .closesGroup reduced', .operator outer exchanges⟩
  | closesList reduced =>
    obtain ⟨_, _, reduced', same, exchanges⟩ := reduce_exchanges reduced same exchanges
    obtain ⟨_, _, rfl, each, outer⟩ := exchange_list same
    exact ⟨_, .closesList reduced', .operator outer (.list (each.append exchanges))⟩
  | closesCall reduced =>
    obtain ⟨_, _, reduced', same, exchanges⟩ := reduce_exchanges reduced same exchanges
    obtain ⟨rfl, keeps, _, _, rfl, each, outer⟩ := exchange_call same
    exact ⟨_, .closesCall reduced', .operator outer (.call keeps (each.append exchanges))⟩

theorem advance_exchanges {state state' next : State} (same : state.Exchanges kept state')
    (keeps : ∀ name, lexeme = .identifier name → kept name)
    (step : advance state lexeme = .ok next) :
    ∃ next', advance state' lexeme = .ok next' ∧ next.Exchanges kept next' := by
  simp only [advance_eq_ok_iff] at step ⊢
  cases same with
  | operand same =>
    cases step with
    | operand read =>
      obtain ⟨next', read', exchanges⟩ := read.exchanges same keeps
      exact ⟨next', .operand read', exchanges⟩
  | operator same exchanges =>
    cases step with
    | operator read =>
      obtain ⟨next', read', exchanges⟩ := read.exchanges same exchanges
      exact ⟨next', .operator read', exchanges⟩
  | @name frames others same name kept =>
    -- Behind a name, a bracket opens a call that is kept. Anything else makes the name an operand.
    cases step with
    | call => exact ⟨_, .call others name 0, .operand (.cons (.call kept .nil) same) true⟩
    | name other read =>
      obtain ⟨next', read', exchanges⟩ := read.exchanges same (exchanges_ofIdentifier name)
      exact ⟨next', .name other read', exchanges⟩
  | @truth frames others same expression value exchanges =>
    cases step with
    | operator read =>
      -- Behind an expression no bracket opens.
      have other : lexeme ≠ .symbol (.opening .round) := by
        rintro rfl
        cases read
      obtain ⟨next', read', exchanges⟩ := read.exchanges same exchanges
      rw [← ofIdentifier_truthLiteral value] at read'
      exact ⟨next', .name other read', exchanges⟩

theorem finishOperator_exchanges (same : FramesExchange kept frames others)
    (exchanges : expression.Exchanges kept other) {tree : Expr}
    (finished : finishOperator frames expression = .ok tree) :
    ∃ tree', finishOperator others other = .ok tree' ∧ tree.Exchanges kept tree' := by
  simp only [finishOperator_eq_ok_iff] at finished ⊢
  obtain ⟨_, tree', reduced, ⟨⟩, exchanges⟩ := reduce_exchanges finished same exchanges
  exact ⟨tree', reduced, exchanges⟩

theorem finish_exchanges {state state' : State} {tree : Expr} (same : state.Exchanges kept state')
    (finished : finish state = .ok tree) :
    ∃ tree', finish state' = .ok tree' ∧ tree.Exchanges kept tree' := by
  cases same with
  | operand same =>
    cases same <;> cases finished
  | operator same exchanges => exact finishOperator_exchanges same exchanges finished
  | @name _ _ same name =>
    exact finishOperator_exchanges same (exchanges_ofIdentifier name) finished
  | @truth _ _ same _ value exchanges =>
    rw [← ofIdentifier_truthLiteral value] at exchanges
    exact finishOperator_exchanges same exchanges finished

def ReadsAs (tree : Expr) (lexemes : List Lexeme) : Prop :=
  ∀ frames empty, read (.operand frames empty) lexemes = .ok (.operator frames tree)

inductive LexemesExchange (kept : Text → Prop) : List Lexeme → List Lexeme → Prop where
  | nil : LexemesExchange kept [] []
  | keep {lexeme : Lexeme} {rest others : List Lexeme}
      (keeps : ∀ name, lexeme = .identifier name → kept name)
      (exchange : LexemesExchange kept rest others) :
      LexemesExchange kept (lexeme :: rest) (lexeme :: others)
  | number (value : Double) {operand rest others : List Lexeme} {tree : Expr}
      (signed : tree.IsSigned) (reads : ReadsAs tree operand)
      (exchange : LexemesExchange kept rest others) :
      LexemesExchange kept (.number value :: rest) (operand ++ others)
  | test {argument rest others : List Lexeme} (balanced : Balanced Lexeme.nesting argument)
      (bracket : Bracket) (value : Bool) (exchange : LexemesExchange kept rest others) :
      LexemesExchange kept (.identifier Builtin.isNull.name :: .opensCall :: argument ++
        .symbol (.closing bracket) :: rest) (.identifier (truthLiteral value) :: others)
  | aggregate {name : Text} (takes : TakesSamples name) {argument list rest others : List Lexeme}
      (balanced : Balanced Lexeme.nesting argument) (bracket : Bracket) {samples : List Expr}
      (signed : ∀ sample ∈ samples, sample.IsSigned) (reads : ReadsAs (.list samples) list)
      (exchange : LexemesExchange kept rest others) :
      LexemesExchange kept
        (.identifier name :: .opensCall :: argument ++ .symbol (.closing bracket) :: rest)
        (.identifier name :: .opensCall :: list ++ .symbol (.closing bracket) :: others)

theorem LexemesExchange.append {first first' second second' : List Lexeme}
    (exchange : LexemesExchange kept first first')
    (exchange' : LexemesExchange kept second second') :
    LexemesExchange kept (first ++ second) (first' ++ second') := by
  induction exchange with
  | nil => exact exchange'
  | keep keeps _ ih => exact .keep keeps ih
  | number value signed reads _ ih =>
    rw [List.append_assoc]
    exact .number value signed reads ih
  | test balanced bracket value _ ih =>
    rw [List.append_assoc, List.cons_append]
    exact .test balanced bracket value ih
  | aggregate takes balanced bracket signed reads _ ih =>
    rw [List.append_assoc, List.append_assoc, List.cons_append, List.cons_append]
    exact .aggregate takes balanced bracket signed reads ih

theorem read_append (state : State) (lexemes more : List Lexeme) :
    read state (lexemes ++ more) = read state lexemes >>= fun next => read next more :=
  List.foldlM_append

theorem complete_append {state : State} (lexemes more : List Lexeme) :
    complete state (lexemes ++ more) = read state lexemes >>= fun next => complete next more := by
  unfold complete
  rw [read_append, bind_assoc]

theorem operand_of_isWord {state next : State} (word : lexeme.isWord = true)
    (step : advance state lexeme = .ok next) : ∃ frames empty, state = .operand frames empty := by
  -- Where an operand has been read, only symbols go on.
  have refused {frames : List Frame} {expression : Expr}
      (read : OperatorStep 0 frames expression lexeme next) : False := by
    have symbol := read.isWord
    rw [word] at symbol
    cases symbol
  cases advance_eq_ok_iff.mp step with
  | @operand frames empty => exact ⟨frames, empty, rfl⟩
  | operator read => exact (refused read).elim
  | name _ read => exact (refused read).elim
  | call => cases word

theorem operand_of_complete {state : State} {rest : List Lexeme} {tree : Expr}
    (word : lexeme.isWord = true) (completes : complete state (lexeme :: rest) = .ok tree) :
    ∃ frames empty, state = .operand frames empty := by
  obtain ⟨_, step, -⟩ := complete_cons_eq_ok_iff.mp completes
  exact operand_of_isWord word step

theorem State.Exchanges.of_operand {frames : List Frame} {empty : Bool} {state' : State}
    (same : State.Exchanges kept (.operand frames empty) state') :
    ∃ others, state' = .operand others empty ∧ FramesExchange kept frames others := by
  cases same with
  | operand same => exact ⟨_, rfl, same⟩

theorem complete_exchanges {lexemes lexemes' : List Lexeme}
    (exchange : LexemesExchange kept lexemes lexemes') {state state' : State} {tree : Expr}
    (same : state.Exchanges kept state') (completes : complete state lexemes = .ok tree) :
    ∃ tree', complete state' lexemes' = .ok tree' ∧ tree.Exchanges kept tree' := by
  -- What has been read of a call in whose arguments every bracket closes.
  have called {frames : List Frame} {empty : Bool} {name : Text} {argument rest : List Lexeme}
      {bracket : Bracket} (balanced : Balanced Lexeme.nesting argument)
      (completes : complete (.operand frames empty)
          (.identifier name :: .opensCall :: argument ++ .symbol (.closing bracket) :: rest) =
        .ok tree) :
      bracket = .round ∧
        ∃ arguments, complete (.operator frames (.call name 0 arguments)) rest = .ok tree := by
    rw [List.append_cons, complete_append] at completes
    obtain ⟨next, taken, completes⟩ := bind_eq_ok_iff.mp completes
    obtain ⟨round, arguments, rfl⟩ := read_call balanced taken
    exact ⟨round, arguments, completes⟩
  induction exchange generalizing state state' with
  | nil => exact finish_exchanges same completes
  | @keep lexeme rest others keeps _ ih =>
    obtain ⟨next, step, completes⟩ := complete_cons_eq_ok_iff.mp completes
    obtain ⟨next', step', same⟩ := advance_exchanges same keeps step
    rw [complete_cons step']
    exact ih same completes
  -- An operand of any length is read in one go, and so the two runs meet again behind it.
  | number value signed reads _ ih =>
    obtain ⟨frames, empty, rfl⟩ := operand_of_complete (by rfl) completes
    obtain ⟨others, rfl, around⟩ := same.of_operand
    rw [complete_append, reads others empty]
    exact ih (.operator around (.number value signed)) completes
  -- The whole call has been read on one side, and one name on the other.
  | test balanced bracket value _ ih =>
    obtain ⟨frames, empty, rfl⟩ := operand_of_complete (by rfl) completes
    obtain ⟨others, rfl, around⟩ := same.of_operand
    obtain ⟨-, arguments, completes⟩ := called balanced completes
    exact ih (.truth around (.test rfl arguments value)) completes
  -- Both sides read a call, and only what is in its list differs.
  | @aggregate name takes argument list rest after balanced bracket samples signed reads _ ih =>
    obtain ⟨frames, empty, rfl⟩ := operand_of_complete (by rfl) completes
    obtain ⟨others, rfl, around⟩ := same.of_operand
    obtain ⟨rfl, arguments, completes⟩ := called balanced completes
    have called : complete (.operand others empty)
          (.identifier name :: .opensCall :: list ++ .symbol (.closing .round) :: after) =
        complete (.operand (.call name 0 [] :: others) true)
          (list ++ .symbol (.closing .round) :: after) :=
      rfl
    rw [called, complete_append, reads]
    exact ih (.operator around (.aggregate takes arguments signed)) completes

theorem tree_exchanges {lexemes lexemes' : List Lexeme} {tree : Expr}
    (exchange : LexemesExchange kept lexemes lexemes') (reads : Parser.tree lexemes = .ok tree) :
    ∃ tree', Parser.tree lexemes' = .ok tree' ∧ tree.Exchanges kept tree' :=
  complete_exchanges exchange (.operand .nil false) reads

end Parser
end IndicatorFormula
