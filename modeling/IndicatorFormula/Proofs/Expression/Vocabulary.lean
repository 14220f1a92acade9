import IndicatorFormula.Proofs.Formula.Recasing
import IndicatorFormula.Proofs.Expression.Places

/-! The order of lexemes in expressions that have a value.

Nothing but a symbol follows what ends an operand, and every name is a truth value or that of a
function. The parser finds the first out at once, evaluation the second from the finished tree. -/

set_option autoImplicit false
namespace IndicatorFormula

namespace Expr

mutual

def isKnown (functions : List Builtin) : Expr → Bool
  | .number _ | .boolean _ => true
  | .variable .. => false
  | .list items => allKnown functions items
  | .unary _ _ operand => isKnown functions operand
  | .binary _ _ left right => isKnown functions left && isKnown functions right
  | .call name _ arguments =>
    (Builtin.ofName? functions name).isSome && allKnown functions arguments

def allKnown (functions : List Builtin) : List Expr → Bool
  | [] => true
  | expression :: rest => isKnown functions expression && allKnown functions rest

end

variable {functions : List Builtin}

theorem allKnown_append (expressions more : List Expr) :
    allKnown functions (expressions ++ more) =
      (allKnown functions expressions && allKnown functions more) := by
  induction expressions with
  | nil => rfl
  | cons expression rest ih => simp only [List.cons_append, allKnown, ih, Bool.and_assoc]

mutual

theorem isKnown_of_eval :
    (expression : Expr) → {value : Value} → expression.eval { functions } = .ok value →
      expression.isKnown functions = true
  | .number _, _, _ | .boolean _, _, _ => rfl
  | .variable name position, _, evaluated => nomatch evaluated
  | .list items, _, evaluated => by
    obtain ⟨values, evaluated, -⟩ := bind_eq_ok_iff.mp evaluated
    exact allKnown_of_evalAll items evaluated
  | .unary operator position operand, _, evaluated => by
    obtain ⟨value, evaluated, -⟩ := bind_eq_ok_iff.mp evaluated
    exact isKnown_of_eval operand evaluated
  | .binary operator position left right, _, evaluated => by
    obtain ⟨leftValue, evaluated, rest⟩ := bind_eq_ok_iff.mp evaluated
    obtain ⟨rightValue, evaluated', -⟩ := bind_eq_ok_iff.mp rest
    exact Bool.and_eq_true_iff.mpr
      ⟨isKnown_of_eval left evaluated, isKnown_of_eval right evaluated'⟩
  | .call name position arguments, _, evaluated => by
    simp only [eval] at evaluated
    split at evaluated
    · cases evaluated
    · rename_i function found
      obtain ⟨values, evaluated, -⟩ := bind_eq_ok_iff.mp evaluated
      simp only [isKnown, found, Option.isSome_some, Bool.true_and]
      exact allKnown_of_evalAll arguments evaluated

theorem allKnown_of_evalAll : (expressions : List Expr) → {values : List Value} →
    evalAll { functions } expressions = .ok values → allKnown functions expressions = true
  | [], _, _ => rfl
  | expression :: rest, _, evaluated => by
    obtain ⟨value, evaluated, more⟩ := bind_eq_ok_iff.mp evaluated
    obtain ⟨values, evaluated', -⟩ := bind_eq_ok_iff.mp more
    exact Bool.and_eq_true_iff.mpr
      ⟨isKnown_of_eval expression evaluated, allKnown_of_evalAll rest evaluated'⟩

end

end Expr

namespace Lexeme

def isWord : Lexeme → Bool
  | .number _ | .identifier _ => true
  | .symbol _ => false

def closes : Lexeme → Bool
  | .number _ | .identifier _ | .symbol (.closing _) => true
  | _ => false

end Lexeme

def Lexeme.opensCall : Lexeme :=
  .symbol (.opening .round)

/-- A name is that of a function if a call opens behind it, and otherwise a truth value. -/
def IsMeant (functions : List Builtin) (name : Text) (next : Option Lexeme) : Prop :=
  if next = some .opensCall then ∃ function ∈ functions, Text.Spelling function.name name
  else name = ['t', 'r', 'u', 'e'] ∨ name = ['f', 'a', 'l', 's', 'e']

/-- What may follow a lexeme in an expression that has a value. -/
structure Lexeme.Allows (functions : List Builtin) (lexeme : Lexeme) (next : Option Lexeme) :
    Prop where
  parted : lexeme.closes = true → ∀ other ∈ next, other.isWord = false
  meant : ∀ name, lexeme = .identifier name → IsMeant functions name next

def Orderly (functions : List Builtin) : List Lexeme → Prop
  | [] => True
  | lexeme :: rest => lexeme.Allows functions rest.head? ∧ Orderly functions rest

namespace Parser

variable {functions : List Builtin}

def Frame.isKnown (functions : List Builtin) : Frame → Bool
  | .unary .. | .group => true
  | .binary _ _ left => left.isKnown functions
  | .list items => Expr.allKnown functions items
  | .call name _ arguments =>
    (Builtin.ofName? functions name).isSome && Expr.allKnown functions arguments

def State.isKnown (functions : List Builtin) : State → Bool
  | .operand frames _ | .name frames _ _ => frames.all (Frame.isKnown functions)
  | .operator frames expression =>
    frames.all (Frame.isKnown functions) && expression.isKnown functions

def State.Allows (functions : List Builtin) (next : Option Lexeme) : State → Prop
  | .operand .. => True
  | .name _ word _ => (∀ other ∈ next, other.isWord = false) ∧ IsMeant functions word next
  | .operator .. => ∀ other ∈ next, other.isWord = false

theorem reduce_isKnown {level : Nat} {frames rest : List Frame} {expression tree : Expr}
    (reduced : reduce level frames expression = (rest, tree)) :
    (rest.all (Frame.isKnown functions) && tree.isKnown functions) =
      (frames.all (Frame.isKnown functions) && expression.isKnown functions) := by
  fun_induction reduce level frames expression with
  | case1 operator position frames expression tight ih =>
    simpa [Frame.isKnown, Expr.isKnown] using ih reduced
  | case3 operator position left frames expression tight ih =>
    rw [ih reduced, List.all_cons, Frame.isKnown, Expr.isKnown, ← Bool.and_assoc]
    congr 1
    exact Bool.and_comm _ _
  | _ =>
    cases reduced
    rfl

theorem finishOperator_isKnown {frames : List Frame} {expression tree : Expr}
    (finished : finishOperator frames expression = .ok tree)
    (known : tree.isKnown functions = true) :
    (frames.all (Frame.isKnown functions) && expression.isKnown functions) = true := by
  rw [← reduce_isKnown (finishOperator_eq_ok_iff.mp finished)]
  simpa using known

theorem isMeant_of_ofIdentifier {name : Text} {position : Nat} {next : Option Lexeme}
    (known : (Expr.ofIdentifier name position).isKnown functions = true)
    (other : next ≠ some .opensCall) : IsMeant functions name next := by
  rw [IsMeant, if_neg other]
  unfold Expr.ofIdentifier at known
  split at known
  · exact .inl ‹_›
  split at known
  · exact .inr ‹_›
  · cases known

theorem OperandStep.isKnown {frames : List Frame} {empty : Bool} {lexeme : Lexeme} {next : State}
    (read : OperandStep 0 frames empty lexeme next) (known : next.isKnown functions = true) :
    frames.all (Frame.isKnown functions) = true := by
  cases read <;>
    simpa [State.isKnown, Frame.isKnown, Expr.isKnown, Expr.allKnown, and_comm] using known

theorem OperatorStep.isKnown {frames : List Frame} {expression : Expr} {lexeme : Lexeme}
    {next : State} (read : OperatorStep 0 frames expression lexeme next)
    (known : next.isKnown functions = true) :
    (frames.all (Frame.isKnown functions) && expression.isKnown functions) = true := by
  -- What is read goes into the innermost frame, or takes its place.
  cases read with
  | binary operator reduced =>
    rw [← reduce_isKnown reduced]
    simpa [State.isKnown, Frame.isKnown, and_comm] using known
  | item reduced | argument reduced | closesGroup reduced | closesList reduced
  | closesCall reduced =>
    rw [← reduce_isKnown reduced]
    simpa [State.isKnown, Frame.isKnown, Expr.isKnown, Expr.allKnown_append, Expr.allKnown,
        and_assoc, and_comm, and_left_comm] using known

theorem OperatorStep.isWord {frames : List Frame} {expression : Expr} {lexeme : Lexeme}
    {next : State} (read : OperatorStep 0 frames expression lexeme next) :
    lexeme.isWord = false := by
  cases read <;> rfl

theorem advance_isKnown {state next : State} {lexeme : Lexeme}
    (step : advance state lexeme = .ok next) (known : next.isKnown functions = true) :
    state.isKnown functions = true ∧ state.Allows functions (some lexeme) := by
  cases advance_eq_ok_iff.mp step with
  | operand read => exact ⟨read.isKnown known, trivial⟩
  | operator read =>
    refine ⟨read.isKnown known, fun other found => ?_⟩
    cases found
    exact read.isWord
  -- Whether the name is that of a function is decided by the lexeme behind it.
  | call frames word =>
    simp only [State.isKnown, List.all_cons, Frame.isKnown, Expr.allKnown, Bool.and_true,
      Bool.and_eq_true] at known
    obtain ⟨found, before⟩ := known
    refine ⟨before, fun other found => by cases found; rfl, ?_⟩
    rw [IsMeant, if_pos (by rfl)]
    obtain ⟨function, found⟩ := Option.isSome_iff_exists.mp found
    have same : function.name = word := by
      unfold Builtin.ofName? at found
      simpa using List.find?_some found
    exact ⟨function, List.mem_of_find?_eq_some found, same ▸ Text.spelling_self function⟩
  | name other read =>
    have before := read.isKnown known
    rw [Bool.and_eq_true] at before
    refine ⟨before.1, fun other found => by cases found; exact read.isWord, ?_⟩
    exact isMeant_of_ofIdentifier before.2 fun same => other (Option.some.inj same)

theorem OperatorStep.of_closes {frames : List Frame} {expression : Expr} {lexeme : Lexeme}
    {next : State} (read : OperatorStep 0 frames expression lexeme next)
    (closes : lexeme.closes = true) :
    (∀ word, lexeme ≠ .identifier word) ∧
      ∃ frames expression, next = .operator frames expression := by
  cases read with
  | binary | item | argument => cases closes
  | closesGroup | closesList | closesCall => exact ⟨nofun, _, _, rfl⟩

theorem next_of_closes {state next : State} {lexeme : Lexeme}
    (step : advance state lexeme = .ok next) (closes : lexeme.closes = true) :
    (∃ frames word, lexeme = .identifier word ∧ next = .name frames word 0) ∨
      (∀ word, lexeme ≠ .identifier word) ∧
        ∃ frames expression, next = .operator frames expression := by
  cases advance_eq_ok_iff.mp step with
  | operator read => exact .inr (read.of_closes closes)
  | name _ read => exact .inr (read.of_closes closes)
  | call => cases closes
  | operand read =>
    cases read with
    | identifier => exact .inl ⟨_, _, rfl, rfl⟩
    | number | closesList | closesCall => exact .inr ⟨nofun, _, _, rfl⟩
    | @sign _ _ _ operator same =>
      subst same
      cases operator <;> cases closes
    | opensGroup | opensList => cases closes

theorem allows_of_advance {state next : State} {lexeme : Lexeme}
    (step : advance state lexeme = .ok next) {follower : Option Lexeme}
    (allowed : next.Allows functions follower) : lexeme.Allows functions follower := by
  -- A lexeme that closes nothing restricts nothing.
  by_cases closes : lexeme.closes = true
  · rcases next_of_closes step closes
      with ⟨frames, word, rfl, rfl⟩ | ⟨plain, frames, expression, rfl⟩
    · refine ⟨fun _ => allowed.1, fun other same => ?_⟩
      cases same
      exact allowed.2
    · exact ⟨fun _ => allowed, fun other same => absurd same (plain other)⟩
  · refine ⟨fun impossible => absurd impossible closes, fun other same => ?_⟩
    rw [same] at closes
    exact absurd rfl closes

theorem finish_isKnown {state : State} {tree : Expr} (finished : finish state = .ok tree)
    (known : tree.isKnown functions = true) :
    state.isKnown functions = true ∧ state.Allows functions none := by
  cases state with
  | operand frames empty => cases frames <;> cases finished
  | operator frames expression =>
    exact ⟨finishOperator_isKnown finished known, fun other found => nomatch found⟩
  | name frames word position =>
    have before := finishOperator_isKnown finished known
    rw [Bool.and_eq_true] at before
    exact ⟨before.1, fun other found => (nomatch found), isMeant_of_ofIdentifier before.2 nofun⟩

/-- Lexemes with a known tree are in order. -/
theorem orderly_of_complete {state : State} {lexemes : List Lexeme} {tree : Expr}
    (reads : complete state lexemes = .ok tree) (known : tree.isKnown functions = true) :
    state.isKnown functions = true ∧ state.Allows functions lexemes.head? ∧
      Orderly functions lexemes := by
  -- Backwards from the whole tree: a state is known if the one behind it is.
  induction lexemes generalizing state with
  | nil =>
    obtain ⟨before, allows⟩ := finish_isKnown reads known
    exact ⟨before, allows, trivial⟩
  | cons lexeme lexemes ih =>
    obtain ⟨next, step, reads⟩ := complete_cons_eq_ok_iff.mp reads
    obtain ⟨known, allows, orderly⟩ := ih reads
    obtain ⟨before, allowed⟩ := advance_isKnown step known
    exact ⟨before, allowed, allows_of_advance step allows, orderly⟩

end Parser

theorem orderly_of_tree {functions : List Builtin} {lexemes : List Lexeme} {tree : Expr}
    {value : Value} (reads : Parser.tree lexemes = .ok tree)
    (evaluated : tree.eval { functions } = .ok value) : Orderly functions lexemes :=
  (Parser.orderly_of_complete reads (Expr.isKnown_of_eval tree evaluated)).2.2

theorem Recased.orderly {functions : List Builtin} {lexemes capitals : List Lexeme}
    (recased : Recased lexemes capitals) (orderly : Orderly functions capitals) :
    Orderly functions lexemes := by
  -- Only the head of a call changes, and what may follow it is a bracket in either case.
  induction recased with
  | nil => trivial
  | same lexeme more ih =>
    refine ⟨⟨fun closes other found => ?_, fun name same => ?_⟩, ih orderly.2⟩
    · cases more with
      | nil => cases found
      | same follower => exact orderly.1.parted closes other found
      | head =>
        have impossible := orderly.1.parted closes _ rfl
        cases impossible
    · have meant := orderly.1.meant name same
      cases more with
      | nil | same => exact meant
      | head => exact meant
  | @head name function lexemes others spelling more ih =>
    obtain ⟨allows, allows', orderly⟩ := orderly
    refine ⟨⟨fun closes other found => ?_, fun other same => ?_⟩,
      ⟨(fun impossible => nomatch impossible), nofun⟩, ih orderly⟩
    · cases found
      rfl
    · cases same
      obtain ⟨function', member, spelling'⟩ : ∃ function' ∈ functions, Text.Spelling function'.name
          (name.map Text.capital) :=
        allows.meant _ rfl
      rw [spelling'.unique (Text.spelling_capital spelling)] at member
      exact ⟨function, member, spelling⟩

end IndicatorFormula
