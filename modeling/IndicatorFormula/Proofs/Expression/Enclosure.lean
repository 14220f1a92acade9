import IndicatorFormula.Proofs.Formula.Balance

/-! The arguments of calls.

Behind the opening bracket of a call, the parser leaves alone what is below the frame of the call
until the bracket is closed. In between it only counts how many other brackets are open. -/

set_option autoImplicit false
namespace IndicatorFormula.Parser

def Frame.isOpen : Frame → Bool
  | .unary .. | .binary .. => false
  | .group | .list _ | .call .. => true

def State.frames : State → List Frame
  | .operand frames _ | .name frames _ _ | .operator frames _ => frames

/-- The parser is within the arguments of a call, behind so many brackets that are open there. -/
def Within (name : Text) (outer : List Frame) (depth : Nat) (frames : List Frame) : Prop :=
  ∃ inner arguments, frames = inner ++ .call name 0 arguments :: outer ∧
    inner.countP Frame.isOpen = depth

variable {name : Text} {outer frames : List Frame} {depth : Nat} {expression : Expr}
  {state next : State} {lexeme : Lexeme}

theorem Within.reduced {level : Nat} {rest : List Frame} {tree : Expr}
    (within : Within name outer depth frames)
    (reduced : reduce level frames expression = (rest, tree)) : Within name outer depth rest := by
  fun_induction reduce level frames expression with
  | case1 operator position frames expression tight ih =>
    obtain ⟨inner, arguments, shape, count⟩ := within
    cases inner with
    | nil => cases shape
    | cons head inner =>
      cases shape
      exact ih ⟨inner, arguments, rfl, by simpa [Frame.isOpen] using count⟩ reduced
  | case3 operator position left frames expression tight ih =>
    obtain ⟨inner, arguments, shape, count⟩ := within
    cases inner with
    | nil => cases shape
    | cons head inner =>
      cases shape
      exact ih ⟨inner, arguments, rfl, by simpa [Frame.isOpen] using count⟩ reduced
  | case2 | case4 | case5 =>
    cases reduced
    exact within

theorem Within.push (within : Within name outer depth frames) (frame : Frame) :
    Within name outer (depth + if frame.isOpen then 1 else 0) (frame :: frames) := by
  obtain ⟨inner, arguments, rfl, rfl⟩ := within
  exact ⟨frame :: inner, arguments, rfl, List.countP_cons⟩

theorem Within.pop {frame : Frame} {rest : List Frame}
    (within : Within name outer depth (frame :: rest)) (isOpen : frame.isOpen = true) :
    (∃ arguments, depth = 0 ∧ frame = .call name 0 arguments ∧ rest = outer) ∨
      ∃ below, depth = below + 1 ∧ Within name outer below rest := by
  obtain ⟨inner, arguments, shape, rfl⟩ := within
  cases inner with
  | nil =>
    cases shape
    exact .inl ⟨arguments, rfl, rfl, rfl⟩
  | cons head inner =>
    cases shape
    exact .inr ⟨_, by rw [List.countP_cons, if_pos isOpen], inner, arguments, rfl, rfl⟩

theorem Within.close {depth' : Nat} {frame : Frame} {rest : List Frame}
    (within : Within name outer depth (frame :: rest)) (isOpen : frame.isOpen = true)
    (closes : Nesting.closes.turn depth = some depth') : Within name outer depth' rest := by
  rcases within.pop isOpen with ⟨_, rfl, -⟩ | ⟨below, rfl, around⟩ <;> cases closes
  exact around

theorem Within.extend {frame : Frame} {rest : List Frame}
    (within : Within name outer depth (frame :: rest)) {larger : Frame}
    (isOpen : frame.isOpen = larger.isOpen)
    (same : ∀ arguments, frame = .call name 0 arguments → ∃ more, larger = .call name 0 more) :
    Within name outer depth (larger :: rest) := by
  obtain ⟨inner, arguments, shape, rfl⟩ := within
  cases inner with
  | nil =>
    cases shape
    obtain ⟨more, rfl⟩ := same arguments rfl
    exact ⟨[], more, rfl, rfl⟩
  | cons head inner =>
    cases shape
    exact ⟨larger :: inner, arguments, rfl, by rw [List.countP_cons, List.countP_cons, isOpen]⟩

theorem OperatorStep.within {depth' : Nat} (read : OperatorStep 0 frames expression lexeme next)
    (within : Within name outer depth frames) (turned : lexeme.nesting.turn depth = some depth') :
    Within name outer depth' next.frames := by
  cases read with
  | binary operator reduced =>
    cases turned
    exact (within.reduced reduced).push _
  | item reduced =>
    cases turned
    exact (within.reduced reduced).extend rfl nofun
  | argument reduced =>
    cases turned
    refine (within.reduced reduced).extend rfl ?_
    rintro _ ⟨⟩
    exact ⟨_, rfl⟩
  -- Whatever ends an expression leaves the innermost bracket, and another one is around it.
  | closesGroup reduced | closesList reduced | closesCall reduced =>
    exact (within.reduced reduced).close rfl turned

theorem advance_within {depth' : Nat} (within : Within name outer depth state.frames)
    (step : advance state lexeme = .ok next) (turned : lexeme.nesting.turn depth = some depth') :
    Within name outer depth' next.frames := by
  cases advance_eq_ok_iff.mp step with
  | operator read => exact read.within within turned
  | name _ read => exact read.within within turned
  -- A round bracket behind a name belongs to a call.
  | call frames word place =>
    cases turned
    exact within.push (.call word place [])
  | operand read =>
    cases read with
    | number | identifier =>
      cases turned
      exact within
    | @sign _ _ _ operator same =>
      subst same
      cases operator <;> cases turned <;> exact within.push (.unary _ 0)
    | opensGroup =>
      cases turned
      exact within.push .group
    | opensList =>
      cases turned
      exact within.push (.list [])
    | closesList | closesCall => exact within.close rfl turned

theorem read_within {lexemes : List Lexeme} {depth' : Nat}
    (within : Within name outer depth state.frames) (taken : read state lexemes = .ok next)
    (turned : depth? Lexeme.nesting depth lexemes = some depth') :
    Within name outer depth' next.frames := by
  -- Both the state and the depth are those before the rest.
  induction lexemes generalizing state depth with
  | nil =>
    cases taken
    cases turned
    exact within
  | cons lexeme lexemes ih =>
    obtain ⟨middle, step, taken⟩ := read_cons_eq_ok_iff.mp taken
    rw [depth?_cons] at turned
    obtain ⟨deeper, turn, turned⟩ := Option.bind_eq_some_iff.mp turned
    exact ih (advance_within within step turn) taken turned

theorem Within.innermost {frame : Frame} {rest : List Frame}
    (within : Within name outer 0 (frame :: rest)) (isOpen : frame.isOpen = true) :
    ∃ arguments, frame = .call name 0 arguments ∧ rest = outer := by
  rcases within.pop isOpen with ⟨arguments, -, same, ends⟩ | ⟨_, impossible, -⟩
  · exact ⟨arguments, same, ends⟩
  · cases impossible

theorem OperatorStep.closing {bracket : Bracket}
    (read : OperatorStep 0 frames expression (.symbol (.closing bracket)) next)
    (within : Within name outer 0 frames) :
    bracket = .round ∧ ∃ arguments, next = .operator outer (.call name 0 arguments) := by
  cases read with
  | closesGroup reduced | closesList reduced =>
    obtain ⟨_, impossible, -⟩ := (within.reduced reduced).innermost rfl
    cases impossible
  | closesCall reduced =>
    obtain ⟨_, ⟨⟩, rfl⟩ := (within.reduced reduced).innermost rfl
    exact ⟨rfl, _, rfl⟩

theorem advance_closing {bracket : Bracket} (within : Within name outer 0 state.frames)
    (step : advance state (.symbol (.closing bracket)) = .ok next) :
    bracket = .round ∧ ∃ arguments, next = .operator outer (.call name 0 arguments) := by
  cases advance_eq_ok_iff.mp step with
  | operator read => exact read.closing within
  | name _ read => exact read.closing within
  | operand read =>
    cases read with
    | @sign _ _ _ operator same => cases operator <;> cases same
    | closesList =>
      obtain ⟨_, impossible, -⟩ := within.innermost rfl
      cases impossible
    | closesCall =>
      obtain ⟨_, ⟨⟩, rfl⟩ := within.innermost rfl
      exact ⟨rfl, _, rfl⟩

/-- What is read of a call in whose arguments every bracket closes is the call. -/
theorem read_call {argument : List Lexeme} {bracket : Bracket} {empty : Bool}
    (balanced : Balanced Lexeme.nesting argument)
    (taken : read (.operand frames empty)
      (.identifier name :: .opensCall :: argument ++ [.symbol (.closing bracket)]) = .ok next) :
    bracket = .round ∧ ∃ arguments, next = .operator frames (.call name 0 arguments) := by
  have taken : read (.operand (.call name 0 [] :: frames) true)
        (argument ++ [.symbol (.closing bracket)]) = .ok next :=
    taken
  rw [read, List.foldlM_append] at taken
  obtain ⟨middle, taken, last⟩ := bind_eq_ok_iff.mp taken
  obtain ⟨_, step, ⟨⟩⟩ := bind_eq_ok_iff.mp last
  exact advance_closing (read_within ⟨[], [], rfl, rfl⟩ taken (balanced 0)) step

end IndicatorFormula.Parser
