import IndicatorFormula.Proofs.Expression.Vocabulary

/-! Operands and what joins them take turns.

In what the parser reads no operand follows another one, and no bracket closes behind what an
operand has to follow. Three phases are enough to tell this, without the stack of the parser. -/

set_option autoImplicit false
namespace IndicatorFormula

inductive Phase where
  /-- A bracket has opened, so an operand comes, or the bracket closes. -/
  | opened
  /-- An operand has to come. -/
  | pending
  /-- An operand has ended. -/
  | ended
  deriving DecidableEq, Repr

def Lexeme.phase : Lexeme → Phase
  | .number _ | .identifier _ | .symbol (.closing _) => .ended
  | .symbol (.opening _) => .opened
  | .symbol _ => .pending

def Phase.admits (phase : Phase) : Lexeme → Bool
  | .number _ | .identifier _ => phase != .ended
  | .symbol (.closing _) => phase != .pending
  | .symbol _ => true

def Phase.behind? (phase : Phase) (lexemes : List Lexeme) : Option Phase :=
  lexemes.foldlM (fun phase lexeme => if phase.admits lexeme then some lexeme.phase else none) phase

namespace Phase

variable {phase next : Phase} {lexeme : Lexeme} {lexemes first second : List Lexeme}

theorem behind?_append :
    phase.behind? (first ++ second) = (phase.behind? first).bind (·.behind? second) :=
  List.foldlM_append

theorem behind?_nil : phase.behind? [] = some next ↔ next = phase :=
  ⟨fun same => (Option.some.inj same).symm, fun same => congrArg some same.symm⟩

theorem behind?_cons : phase.behind? (lexeme :: lexemes) = some next ↔
    phase.admits lexeme = true ∧ lexeme.phase.behind? lexemes = some next := by
  unfold behind?
  rw [List.foldlM_cons]
  split <;> simp [*]

end Phase

namespace Parser

/-- Nothing is read in a state that may not stand in the phase. -/
def State.Within (phase : Phase) : State → Prop
  | .operand _ empty => phase = .opened ∨ phase = .pending ∧ empty = false
  | .name .. | .operator .. => phase = .ended

variable {state next : State} {lexeme : Lexeme} {phase : Phase}

theorem within_of_joins (step : advance state lexeme = .ok next) (joins : lexeme.phase = .pending) :
    next.Within .pending := by
  have behind {frames : List Frame} {expression : Expr}
      (read : OperatorStep 0 frames expression lexeme next) : next.Within .pending := by
    cases read with
    | binary | item | argument => exact .inr ⟨rfl, rfl⟩
    | closesGroup | closesList | closesCall => cases joins
  cases advance_eq_ok_iff.mp step with
  | operator read => exact behind read
  | name _ read => exact behind read
  | call => cases joins
  | operand read =>
    cases read with
    | sign => exact .inr ⟨rfl, rfl⟩
    | _ => cases joins

theorem within_of_opens {bracket : Bracket}
    (step : advance state (.symbol (.opening bracket)) = .ok next) : next.Within .opened := by
  cases advance_eq_ok_iff.mp step with
  | operator read => cases read
  | name _ read => cases read
  | call => exact .inl rfl
  | operand read =>
    cases read with
    | @sign _ _ _ operator same => cases operator <;> cases same
    | opensGroup | opensList => exact .inl rfl

theorem admits_of_advance (step : advance state lexeme = .ok next) (within : state.Within phase) :
    phase.admits lexeme = true := by
  -- Behind an operand, only a number or a name is refused.
  have ended {frames : List Frame} {expression : Expr}
      (read : OperatorStep 0 frames expression lexeme next) (behind : phase = .ended) :
      phase.admits lexeme = true := by
    subst behind
    cases read <;> rfl
  cases advance_eq_ok_iff.mp step with
  | operator read => exact ended read within
  | name _ read => exact ended read within
  | call => rfl
  | operand read =>
    cases read with
    | number | identifier => rcases within with rfl | ⟨rfl, -⟩ <;> rfl
    | @sign _ _ _ operator same =>
      subst same
      cases operator <;> rfl
    | opensGroup | opensList => rfl
    | closesList | closesCall =>
      rcases within with rfl | ⟨-, impossible⟩
      · rfl
      · cases impossible

theorem within_of_advance (step : advance state lexeme = .ok next) : next.Within lexeme.phase := by
  have ends : lexeme.closes = true → next.Within .ended := by
    intro closes
    rcases next_of_closes step closes with ⟨frames, word, -, rfl⟩ | ⟨-, frames, expression, rfl⟩ <;>
      rfl
  cases lexeme with
  | number | identifier => exact ends rfl
  | symbol sign =>
    cases sign with
    | opening bracket => exact within_of_opens step
    | closing bracket => exact ends rfl
    | _ => exact within_of_joins step rfl

theorem behind?_of_read {lexemes : List Lexeme} (reads : read state lexemes = .ok next)
    (within : state.Within phase) :
    ∃ after, phase.behind? lexemes = some after ∧ next.Within after := by
  induction lexemes generalizing state phase with
  | nil =>
    cases reads
    exact ⟨phase, rfl, within⟩
  | cons lexeme lexemes ih =>
    obtain ⟨between, step, reads⟩ := read_cons_eq_ok_iff.mp reads
    obtain ⟨after, stands, within'⟩ := ih reads (within_of_advance step)
    exact ⟨after, Phase.behind?_cons.mpr ⟨admits_of_advance step within, stands⟩, within'⟩

end Parser

/-- In the lexemes of a tree operands and what joins them take turns. -/
theorem Parser.behind?_of_tree {lexemes : List Lexeme} {tree : Expr}
    (reads : Parser.tree lexemes = .ok tree) :
    ∃ after, Phase.pending.behind? lexemes = some after := by
  obtain ⟨state, reads, -⟩ := bind_eq_ok_iff.mp reads
  obtain ⟨after, stands, -⟩ := behind?_of_read reads (.inr ⟨rfl, rfl⟩)
  exact ⟨after, stands⟩

end IndicatorFormula
