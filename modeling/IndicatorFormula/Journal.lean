import IndicatorFormula.Failure

/-! Computations that keep a journal.

Some mistakes in formulas are passed over and noted, others end the computation; what has been noted
until then is kept. -/

set_option autoImplicit false
namespace IndicatorFormula

inductive Level where
  | info
  | warning
  | error
  deriving DecidableEq, Repr

def Level.name : Level → String
  | .info => "INFO"
  | .warning => "WARNING"
  | .error => "ERROR"

structure JournalEntry where
  level : Level
  message : String
  deriving DecidableEq, Repr

def JournalEntry.text (entry : JournalEntry) : String :=
  entry.level.name ++ " " ++ entry.message

structure Traced (α : Type) where
  outcome : Except Failure α
  journal : List JournalEntry

namespace Traced

variable {α β : Type}

@[ext] theorem ext {x y : Traced α} (outcome : x.outcome = y.outcome)
    (journal : x.journal = y.journal) : x = y := by
  cases x
  cases y
  cases outcome
  cases journal
  rfl

protected def pure (value : α) : Traced α :=
  ⟨.ok value, []⟩

protected def bind (x : Traced α) (next : α → Traced β) : Traced β :=
  match x.outcome with
  | .ok value => ⟨(next value).outcome, x.journal ++ (next value).journal⟩
  | .error failure => ⟨.error failure, x.journal⟩

instance : Monad Traced where
  pure := Traced.pure
  bind := Traced.bind

@[simp] theorem outcome_pure (value : α) : (pure value : Traced α).outcome = .ok value :=
  rfl

@[simp] theorem journal_pure (value : α) : (pure value : Traced α).journal = [] :=
  rfl

theorem eq_of_pure {x : Traced α} {value other : α} (returns : x = pure value)
    (outcome : x.outcome = .ok other) : value = other :=
  Except.ok.inj ((congrArg Traced.outcome returns).symm.trans outcome)

theorem bind_of_ok {x : Traced α} {value : α} (ok : x.outcome = .ok value) (next : α → Traced β) :
    x >>= next = ⟨(next value).outcome, x.journal ++ (next value).journal⟩ := by
  change Traced.bind x next = _
  simp only [Traced.bind, ok]

theorem bind_of_error {x : Traced α} {failure : Failure} (failed : x.outcome = .error failure)
    (next : α → Traced β) : x >>= next = ⟨.error failure, x.journal⟩ := by
  change Traced.bind x next = _
  simp only [Traced.bind, failed]

instance : LawfulMonad Traced := .mk' Traced
  (by
    intro α x
    change Traced.bind x Traced.pure = x
    cases ran : x.outcome <;> ext <;> simp [Traced.bind, Traced.pure, ran])
  (by
    intro α β value next
    change Traced.bind (Traced.pure value) next = next value
    ext <;> simp [Traced.bind, Traced.pure])
  (by
    intro α β γ x next last
    change Traced.bind (Traced.bind x next) last =
      Traced.bind x fun value => Traced.bind (next value) last
    cases ran : x.outcome with
    | error failure => simp [Traced.bind, ran]
    | ok value => cases again : (next value).outcome <;> simp [Traced.bind, ran, again])

def ofExcept (outcome : Except Failure α) : Traced α :=
  ⟨outcome, []⟩

def fail (failure : Failure) : Traced α :=
  ⟨.error failure, []⟩

def note (level : Level) (message : String) : Traced Unit :=
  ⟨.ok (), [⟨level, message⟩]⟩

/-- Goes on after a mistake in a formula with a warning, or fails if the formula is read
strictly. -/
def passOver (strict : Bool) (error : FormulaError) : Traced Unit :=
  if strict then fail (.formula error) else note .warning error.message

def attempt (x : Traced α) : Traced (Except FormulaError α) :=
  match x.outcome with
  | .ok value => ⟨.ok (.ok value), x.journal⟩
  | .error (.formula error) => ⟨.ok (.error error), x.journal⟩
  | .error failure => ⟨.error failure, x.journal⟩

end Traced
end IndicatorFormula
