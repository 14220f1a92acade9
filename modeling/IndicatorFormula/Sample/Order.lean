import IndicatorFormula.Sample.Sort

/-! Order statistics over any scale of samples.

A scale says how samples are compared and computed with; comparisons may fail. -/

set_option autoImplicit false
namespace IndicatorFormula

/-- What order statistics ask of samples. -/
structure Scale (m : Type → Type) (α : Type) where
  lt : α → α → m Bool
  le : α → α → m Bool
  add : α → α → m α
  sub : α → α → m α
  mul : α → α → m α
  half : α → m α
  ofNat : Nat → α
  ofInt : Int → α
  floor : α → m Int
  ceil : α → m Int

namespace Scale

variable {m : Type → Type} [Monad m] {α : Type} (scale : Scale m α)

/-- The first sample that no later one exceeds, if `exceeds` orders the samples. -/
def extreme (exceeds : α → α → m Bool) : List α → m (Option α)
  | [] => pure none
  | first :: rest => do
    let choose := fun best sample => do
      if ← exceeds sample best then pure sample else pure best
    return some (← rest.foldlM choose first)

def max? : List α → m (Option α) :=
  extreme fun sample best => scale.lt best sample

def min? : List α → m (Option α) :=
  extreme scale.lt

def median? (samples : List α) : m (Option α) := do
  let sorted ← Sample.sort scale.lt samples
  let middle := sorted.length / 2
  if sorted.length % 2 = 1 then return sorted[middle]?
  else
    match sorted[middle - 1]?, sorted[middle]? with
    | some low, some high => return some (← scale.half (← scale.add low high))
    | _, _ => return none

/-- The sample at a fraction of the way from the least to the greatest. Between two places of the
order it is interpolated. There is none without samples or for a fraction that is not between zero
and one. -/
def percentile? (samples : List α) (fraction : α) : m (Option α) := do
  let sorted ← Sample.sort scale.lt samples
  if sorted.isEmpty then return none
  if !(← scale.le (scale.ofNat 0) fraction) then return none
  if !(← scale.le fraction (scale.ofNat 1)) then return none
  let position ← scale.mul (scale.ofNat (sorted.length - 1)) fraction
  let lower ← scale.floor position
  let upper ← scale.ceil position
  match sorted[lower.toNat]?, sorted[upper.toNat]? with
  | some low, some high =>
    if lower = upper then return some low
    let step ← scale.mul (← scale.sub high low) (← scale.sub position (scale.ofInt lower))
    return some (← scale.add low step)
  | _, _ => return none

def rank (samples : List α) (value : α) : m Nat := do
  let greater ← samples.filterM fun sample => scale.lt value sample
  return 1 + greater.length

end Scale
end IndicatorFormula
