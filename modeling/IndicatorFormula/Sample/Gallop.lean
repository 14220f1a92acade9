/-! Searching sorted runs for the place where a condition begins to hold.

A search by halving looks at the middle of what is left. A gallop starts at a place where the
boundary is expected, strides away from it with growing steps until it has passed the boundary, and
halves what the last step skipped. Conditions are computed in a monad, because comparisons of
samples may fail. -/

set_option autoImplicit false
namespace IndicatorFormula.Sample

variable {m : Type → Type} [Monad m] {α : Type}

/-- The first place between `first` and `first + count` at which a condition holds, found by
halving. It is `first + count` if the condition holds at none. -/
def bisect (holds : α → m Bool) (run : List α) (first count : Nat) : m Nat :=
  if count = 0 then pure first
  else
    let middle := first + count / 2
    match run[middle]? with
    | none => pure first
    | some sample => do
      if ← holds sample then bisect holds run first (count / 2)
      else bisect holds run (middle + 1) (count - count / 2 - 1)
termination_by count

/-- Strides on while `goesOn` holds of the distance, which becomes one more than twice as large with
every step: the last distance at which it did, and the first at which it did not or else the
limit. -/
def stride (goesOn : Nat → m Bool) (limit last distance : Nat) : m (Nat × Nat) :=
  if _inside : distance < limit then do
    if ← goesOn distance then stride goesOn limit distance (2 * distance + 1)
    else pure (last, distance)
  else pure (last, limit)
termination_by limit - distance

def holdsAt (holds : α → m Bool) (run : List α) (place : Nat) : m Bool :=
  match run[place]? with
  | some sample => holds sample
  | none => pure false

def boundary (holds : α → m Bool) (run : List α) (start : Nat) : m Nat := do
  if ← holdsAt holds run start then
    let (last, distance) ← stride (fun d => holdsAt holds run (start - d)) (start + 1) 0 1
    bisect holds run (start + 1 - distance) (distance - last - 1)
  else
    let fails := fun sample => do return !(← holds sample)
    let (last, distance) ← stride (fun d => holdsAt fails run (start + d)) (run.length - start) 0 1
    bisect holds run (start + last + 1) (distance - last - 1)

end IndicatorFormula.Sample
