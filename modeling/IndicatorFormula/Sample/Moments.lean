import IndicatorFormula.Number.Basic

/-! Mean, variance and standard deviation of samples.

All are computed exactly and rounded once. The mean and the variance of whole samples are whole if
they can be. If some samples are infinite or undefined, the sum of those stands for all. -/

set_option autoImplicit false
namespace IndicatorFormula.Sample

-- Sums begin with the core library's zero, also where there are others.
attribute [local instance (high)] Zero.ofOfNat0

def units? (x : Number) : Option Int :=
  match x.extended? with
  | some (.at units) => some units
  | _ => none

def unbounded? (samples : List Number) : Option Double :=
  let others := samples.filterMap fun x =>
    match x with
    | .double value => if value.isFinite then none else some value
    | _ => none
  if others.isEmpty then none else some (others.foldl Double.add (.zero false))

/-- A quotient of units as a number, which is whole if all samples are and it has no remainder. -/
def exactQuotient (samples : List Number) (numerator : Int) (denominator : Nat) :
    Except Fault Number :=
  if samples.all (fun x => x.whole?.isSome) && numerator % denominator == 0 then
    .ok (.int (numerator / denominator))
  else do return .double (← Number.inRange (.ofRatio (numerator < 0) numerator.natAbs denominator))

def mean (samples : List Number) : Except Fault Number :=
  match unbounded? samples with
  | some sum => .ok (.double (sum.div (.ofInt samples.length)))
  | none => exactQuotient samples (samples.filterMap units?).sum (samples.length * Double.one)

/-- The exact variance of two finite samples or more, as a quotient: the squared deviations from the
mean add up to the sum of squares less the squared sum divided by the number of samples. -/
def varianceRatio (samples : List Number) : Int × Nat :=
  let sizes := samples.filterMap units?
  let count := samples.length
  (count * (sizes.map fun x => x * x).sum - sizes.sum * sizes.sum,
    count * (count - 1) * (Double.one * Double.one))

def variance (samples : List Number) : Except Fault Number :=
  match unbounded? samples with
  | some sum => .ok (.double (sum.div (.ofInt (samples.length - 1 : Nat))))
  | none =>
    let (numerator, denominator) := varianceRatio samples
    exactQuotient samples numerator denominator

def deviation (samples : List Number) : Except Fault Number :=
  match unbounded? samples with
  | some _ => .error .spread
  | none => do
    let (numerator, denominator) := varianceRatio samples
    return .double (← Number.inRange (.sqrtRatio numerator.toNat denominator))

end IndicatorFormula.Sample
