import IndicatorFormula.Value
import IndicatorFormula.Sample.Order
import IndicatorFormula.Sample.Moments

/-! The functions of formulas: scalar ones on single values, and aggregate ones on samples.

An aggregate function takes its samples from all its arguments, and from the items of those that are
lists. Without samples most give zero. -/

set_option autoImplicit false
namespace IndicatorFormula

inductive Builtin where
  | choose | isNull | abs | ceil | floor | round | sqrt | exp | log | log10
  | avg | count | max | median | min | percentile | rank | stddev | sum | variance
  deriving DecidableEq, Repr

namespace Builtin

def scalars : List Builtin :=
  [.choose, .isNull, .abs, .ceil, .floor, .round, .sqrt, .exp, .log, .log10]

def aggregates : List Builtin :=
  [.avg, .count, .max, .median, .min, .percentile, .rank, .stddev, .sum, .variance]

def all : List Builtin :=
  scalars ++ aggregates

def name : Builtin → Text
  | .choose => ['I', 'F']
  | .isNull => ['I', 'S', 'N', 'U', 'L', 'L']
  | .abs => ['A', 'B', 'S']
  | .ceil => ['C', 'E', 'I', 'L']
  | .floor => ['F', 'L', 'O', 'O', 'R']
  | .round => ['R', 'O', 'U', 'N', 'D']
  | .sqrt => ['S', 'Q', 'R', 'T']
  | .exp => ['E', 'X', 'P']
  | .log => ['L', 'O', 'G']
  | .log10 => ['L', 'O', 'G', '1', '0']
  | .avg => ['A', 'V', 'G']
  | .count => ['C', 'O', 'U', 'N', 'T']
  | .max => ['M', 'A', 'X']
  | .median => ['M', 'E', 'D', 'I', 'A', 'N']
  | .min => ['M', 'I', 'N']
  | .percentile => ['P', 'E', 'R', 'C', 'E', 'N', 'T', 'I', 'L', 'E']
  | .rank => ['R', 'A', 'N', 'K']
  | .stddev => ['S', 'T', 'D', 'D', 'E', 'V']
  | .sum => ['S', 'U', 'M']
  | .variance => ['V', 'A', 'R', 'I', 'A', 'N', 'C', 'E']

def ofName? (vocabulary : List Builtin) (name : Text) : Option Builtin :=
  vocabulary.find? fun function => function.name == name

def scale : Scale (Except Fault) Value where
  lt := Value.lt
  le x y := do return (← x.toNumber).le (← y.toNumber)
  add := Value.add
  sub := Value.sub
  mul := Value.mul
  half x := x.div (.int 2)
  ofNat n := .int n
  ofInt := .int
  floor x := do (← x.toNumber).floor
  ceil x := do (← x.toNumber).ceil

/-- The samples among the arguments: the items of lists and all other arguments. -/
def samples (arguments : List Value) : List Value :=
  arguments.flatMap fun argument =>
    match argument with
    | .list items => items
    | value => [value]

/-- The result of an order statistic, which is zero without samples. -/
def orZero (result : Option Value) : Value :=
  result.getD (.int 0)

def logarithm (rule : Double → Double) (x : Value) : Except Fault Double := do
  (← x.toNumber).logarithm rule

def apply : Builtin → List Value → Except Fault Value
  | .choose, [condition, yes, no] => .ok (if condition.isTrue then yes else no)
  | .isNull, [value] =>
    match value with
    | .null => .ok (.bool true)
    | _ => .ok (.bool false)
  | .abs, [value] => do return .number (← value.toNumber).abs
  | .ceil, [value] => do return .int (← (← value.toNumber).ceil)
  | .floor, [value] => do return .int (← (← value.toNumber).floor)
  | .round, [value] => do return .number (← (← value.toNumber).roundAt 0)
  | .round, [value, digits] => do
    let places ← (← digits.toNumber).truncate
    return .number (← (← value.toNumber).roundAt places)
  | .sqrt, [value] => do return .number (← (← value.toNumber).sqrt)
  | .exp, [value] => do return .number (← (← value.toNumber).exp)
  | .log, [value] => do return .double (← logarithm Double.log value)
  | .log, [value, base] => do
    let numerator ← logarithm Double.log value
    let denominator ← logarithm Double.log base
    if denominator.isZero then throw .domain
    return .double (numerator.div denominator)
  | .log10, [value] => do return .double (← logarithm Double.log10 value)
  | .avg, arguments => do
    let numbers ← (samples arguments).mapM Value.toNumber
    if numbers.isEmpty then return .int 0
    return .number (← Sample.mean numbers)
  | .count, arguments => .ok (.int (samples arguments).length)
  | .max, arguments => do return orZero (← scale.max? (samples arguments))
  | .median, arguments => do return orZero (← scale.median? (samples arguments))
  | .min, arguments => do return orZero (← scale.min? (samples arguments))
  | .percentile, [values, fraction] => do
    return (← scale.percentile? (samples [values]) fraction).getD .nan
  | .rank, [values, value] => do return .int (← scale.rank (samples [values]) value)
  | .stddev, arguments => spread Sample.deviation (samples arguments)
  | .sum, arguments => (samples arguments).foldlM Value.add (.int 0)
  | .variance, arguments => spread Sample.variance (samples arguments)
  | _, _ => .error .mismatch
where
  /-- A measure of spread, which is zero for fewer than two samples. -/
  spread (measure : List Number → Except Fault Number) (values : List Value) : Except Fault Value
      := do
    if values.length < 2 then return .double (.zero false)
    return .number (← measure (← values.mapM Value.toNumber))

end Builtin
end IndicatorFormula
