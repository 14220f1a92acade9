/-! Binary floating-point numbers with 53 significant bits.

A finite number is a sign and a magnitude. Magnitudes are counted from zero upwards without gaps, so
the magnitudes below `finiteMagnitudes` are in the order of the numbers they stand for and the next
one would be infinite. Every magnitude is a whole number of units of 2^-1074, the smallest positive
number; results are computed exactly in units and then rounded once, to the nearest magnitude. -/

set_option autoImplicit false
namespace IndicatorFormula

-- Powers are the core library's, also where there are others.
attribute [local instance (high)] instPowNat

/-- How many magnitudes are finite: 2047 exponents with 2^52 fractions each. -/
abbrev finiteMagnitudes : Nat := 2047 * 2 ^ (52 : Nat)

/-- A floating-point number. Zero has a sign. -/
inductive Double where
  | nan
  | infinite (negative : Bool)
  | finite (negative : Bool) (magnitude : Fin finiteMagnitudes)
  deriving DecidableEq

namespace Double

@[irreducible] def one : Nat := 2 ^ (1074 : Nat)

def units (magnitude : Nat) : Nat :=
  if magnitude < 2 ^ (52 : Nat) then magnitude
  else (2 ^ (52 : Nat) + magnitude % 2 ^ (52 : Nat)) * 2 ^ (magnitude / 2 ^ (52 : Nat) - 1)

/-- The magnitude nearest to a quotient of units. Halfway between two magnitudes it is the even
one. -/
def nearest (numerator denominator : Nat) : Nat :=
  -- The first 53 bits of the quotient are kept; a short one has no more.
  let shift := (numerator / denominator).log2 - 52
  let step := denominator * 2 ^ shift
  let whole := numerator / step
  let rest := numerator % step
  let roundsUp := step < 2 * rest || (step == 2 * rest && whole % 2 == 1)
  2 ^ (52 : Nat) * shift + whole + if roundsUp then 1 else 0

/-- The number of a magnitude, which is infinite from `finiteMagnitudes` on. -/
def ofMagnitude (negative : Bool) (magnitude : Nat) : Double :=
  if h : magnitude < finiteMagnitudes then .finite negative ⟨magnitude, h⟩ else .infinite negative

def ofUnits (negative : Bool) (numerator denominator : Nat) : Double :=
  ofMagnitude negative (nearest numerator denominator)

def ofRatio (negative : Bool) (numerator denominator : Nat) : Double :=
  ofUnits negative (one * numerator) denominator

def ofInt (n : Int) : Double :=
  ofRatio (n < 0) n.natAbs 1

def zero (negative : Bool) : Double :=
  .finite negative ⟨0, by decide⟩

def signedUnits (negative : Bool) (magnitude : Nat) : Int :=
  if negative then -(units magnitude : Int) else units magnitude

def ofSignedUnits (total : Int) : Double :=
  ofUnits (total < 0) total.natAbs 1

def isFinite : Double → Bool
  | .finite .. => true
  | _ => false

def isNaN : Double → Bool
  | .nan => true
  | _ => false

def isZero : Double → Bool
  | .finite _ magnitude => magnitude.val == 0
  | _ => false

def neg : Double → Double
  | .nan => .nan
  | .infinite negative => .infinite !negative
  | .finite negative magnitude => .finite (!negative) magnitude

def abs : Double → Double
  | .nan => .nan
  | .infinite _ => .infinite false
  | .finite _ magnitude => .finite false magnitude

/-- Sums of opposite infinities are undefined; a sum of zero is negative only if both summands
are. -/
def add : Double → Double → Double
  | .nan, _ => .nan
  | _, .nan => .nan
  | .infinite negative, .infinite negative' =>
    if negative = negative' then .infinite negative else .nan
  | .infinite negative, .finite .. => .infinite negative
  | .finite .., .infinite negative => .infinite negative
  | .finite negative magnitude, .finite negative' magnitude' =>
    let total := signedUnits negative magnitude + signedUnits negative' magnitude'
    if total = 0 then zero (negative && negative') else ofSignedUnits total

def sub (x y : Double) : Double :=
  x.add y.neg

/-- The product of zero and an infinity is undefined. -/
def mul : Double → Double → Double
  | .nan, _ => .nan
  | _, .nan => .nan
  | .infinite negative, .infinite negative' => .infinite (negative != negative')
  | .infinite negative, .finite negative' magnitude =>
    if magnitude.val = 0 then .nan else .infinite (negative != negative')
  | .finite negative magnitude, .infinite negative' =>
    if magnitude.val = 0 then .nan else .infinite (negative != negative')
  | .finite negative magnitude, .finite negative' magnitude' =>
    ofUnits (negative != negative') (units magnitude * units magnitude') one

/-- The quotient of two zeros or of two infinities is undefined; other quotients by zero are
infinite. -/
def div : Double → Double → Double
  | .nan, _ => .nan
  | _, .nan => .nan
  | .infinite _, .infinite _ => .nan
  | .infinite negative, .finite negative' _ => .infinite (negative != negative')
  | .finite negative _, .infinite negative' => zero (negative != negative')
  | .finite negative magnitude, .finite negative' magnitude' =>
    if magnitude'.val = 0 then
      if magnitude.val = 0 then .nan else .infinite (negative != negative')
    else ofUnits (negative != negative') (one * units magnitude) (units magnitude')

/-- The remainder of a division that rounds toward zero; it has the sign of the dividend. The
remainder of an infinity, and any remainder by zero, is undefined. -/
def remainder : Double → Double → Double
  | .nan, _ => .nan
  | _, .nan => .nan
  | .infinite _, _ => .nan
  | x@(.finite ..), .infinite _ => x
  | .finite negative magnitude, .finite _ magnitude' =>
    if magnitude'.val = 0 then .nan else ofUnits negative (units magnitude % units magnitude') 1

def squareRoot (n : Nat) : Nat :=
  if n < 2 then n
  else
    let root := 2 * squareRoot (n / 4)
    if (root + 1) * (root + 1) ≤ n then root + 1 else root
termination_by n

/-- The number nearest to the square root of a quotient. Twice the root is cut to a whole number of
units; if that loses anything, any value between it and the next rounds as the root does. -/
def sqrtRatio (numerator denominator : Nat) : Double :=
  let scaled := one * one * (4 * numerator)
  let root := squareRoot (scaled / denominator)
  if root * root * denominator = scaled then ofUnits false root 2
    else ofUnits false (2 * root + 1) 4

def sqrt : Double → Double
  | .nan => .nan
  | .infinite negative => if negative then .nan else .infinite false
  | x@(.finite negative magnitude) =>
    if magnitude.val = 0 then x else if negative then .nan else sqrtRatio (units magnitude) one

def floor? : Double → Option Int
  | .finite negative magnitude => some ((signedUnits negative magnitude).fdiv one)
  | _ => none

def ceil? (x : Double) : Option Int :=
  x.neg.floor?.map (-·)

def truncate? : Double → Option Int
  | .finite negative magnitude => some ((signedUnits negative magnitude).tdiv one)
  | _ => none

end Double

def roundQuotient (numerator denominator : Nat) : Nat :=
  let whole := numerator / denominator
  let rest := numerator % denominator
  if denominator < 2 * rest || (denominator == 2 * rest && whole % 2 == 1) then whole + 1 else whole

/-- Rounds at a decimal place, counted behind the point or, if negative, before it. The exact value
decides and a half goes to the even neighbour. Places finer than the distance of any two numbers
leave them unchanged, and places before every number's first digit leave zero. -/
def Double.roundAt (places : Int) : Double → Double
  | .finite negative magnitude =>
    -- Neighbours are more than 10^-324 apart, and all finite numbers are below one half of 10^309.
    if 323 < places then .finite negative magnitude
    else if places < -308 then .zero negative
    else if 0 ≤ places then
      let scale := 10 ^ places.toNat
      .ofRatio negative (roundQuotient (units magnitude * scale) one) scale
    else
      let scale := 10 ^ (-places).toNat
      .ofRatio negative (roundQuotient (units magnitude) (one * scale) * scale) 1
  | x => x

/-- A value on the number line with both infinities, finite values in units. -/
inductive Extended where
  | below
  | at (units : Int)
  | above
  deriving DecidableEq

namespace Extended

def lt : Extended → Extended → Bool
  | .below, .below => false
  | .below, _ => true
  | .at a, .at b => a < b
  | .at _, .above => true
  | _, _ => false

end Extended

/-- Where a number lies, unless it is undefined. The two zeros lie at the same point. -/
def Double.extended? : Double → Option Extended
  | .nan => none
  | .infinite negative => some (if negative then .below else .above)
  | .finite negative magnitude => some (.at (signedUnits negative magnitude))

end IndicatorFormula
