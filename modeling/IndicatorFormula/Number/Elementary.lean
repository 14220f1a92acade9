import IndicatorFormula.Number.Double

/-! Exponentials, logarithms and powers, which come from the machine's own numbers. -/

set_option autoImplicit false
namespace IndicatorFormula.Double

-- Powers are the core library's, also where there are others.
attribute [local instance (high)] instPowNat

def toFloat : Double → Float
  | .nan => Float.ofBits 0x7ff8000000000000
  | .infinite negative => Float.ofBits (if negative then 0xfff0000000000000 else 0x7ff0000000000000)
  | .finite negative magnitude =>
    Float.ofBits ((if negative then 0x8000000000000000 else 0) ||| UInt64.ofNat magnitude)

def ofFloat (x : Float) : Double :=
  let bits := x.toBits.toNat
  let magnitude := bits % 2 ^ (63 : Nat)
  if finiteMagnitudes < magnitude then .nan else ofMagnitude (2 ^ (63 : Nat) ≤ bits) magnitude

def exp (x : Double) : Double :=
  ofFloat x.toFloat.exp

def log (x : Double) : Double :=
  ofFloat x.toFloat.log

def log10 (x : Double) : Double :=
  ofFloat x.toFloat.log10

def pow (x y : Double) : Double :=
  ofFloat (x.toFloat.pow y.toFloat)

end IndicatorFormula.Double
