import DerivativeEngine.Numeral.Decimal
import DerivativeEngine.Scalar.Basic

/-!
Doubles as scalars. Zero to a negative power is plus infinity whatever the sign of the zero, and
an integral part has no negative zero; all else is the arithmetic of the format. Exponentials and
powers are exact where their values are known without rounding, and say so.
-/

namespace DerivativeEngine

namespace Double

def pow (base exponent : Float) : Float :=
  if base == 0.0 && exponent < 0.0 then 1.0 / 0.0
  else if exponent == 1.0 then base
  else Float.pow base exponent

/-- The exponentials of zero and of minus infinity are numbers themselves. -/
def exp (x : Float) : Float :=
  if x == 0.0 then 1.0 else if x == -1.0 / 0.0 then 0.0 else Float.exp x

/-- The sum with zero turns `-0.0` into `0.0` and changes nothing else. -/
def unsignedZero (x : Float) : Float := x + 0.0

end Double

instance : Scalar Float where
  zero := 0.0
  one := 1.0
  decidableLt := Float.decLt
  decidableLe := Float.decLe
  ofNat n := Numeral.ofDyadic false n 0
  ofLiteral? l := l.toFloat?
  isFinite := Float.isFinite
  isNaN := Float.isNaN
  nearestInt? := Numeral.roundToInt?
  pi := 3.141592653589793
  e := 2.718281828459045
  negInf := -1.0 / 0.0
  abs := Float.abs
  sqrt := Float.sqrt
  exp := Double.exp
  log := Float.log
  log10 := Float.log10
  sin := Float.sin
  cos := Float.cos
  tan := Float.tan
  asin := Float.asin
  acos := Float.acos
  atan := Float.atan
  tanh := Float.tanh
  floor x := Double.unsignedZero x.floor
  ceil x := Double.unsignedZero x.ceil
  pow := Double.pow
  atan2 := Float.atan2
  remainder := Numeral.remainder

instance : NumberText Float where
  shortest := Numeral.shortest
  general := Numeral.general
  scientific := Numeral.scientific
  fixedPoint := Numeral.fixedPoint

end DerivativeEngine
