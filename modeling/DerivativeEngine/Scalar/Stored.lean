import DerivativeEngine.Scalar.Double

/-!
Doubles that are kept by their bits. What is only moved, copied or written to a file comes back
bit for bit, the payload of a nan included; arithmetic is that of doubles.
-/

namespace DerivativeEngine

/-- Scalars that are the same thing as 64-bit words. -/
class WordCoded (α : Type) where
  toWord : α → UInt64
  ofWord : UInt64 → α
  ofWord_toWord : ∀ x, ofWord (toWord x) = x
  toWord_ofWord : ∀ w, toWord (ofWord w) = w

structure StoredDouble where
  bits : UInt64
  deriving DecidableEq

namespace StoredDouble

def value (x : StoredDouble) : Float := Float.ofBits x.bits

def ofFloat (x : Float) : StoredDouble := ⟨x.toBits⟩

def unary (f : Float → Float) (x : StoredDouble) : StoredDouble := ofFloat (f x.value)

def binary (f : Float → Float → Float) (x y : StoredDouble) : StoredDouble :=
  ofFloat (f x.value y.value)

instance : WordCoded StoredDouble where
  toWord := bits
  ofWord := mk
  ofWord_toWord _ := rfl
  toWord_ofWord _ := rfl

instance : Scalar StoredDouble where
  zero := ofFloat 0
  one := ofFloat 1
  add := binary (· + ·)
  sub := binary (· - ·)
  mul := binary (· * ·)
  div := binary (· / ·)
  neg := unary (- ·)
  ofScientific m s e := ofFloat (OfScientific.ofScientific m s e)
  lt x y := x.value < y.value
  le x y := x.value ≤ y.value
  beq x y := x.value == y.value
  decidableLt x y := Float.decLt x.value y.value
  decidableLe x y := Float.decLe x.value y.value
  ofNat n := ofFloat (Scalar.ofNat n)
  ofLiteral? l := (Scalar.ofLiteral? l).map ofFloat
  isFinite x := x.value.isFinite
  isNaN x := x.value.isNaN
  nearestInt? x := Scalar.nearestInt? x.value
  pi := ofFloat Scalar.pi
  e := ofFloat Scalar.e
  negInf := ofFloat Scalar.negInf
  abs := unary Scalar.abs
  sqrt := unary Scalar.sqrt
  exp := unary Scalar.exp
  log := unary Scalar.log
  log10 := unary Scalar.log10
  sin := unary Scalar.sin
  cos := unary Scalar.cos
  tan := unary Scalar.tan
  asin := unary Scalar.asin
  acos := unary Scalar.acos
  atan := unary Scalar.atan
  tanh := unary Scalar.tanh
  floor := unary Scalar.floor
  ceil := unary Scalar.ceil
  pow := binary Scalar.pow
  atan2 := binary Scalar.atan2
  remainder := binary Scalar.remainder

instance : NumberText StoredDouble where
  shortest x := NumberText.shortest x.value
  general n x := NumberText.general n x.value
  scientific n x := NumberText.scientific n x.value
  fixedPoint n x := NumberText.fixedPoint n x.value

end StoredDouble

end DerivativeEngine
