import DerivativeEngine.Numeral.Literal

/-!
The arithmetic that expressions, equations and tensors are computed in. A scalar type names its
operations and promises nothing about them, so every definition of the library can be read over
doubles, where it runs, and over any other type, exact reals among them. Comparisons are those
of the scalar type itself: a nan is in no order with anything.
-/

namespace DerivativeEngine

open Numeral (Literal)

class Scalar (α : Type) extends
    Zero α, One α, Add α, Sub α, Mul α, Div α, Neg α, OfScientific α, LT α, LE α, BEq α where
  decidableLt : ∀ a b : α, Decidable (a < b)
  decidableLe : ∀ a b : α, Decidable (a ≤ b)
  ofNat : Nat → α
  /-- None when the literal is too large for the type. -/
  ofLiteral? : Literal → Option α
  isFinite : α → Bool
  isNaN : α → Bool
  /-- The nearest integer, a half going to the even one; none unless finite. -/
  nearestInt? : α → Option Int
  pi : α
  e : α
  /-- Below every number; its exponential is zero. -/
  negInf : α
  abs : α → α
  sqrt : α → α
  exp : α → α
  log : α → α
  log10 : α → α
  sin : α → α
  cos : α → α
  tan : α → α
  asin : α → α
  acos : α → α
  atan : α → α
  tanh : α → α
  floor : α → α
  ceil : α → α
  pow : α → α → α
  atan2 : α → α → α
  /-- Remainder of a truncating division, with the sign of the dividend. -/
  remainder : α → α → α

namespace Scalar

variable {α : Type} [Scalar α]

instance (a b : α) : Decidable (a < b) := decidableLt a b

instance (a b : α) : Decidable (a ≤ b) := decidableLe a b

def isInfinite (x : α) : Bool := !isFinite x && !isNaN x

def ofInt (n : Int) : α := if n < 0 then -ofNat n.natAbs else ofNat n.natAbs

/-- The second of the two only where it is strictly smaller. -/
def min (x y : α) : α := if y < x then y else x

/-- The second of the two only where it is strictly larger. -/
def max (x y : α) : α := if x < y then y else x

/-- The numbers added from the left, starting at zero. -/
def sum (xs : List α) : α := xs.foldl (· + ·) 0

def ofBool (b : Bool) : α := if b then 1 else 0

/-- The draw `n` out of `2 ^ 53` as a number in `[0, 1)`. -/
def ofDraw (n : Nat) : α := ofNat n / ofNat 0x20000000000000

end Scalar

/-- How numbers of a scalar type are written. -/
class NumberText (α : Type) where
  /-- The shortest text that reads back. -/
  shortest : α → String
  /-- At most so many significant digits, without trailing zeros. -/
  general : Nat → α → String
  /-- One digit, so many decimals and an exponent. -/
  scientific : Nat → α → String
  /-- So many decimals and no exponent. -/
  fixedPoint : Nat → α → String

inductive ArithmeticFault where
  /-- A power or an integer beyond the range of the scalars. -/
  | overflow
  | divisionByZero
  | negativeRoot
  /-- A nan that should be an integer. -/
  | notANumber
  deriving DecidableEq, Repr

end DerivativeEngine
