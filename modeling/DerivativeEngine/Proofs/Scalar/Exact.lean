import DerivativeEngine.Scalar.Basic
import Mathlib.Analysis.SpecialFunctions.Log.Base
import Mathlib.Analysis.SpecialFunctions.Pow.Real
import Mathlib.Analysis.SpecialFunctions.Trigonometric.Inverse
import Mathlib.Analysis.SpecialFunctions.Trigonometric.Arctan

/-! Arithmetic without rounding. The laws are those of an ordered field as far as rewriting leans on
them; they say nothing about the functions, which may be any. The real numbers are scalars of this
kind, with the functions of analysis: all of them are numbers, and a power of zero or of a negative
number is what analysis makes of it. -/

namespace DerivativeEngine

class ExactScalar (α : Type) [Scalar α] : Prop where
  beq_iff_eq : ∀ x y : α, (x == y) = true ↔ x = y
  not_lt_of_le : ∀ x y : α, x ≤ y → ¬ y < x
  one_ne_zero : (1 : α) ≠ 0
  add_zero : ∀ x : α, x + 0 = x
  zero_add : ∀ x : α, 0 + x = x
  sub_zero : ∀ x : α, x - 0 = x
  neg_neg : ∀ x : α, - -x = x
  mul_zero : ∀ x : α, x * 0 = 0
  zero_mul : ∀ x : α, 0 * x = 0
  mul_one : ∀ x : α, x * 1 = x
  one_mul : ∀ x : α, 1 * x = x
  mul_comm : ∀ x y : α, x * y = y * x
  add_mul : ∀ x y z : α, (x + y) * z = x * z + y * z
  zero_div : ∀ x : α, 0 / x = 0
  div_one : ∀ x : α, x / 1 = x

/-- What is asked of a power function where rewriting removes a power. -/
structure Scalar.PowerLaws (α : Type) [Scalar α] : Prop where
  pow_zero : ∀ x : α, Scalar.pow x 0 = 1
  pow_one : ∀ x : α, Scalar.pow x 1 = x
  one_pow : ∀ x : α, Scalar.pow 1 x = 1
  zero_pow : ∀ x : α, 0 < x → Scalar.pow 0 x = 0

section Reals

noncomputable def nearestEven (x : ℝ) : ℤ :=
  if Int.fract x < 1 / 2 ∨ Int.fract x = 1 / 2 ∧ Even ⌊x⌋ then ⌊x⌋ else ⌊x⌋ + 1

noncomputable def literalValue (l : Numeral.Literal) : ℝ :=
  let base : ℕ := if l.hex then 16 else 10
  let scale : ℝ := if l.hex then 2 else 10
  Numeral.natOfDigits base (l.whole ++ l.frac) / (base : ℝ) ^ l.frac.length * scale ^ l.exponent

/-- There is no number below all others; what stands for it here has no laws. -/
noncomputable instance : Scalar ℝ where
  toZero := inferInstance
  toOne := inferInstance
  toAdd := inferInstance
  toSub := inferInstance
  toMul := inferInstance
  toDiv := inferInstance
  toNeg := inferInstance
  toOfScientific := inferInstance
  toLT := inferInstance
  toLE := inferInstance
  toBEq := instBEqOfDecidableEq
  decidableLt := inferInstance
  decidableLe := inferInstance
  ofNat n := n
  ofLiteral? l := some (literalValue l)
  isFinite _ := true
  isNaN _ := false
  nearestInt? x := some (nearestEven x)
  pi := Real.pi
  e := Real.exp 1
  negInf := 0
  abs x := |x|
  sqrt := Real.sqrt
  exp := Real.exp
  log := Real.log
  log10 := Real.logb 10
  sin := Real.sin
  cos := Real.cos
  tan := Real.tan
  asin := Real.arcsin
  acos := Real.arccos
  atan := Real.arctan
  tanh := Real.tanh
  floor x := ⌊x⌋
  ceil x := ⌈x⌉
  pow x y := x ^ y
  atan2 y x := Complex.arg ⟨x, y⟩
  remainder x y := x - y * (if 0 ≤ x / y then (⌊x / y⌋ : ℝ) else ⌈x / y⌉)

instance : ExactScalar ℝ where
  beq_iff_eq _ _ := beq_iff_eq
  not_lt_of_le _ _ := not_lt_of_ge
  one_ne_zero := one_ne_zero
  add_zero := add_zero
  zero_add := zero_add
  sub_zero := sub_zero
  neg_neg := neg_neg
  mul_zero := mul_zero
  zero_mul := zero_mul
  mul_one := mul_one
  one_mul := one_mul
  mul_comm := mul_comm
  add_mul := add_mul
  zero_div := zero_div
  div_one := div_one

theorem powerLaws_real : Scalar.PowerLaws ℝ where
  pow_zero := Real.rpow_zero
  pow_one := Real.rpow_one
  one_pow := Real.one_rpow
  zero_pow _ positive := Real.zero_rpow (ne_of_gt positive)

theorem ofDraw_eq_zero_iff (n : ℕ) : (Scalar.ofDraw n : ℝ) = 0 ↔ n = 0 := by
  have size : ((0x20000000000000 : ℕ) : ℝ) ≠ 0 := by norm_num
  change (n : ℝ) / ((0x20000000000000 : ℕ) : ℝ) = 0 ↔ n = 0
  rw [div_eq_zero_iff, or_iff_left size, Nat.cast_eq_zero]

end Reals

end DerivativeEngine
