import Mathlib
import DerivativeEngine.Proofs.Layer.Causality
import DerivativeEngine.Proofs.Scalar.Exact
import DerivativeEngine.Proofs.Tensor.Sums

/-! Real numbers with a least one and a largest one. Arithmetic among the real numbers is theirs,
without rounding; what is masked is minus infinity, and its exponential is zero. What is computed
from real numbers is real again, whatever the operation and wherever it is defined: only what is
masked is not. Sums of real numbers are their sums as real numbers, and the largest of some numbers,
one of them real and none plus infinity, is real. -/

namespace DerivativeEngine

noncomputable def onReal (f : ℝ → ℝ) (x : EReal) : EReal := f x.toReal

noncomputable def onReals (f : ℝ → ℝ → ℝ) (x y : EReal) : EReal := f x.toReal y.toReal

noncomputable instance : Scalar EReal where
  toZero := inferInstance
  toOne := inferInstance
  toAdd := inferInstance
  toSub := inferInstance
  toMul := inferInstance
  toDiv := inferInstance
  toNeg := inferInstance
  ofScientific m s e := ((OfScientific.ofScientific m s e : ℝ) : EReal)
  toLT := inferInstance
  toLE := inferInstance
  toBEq := instBEqOfDecidableEq
  decidableLt := inferInstance
  decidableLe := inferInstance
  ofNat n := ((n : ℝ) : EReal)
  ofLiteral? l := some (literalValue l : ℝ)
  isFinite x := decide (x ≠ ⊥ ∧ x ≠ ⊤)
  isNaN _ := false
  nearestInt? x := if x ≠ ⊥ ∧ x ≠ ⊤ then some (nearestEven x.toReal) else none
  pi := Real.pi
  e := Real.exp 1
  negInf := ⊥
  abs x := x.abs
  sqrt x := if x = ⊤ then ⊤ else onReal Scalar.sqrt x
  exp x := EReal.exp x
  log := onReal Scalar.log
  log10 := onReal Scalar.log10
  sin := onReal Scalar.sin
  cos := onReal Scalar.cos
  tan := onReal Scalar.tan
  asin := onReal Scalar.asin
  acos := onReal Scalar.acos
  atan := onReal Scalar.atan
  tanh := onReal Scalar.tanh
  floor := onReal Scalar.floor
  ceil := onReal Scalar.ceil
  pow := onReals Scalar.pow
  atan2 := onReals Scalar.atan2
  remainder := onReals Scalar.remainder

instance : MaskingScalar EReal where
  add_zero := add_zero
  zero_mul := zero_mul
  zero_div _ := EReal.zero_div
  exp_masked x := by
    change ((EReal.exp (⊥ - x) : ENNReal) : EReal) = 0
    rw [EReal.bot_sub, EReal.exp_bot, EReal.coe_ennreal_zero]
  larger_masked x := by
    change (if false = true then x else if false = true then ⊥ else if x < ⊥ then ⊥ else x) = x
    rw [if_neg Bool.false_ne_true, if_neg Bool.false_ne_true, if_neg not_lt_bot]

open Finset (range)

/-- Neither of the two infinite numbers. -/
def IsReal (x : EReal) : Prop := ∃ r : ℝ, x = r

namespace IsReal

variable {x y : EReal}

theorem coe (r : ℝ) : IsReal r := ⟨r, rfl⟩

theorem toReal (h : IsReal x) : (x.toReal : EReal) = x := by
  obtain ⟨r, rfl⟩ := h
  rw [EReal.toReal_coe]

theorem lt_top (h : IsReal x) : x < ⊤ := by
  obtain ⟨r, rfl⟩ := h
  exact EReal.coe_lt_top r

theorem zero : IsReal 0 := ⟨0, rfl⟩

theorem one : IsReal 1 := ⟨1, rfl⟩

theorem ofNat (n : ℕ) : IsReal (Scalar.ofNat n) := ⟨n, rfl⟩

theorem ofScientific (m : ℕ) (s : Bool) (e : ℕ) :
    IsReal (OfScientific.ofScientific m s e : EReal) :=
  ⟨OfScientific.ofScientific m s e, rfl⟩

theorem add (hx : IsReal x) (hy : IsReal y) : IsReal (x + y) := by
  obtain ⟨r, rfl⟩ := hx
  obtain ⟨s, rfl⟩ := hy
  exact ⟨r + s, (EReal.coe_add r s).symm⟩

theorem sub (hx : IsReal x) (hy : IsReal y) : IsReal (x - y) := by
  obtain ⟨r, rfl⟩ := hx
  obtain ⟨s, rfl⟩ := hy
  exact ⟨r - s, (EReal.coe_sub r s).symm⟩

theorem mul (hx : IsReal x) (hy : IsReal y) : IsReal (x * y) := by
  obtain ⟨r, rfl⟩ := hx
  obtain ⟨s, rfl⟩ := hy
  exact ⟨r * s, (EReal.coe_mul r s).symm⟩

theorem div (hx : IsReal x) (hy : IsReal y) : IsReal (x / y) := by
  obtain ⟨r, rfl⟩ := hx
  obtain ⟨s, rfl⟩ := hy
  exact ⟨r / s, (EReal.coe_div r s).symm⟩

theorem neg (hx : IsReal x) : IsReal (-x) := by
  obtain ⟨r, rfl⟩ := hx
  exact ⟨-r, (EReal.coe_neg r).symm⟩

theorem ite {p : Prop} [Decidable p] (hx : IsReal x) (hy : IsReal y) :
    IsReal (if p then x else y) := by
  split
  · exact hx
  · exact hy

theorem sumTo {f : ℕ → EReal} (h : ∀ i, IsReal (f i)) : ∀ n, IsReal (sumTo f n)
  | 0 => zero
  | n + 1 => (sumTo h n).add (h n)

end IsReal

section Functions

theorem exp_coe (r : ℝ) : Scalar.exp (r : EReal) = (Real.exp r : EReal) := by
  change ((EReal.exp r : ENNReal) : EReal) = _
  rw [EReal.exp_coe, EReal.coe_ennreal_ofReal, max_eq_left (Real.exp_pos r).le]

theorem sqrt_coe (r : ℝ) : Scalar.sqrt (r : EReal) = (Real.sqrt r : EReal) := by
  change (if (r : EReal) = ⊤ then ⊤ else ((Real.sqrt (r : EReal).toReal : ℝ) : EReal)) = _
  rw [if_neg (EReal.coe_ne_top r), EReal.toReal_coe]

theorem larger_eq_max (x y : EReal) : NDArray.larger x y = max x y := by
  change (if false = true then x else if false = true then y else if x < y then y else x) = _
  rw [if_neg Bool.false_ne_true, if_neg Bool.false_ne_true, max_def_lt]

variable {x y : EReal}

theorem IsReal.exp (h : IsReal x) : IsReal (Scalar.exp x) := by
  obtain ⟨r, rfl⟩ := h
  exact ⟨Real.exp r, exp_coe r⟩

theorem IsReal.sqrt (h : IsReal x) : IsReal (Scalar.sqrt x) := by
  obtain ⟨r, rfl⟩ := h
  exact ⟨Real.sqrt r, sqrt_coe r⟩

theorem IsReal.log (x : EReal) : IsReal (Scalar.log x) := ⟨_, rfl⟩

theorem IsReal.larger (hx : IsReal x) (hy : IsReal y) : IsReal (NDArray.larger x y) := by
  rw [larger_eq_max]
  exact max_rec' IsReal hx hy

end Functions

section Sums

theorem sumTo_coe {f : ℕ → EReal} {g : ℕ → ℝ} :
    ∀ {n : ℕ}, (∀ i < n, f i = g i) → sumTo f n = ((∑ i ∈ range n, g i : ℝ) : EReal)
  | 0, _ => rfl
  | n + 1, same => by
    rw [sumTo, sumTo_coe fun i hi => same i (Nat.lt_succ_of_lt hi), same n (Nat.lt_succ_self n),
      Finset.sum_range_succ, EReal.coe_add]

theorem sumTo_fin {n : ℕ} {f : ℕ → EReal} {g : Fin n → ℝ} (same : ∀ i : Fin n, f i = g i) :
    sumTo f n = ((∑ i, g i : ℝ) : EReal) := by
  have there : ∀ i < n, f i = ((f i).toReal : ℝ) := fun i hi =>
    (IsReal.toReal ⟨_, same ⟨i, hi⟩⟩).symm
  rw [sumTo_coe there, Finset.sum_range]
  simp only [same, EReal.toReal_coe]

theorem le_foldTo {f : ℕ → EReal} : ∀ {n i : ℕ}, i ≤ n → f i ≤ foldTo NDArray.larger f n
  | 0, i, h => by
    rw [Nat.le_zero.1 h]
    exact le_refl _
  | n + 1, i, h => by
    rw [foldTo, larger_eq_max]
    rcases Nat.le_succ_iff.1 h with before | rfl
    · exact (le_foldTo before).trans (le_max_left _ _)
    · exact le_max_right _ _

theorem foldTo_lt_top {f : ℕ → EReal} :
    ∀ {n : ℕ}, (∀ i ≤ n, f i < ⊤) → foldTo NDArray.larger f n < ⊤
  | 0, h => h 0 (Nat.le_refl 0)
  | n + 1, h => by
    rw [foldTo, larger_eq_max]
    exact max_lt (foldTo_lt_top fun i hi => h i (Nat.le_succ_of_le hi)) (h _ (Nat.le_refl _))

theorem IsReal.foldTo {f : ℕ → EReal} {n i : ℕ} (bounded : ∀ j ≤ n, f j < ⊤) (hi : i ≤ n)
    (real : IsReal (f i)) : IsReal (foldTo NDArray.larger f n) := by
  obtain ⟨r, hr⟩ := real
  have above : (r : EReal) ≤ DerivativeEngine.foldTo NDArray.larger f n := hr ▸ le_foldTo hi
  have proper : DerivativeEngine.foldTo NDArray.larger f n ≠ ⊥ :=
    ((EReal.bot_lt_coe r).trans_le above).ne'
  exact ⟨_, (EReal.coe_toReal (foldTo_lt_top bounded).ne proper).symm⟩

end Sums

end DerivativeEngine
