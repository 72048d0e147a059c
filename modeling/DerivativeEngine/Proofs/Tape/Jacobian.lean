import Mathlib.Analysis.Calculus.FDeriv.Pi
import Mathlib.Analysis.RCLike.Lemmas
import Mathlib.LinearAlgebra.Matrix.ToLin
import DerivativeEngine.Proofs.Scalar.Exact
import DerivativeEngine.Proofs.Tensor.Sums

/-! Derivatives of functions on arrays. Arrays of one shape are vectors of their elements; the
derivative of such a function is the matrix of the derivatives of its elements by the elements of
the argument, and a reverse is exact when it multiplies the gradient of the result by this matrix
from the left. -/

namespace DerivativeEngine

open Finset (range)
open scoped Matrix

namespace NDArray

def elements (x : NDArray ℝ) (n : ℕ) : Fin n → ℝ := fun i => x.get i

def ofElements (s : Shape) (a : Fin s.size → ℝ) : NDArray ℝ :=
  ofFn s fun i => if h : i < s.size then a ⟨i, h⟩ else 0

noncomputable def coordinate (s : Shape) (i : ℕ) : (Fin s.size → ℝ) →L[ℝ] ℝ :=
  if h : i < s.size then .proj ⟨i, h⟩ else 0

variable {s : Shape} {i : ℕ}

theorem get_ofElements (a : Fin s.size → ℝ) (i : ℕ) :
    (ofElements s a).get i = coordinate s i a := by
  unfold coordinate
  by_cases h : i < s.size
  · rw [ofElements, get_ofFn h, dif_pos h, dif_pos h]
    rfl
  · rw [get_of_size_le (Nat.le_of_not_lt h), dif_neg h]
    rfl

theorem ofElements_elements (x : NDArray ℝ) : ofElements x.shape (x.elements x.shape.size) = x :=
  ext_get rfl fun i hi => by
    have inside : i < x.shape.size := hi
    rw [get_ofElements, coordinate, dif_pos inside]
    rfl

theorem eq_ofElements {x : NDArray ℝ} {a : Fin s.size → ℝ} (shape : x.shape = s)
    (same : ∀ i : Fin s.size, x.get i = a i) : x = ofElements s a := by
  refine ext_get shape fun i hi => ?_
  have inside : i < s.size := shape ▸ hi
  rw [get_ofElements, coordinate, dif_pos inside]
  exact same ⟨i, inside⟩

theorem coordinate_elements (x : NDArray ℝ) (i : ℕ) :
    coordinate x.shape i (x.elements x.shape.size) = x.get i := by
  rw [← get_ofElements, ofElements_elements]

/-- `J` is the matrix of the derivatives of `f` at `x`, among arrays of the shape of `x`. -/
structure HasJacobianAt (f : NDArray ℝ → NDArray ℝ) (x : NDArray ℝ)
    (J : Matrix (Fin (f x).size) (Fin x.shape.size) ℝ) : Prop where
  shape : ∀ y : NDArray ℝ, y.shape = x.shape → (f y).shape = (f x).shape
  hasFDerivAt : HasFDerivAt (fun a => (f (ofElements x.shape a)).elements (f x).size)
    (LinearMap.toContinuousLinearMap J.mulVecLin) (x.elements x.shape.size)

/-- A gradient of the result times the matrix: the gradient of the argument. -/
def vectorJacobian {m : ℕ} (g : NDArray ℝ) (J : Matrix (Fin m) (Fin s.size) ℝ) : NDArray ℝ :=
  ofElements s (g.elements m ᵥ* J)

/-- Where the elements of the result have derivatives, and the reverse pairs a gradient with them,
it multiplies by the matrix of them. -/
theorem exists_jacobian {f : NDArray ℝ → NDArray ℝ} {x : NDArray ℝ}
    {reverse : NDArray ℝ → NDArray ℝ} (L : ℕ → (Fin x.shape.size → ℝ) →L[ℝ] ℝ)
    (shape : ∀ y : NDArray ℝ, y.shape = x.shape → (f y).shape = (f x).shape)
    (slope : ∀ k < (f x).size, HasFDerivAt (fun a => (f (ofElements x.shape a)).get k) (L k)
      (x.elements x.shape.size))
    (fits : ∀ g : NDArray ℝ, g.shape = (f x).shape → (reverse g).shape = x.shape)
    (adjoint : ∀ g : NDArray ℝ, g.shape = (f x).shape → ∀ d,
      ∑ k ∈ range (f x).size, g.get k * L k d =
        ∑ i ∈ range x.shape.size, coordinate x.shape i d * (reverse g).get i) :
    ∃ J, HasJacobianAt f x J ∧
      ∀ g : NDArray ℝ, g.shape = (f x).shape → reverse g = vectorJacobian g J := by
  let J : Matrix (Fin (f x).size) (Fin x.shape.size) ℝ := fun k j => L k (Pi.single j 1)
  have row (k : Fin (f x).size) :
      (ContinuousLinearMap.proj k).comp (LinearMap.toContinuousLinearMap J.mulVecLin) = L k := by
    refine ContinuousLinearMap.coe_injective (LinearMap.pi_ext' fun j => LinearMap.ext_ring ?_)
    change (J *ᵥ Pi.single j 1) k = L k (Pi.single j 1)
    rw [Matrix.mulVec_single_one]
    rfl
  refine ⟨J, ⟨shape, hasFDerivAt_pi'.2 fun k => ?_⟩, fun g out => ?_⟩
  · rw [row]
    exact slope k k.2
  · refine eq_ofElements (fits g out) fun i => ?_
    have picked : ∑ l ∈ range x.shape.size,
        coordinate x.shape l (Pi.single i 1) * (reverse g).get l = (reverse g).get i := by
      rw [Finset.sum_range]
      simp [coordinate, Pi.single_apply]
    rw [← picked, ← adjoint g out, Finset.sum_range]
    rfl

end NDArray

end DerivativeEngine
