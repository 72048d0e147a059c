import Mathlib.Analysis.Calculus.Deriv.Inv
import Mathlib.Analysis.SpecialFunctions.Sqrt
import DerivativeEngine.Proofs.Tape.Checks
import DerivativeEngine.Proofs.Tape.Jacobian
import DerivativeEngine.Proofs.Tensor.Rows

/-! The reverse of layer normalisation over the real numbers. Every number of a row moves the mean
and the variance of the row, and with them all numbers of the result in that row. The deviations
from the mean sum to zero, so the derivative of the variance has no part that comes through the
mean. -/

namespace DerivativeEngine

open Finset (range)

namespace NDArray

variable {x gamma beta g : NDArray ℝ} {eps : ℝ} {r j : ℕ}

theorem get_rowMeans_eq_sum {a : NDArray ℝ} {s : Shape} (shape : a.shape = s) (hr : r < s.rows) :
    a.rowMeans.get r = (∑ l ∈ range s.last, a.get (r * s.last + l)) / s.last := by
  rw [get_rowMeans shape hr, sumTo_eq_sum]
  rfl

theorem get_centred (hr : r < x.shape.rows) (hj : j < x.shape.last) :
    x.centred.get (r * x.shape.last + j) = x.get (r * x.shape.last + j) - x.rowMeans.get r :=
  get_withRows rfl hr hj

theorem get_rowVariances (hr : r < x.shape.rows) : x.rowVariances.get r =
    (∑ l ∈ range x.shape.last, (x.get (r * x.shape.last + l) - x.rowMeans.get r) *
      (x.get (r * x.shape.last + l) - x.rowMeans.get r)) / x.shape.last := by
  have shape : x.centred.shape = x.shape := rfl
  have squares : (mul x.centred x.centred).shape = x.shape := rfl
  rw [rowVariances, get_rowMeans_eq_sum squares hr]
  congr 1
  refine sum_range_congr fun l hl => ?_
  rw [get_mul shape hr hl, get_centred hr hl]

noncomputable def deviation (eps : ℝ) (x : NDArray ℝ) (r : ℕ) : ℝ := √(x.rowVariances.get r + eps)

noncomputable def hat (eps : ℝ) (x : NDArray ℝ) (r j : ℕ) : ℝ :=
  (x.get (r * x.shape.last + j) - x.rowMeans.get r) * (x.deviation eps r)⁻¹

theorem get_layerNorm (hr : r < x.shape.rows) (hj : j < x.shape.last) :
    (x.layerNorm eps gamma beta).get (r * x.shape.last + j) =
      gamma.get j * x.hat eps r j + beta.get j := by
  let d := x.rowVariances.map fun v => Scalar.sqrt (v + eps)
  let q := withRows (· / ·) (mulRow x.centred gamma) d
  have deviations : d.get r = x.deviation eps r := get_ofFn hr
  have centred : x.centred.shape = x.shape := rfl
  have scaled : (mulRow x.centred gamma).shape = x.shape := rfl
  have quotient : q.shape = x.shape := rfl
  rw [layerNorm, get_addRow quotient hr hj, get_withRows scaled hr hj, get_mulRow centred hr hj,
    deviations, get_centred hr hj, hat, div_eq_mul_inv, mul_assoc]

theorem get_normalised_snd (hr : r < x.shape.rows) :
    (normalised eps x x.rowMeans x.rowVariances).2.get r = (x.deviation eps r)⁻¹ :=
  (get_ofFn hr).trans (one_div _)

theorem get_normalised_fst (hr : r < x.shape.rows) (hj : j < x.shape.last) :
    (normalised eps x x.rowMeans x.rowVariances).1.get (r * x.shape.last + j) =
      x.hat eps r j := by
  have shape : (withRows (· - ·) x x.rowMeans).shape = x.shape := rfl
  have product : (normalised eps x x.rowMeans x.rowVariances).1.get (r * x.shape.last + j) =
      (withRows (· - ·) x x.rowMeans).get (r * x.shape.last + j) *
        (normalised eps x x.rowMeans x.rowVariances).2.get r := get_withRows shape hr hj
  rw [product, get_withRows rfl hr hj, get_normalised_snd hr, hat]

noncomputable def meanCoordinate (s : Shape) (r : ℕ) : (Fin s.size → ℝ) →L[ℝ] ℝ :=
  (s.last : ℝ)⁻¹ • ∑ l ∈ range s.last, coordinate s (r * s.last + l)

theorem get_rowMeans_ofElements {s : Shape} (hr : r < s.rows) (a : Fin s.size → ℝ) :
    (ofElements s a).rowMeans.get r = meanCoordinate s r a := by
  have shape : (ofElements s a).shape = s := rfl
  rw [get_rowMeans_eq_sum shape hr, div_eq_inv_mul]
  simp only [get_ofElements, meanCoordinate, smul_apply, sum_apply, smul_eq_mul]

theorem meanCoordinate_elements (hr : r < x.shape.rows) :
    meanCoordinate x.shape r (x.elements x.shape.size) = x.rowMeans.get r := by
  rw [← get_rowMeans_ofElements hr, ofElements_elements]

theorem sum_centred (hr : r < x.shape.rows) (wide : 0 < x.shape.last) :
    ∑ l ∈ range x.shape.last, (x.get (r * x.shape.last + l) - x.rowMeans.get r) = 0 := by
  have width : (x.shape.last : ℝ) ≠ 0 := Nat.cast_ne_zero.2 wide.ne'
  rw [Finset.sum_sub_distrib, Finset.sum_const, Finset.card_range, nsmul_eq_mul,
    get_rowMeans_eq_sum rfl hr, mul_div_cancel₀ _ width, sub_self]

theorem hasFDerivAt_rowVariances (hr : r < x.shape.rows) (wide : 0 < x.shape.last) :
    HasFDerivAt (fun a => (ofElements x.shape a).rowVariances.get r)
      ((2 * (x.shape.last : ℝ)⁻¹) • ∑ l ∈ range x.shape.last,
        (x.get (r * x.shape.last + l) - x.rowMeans.get r) •
          coordinate x.shape (r * x.shape.last + l)) (x.elements x.shape.size) := by
  let C := fun l => coordinate x.shape (r * x.shape.last + l)
  let M := meanCoordinate x.shape r
  have variance (a : Fin x.shape.size → ℝ) : (ofElements x.shape a).rowVariances.get r =
      (x.shape.last : ℝ)⁻¹ * ∑ l ∈ range x.shape.last, (C l - M) a * (C l - M) a := by
    have rows : (ofElements x.shape a).rowVariances.get r = _ := get_rowVariances hr
    rw [rows, div_eq_inv_mul]
    simp only [get_ofElements, get_rowMeans_ofElements hr]
    rfl
  simp only [variance]
  have squares := HasFDerivAt.fun_sum fun l (_ : l ∈ range x.shape.last) =>
    (C l - M).hasFDerivAt (x := x.elements x.shape.size) |>.fun_mul (C l - M).hasFDerivAt
  refine (squares.const_mul _).congr_fderiv ?_
  -- The mean moves all deviations alike, and they sum to zero.
  have through : ∑ l ∈ range x.shape.last,
      (x.get (r * x.shape.last + l) - x.rowMeans.get r) • M = 0 := by
    rw [← Finset.sum_smul, sum_centred hr wide, zero_smul]
  have each : ∀ l < x.shape.last, ((C l - M) (x.elements x.shape.size) • (C l - M) +
      (C l - M) (x.elements x.shape.size) • (C l - M)) =
        (2 : ℝ) • ((x.get (r * x.shape.last + l) - x.rowMeans.get r) • C l -
          (x.get (r * x.shape.last + l) - x.rowMeans.get r) • M) := by
    intro l hl
    rw [sub_apply, coordinate_elements, meanCoordinate_elements hr, smul_sub, two_smul]
  rw [sum_range_congr each, ← Finset.smul_sum, Finset.sum_sub_distrib, through, sub_zero, smul_smul,
    mul_comm]

theorem deviation_pos (positive : 0 < eps) (hr : r < x.shape.rows) : 0 < x.deviation eps r := by
  have squares : 0 ≤ x.rowVariances.get r := by
    rw [get_rowVariances hr]
    exact div_nonneg (Finset.sum_nonneg fun _ _ => mul_self_nonneg _) (Nat.cast_nonneg _)
  exact Real.sqrt_pos.2 (add_pos_of_nonneg_of_pos squares positive)

theorem hasFDerivAt_inv_deviation (positive : 0 < eps) (hr : r < x.shape.rows)
    (wide : 0 < x.shape.last) :
    HasFDerivAt (fun a => ((ofElements x.shape a).deviation eps r)⁻¹)
      (-((x.deviation eps r)⁻¹ * (x.deviation eps r)⁻¹ * (x.shape.last : ℝ)⁻¹) •
        ∑ l ∈ range x.shape.last, x.hat eps r l • coordinate x.shape (r * x.shape.last + l))
      (x.elements x.shape.size) := by
  let p := x.elements x.shape.size
  have same : (ofElements x.shape p).deviation eps r = x.deviation eps r := by
    rw [ofElements_elements]
  have apart := (deviation_pos positive hr).ne'
  have inside : (ofElements x.shape p).rowVariances.get r + eps ≠ 0 := by
    rw [ofElements_elements]
    exact (Real.sqrt_pos.1 (deviation_pos positive hr)).ne'
  have root := ((hasFDerivAt_rowVariances hr wide).add_const eps).sqrt inside
  have inverse := (hasDerivAt_inv apart).comp_hasFDerivAt_of_eq p root same.symm
  refine inverse.congr_fderiv ?_
  change _ • (1 / (2 * (ofElements x.shape p).deviation eps r)) • _ = _
  rw [same]
  simp only [hat, mul_comm _ (x.deviation eps r)⁻¹, ← smul_smul, ← Finset.smul_sum]
  simp only [smul_smul]
  congr 1
  field_simp

theorem hasFDerivAt_layerNorm (positive : 0 < eps) (hr : r < x.shape.rows)
    (hj : j < x.shape.last) : HasFDerivAt
      (fun a => ((ofElements x.shape a).layerNorm eps gamma beta).get (r * x.shape.last + j))
      ((gamma.get j * (x.deviation eps r)⁻¹) • (coordinate x.shape (r * x.shape.last + j) -
        meanCoordinate x.shape r - (x.hat eps r j * (x.shape.last : ℝ)⁻¹) •
          ∑ l ∈ range x.shape.last, x.hat eps r l • coordinate x.shape (r * x.shape.last + l)))
      (x.elements x.shape.size) := by
  let D := coordinate x.shape (r * x.shape.last + j) - meanCoordinate x.shape r
  have entry (a : Fin x.shape.size → ℝ) :
      ((ofElements x.shape a).layerNorm eps gamma beta).get (r * x.shape.last + j) =
        gamma.get j * (D a * ((ofElements x.shape a).deviation eps r)⁻¹) + beta.get j := by
    have row : ((ofElements x.shape a).layerNorm eps gamma beta).get (r * x.shape.last + j) =
        _ := get_layerNorm hr hj
    have top : (ofElements x.shape a).get (r * x.shape.last + j) -
        (ofElements x.shape a).rowMeans.get r = D a := by
      rw [get_ofElements, get_rowMeans_ofElements hr]
      rfl
    rw [row, hat, ← top]
    rfl
  simp only [entry]
  have product := (D.hasFDerivAt (x := x.elements x.shape.size)).fun_mul
    (hasFDerivAt_inv_deviation positive hr (Nat.zero_lt_of_lt hj))
  refine ((product.const_mul _).add_const _).congr_fderiv ?_
  have value : D (x.elements x.shape.size) =
      x.get (r * x.shape.last + j) - x.rowMeans.get r := by
    rw [sub_apply, coordinate_elements, meanCoordinate_elements hr]
  have share : x.hat eps r j =
      (x.get (r * x.shape.last + j) - x.rowMeans.get r) * (x.deviation eps r)⁻¹ := rfl
  rw [ofElements_elements, value]
  generalize ∑ l ∈ range x.shape.last,
    x.hat eps r l • coordinate x.shape (r * x.shape.last + l) = S
  rw [share]
  ext d
  simp only [smul_apply, add_apply, sub_apply, smul_eq_mul, D]
  ring

theorem get_layerNormGain (out : g.shape = x.shape) (hj : j < x.shape.last) :
    (layerNormGain eps x x.rowMeans x.rowVariances g).get j =
      ∑ r ∈ range x.shape.rows, g.get (r * x.shape.last + j) * x.hat eps r j := by
  let scaled := mul g (normalised eps x x.rowMeans x.rowVariances).1
  have shape : scaled.shape = x.shape := out
  rw [layerNormGain, get_sumRows shape hj, sumTo_eq_sum]
  refine sum_range_congr fun r hr => ?_
  rw [get_mul out hr hj, get_normalised_fst hr hj]

theorem get_layerNormInput (out : g.shape = x.shape) (hr : r < x.shape.rows)
    (hj : j < x.shape.last) :
    (layerNormInput eps x x.rowMeans x.rowVariances gamma g).get (r * x.shape.last + j) =
      (x.deviation eps r)⁻¹ * (gamma.get j * g.get (r * x.shape.last + j) -
        (∑ l ∈ range x.shape.last, gamma.get l * g.get (r * x.shape.last + l)) / x.shape.last -
        x.hat eps r j * ((∑ l ∈ range x.shape.last,
          gamma.get l * g.get (r * x.shape.last + l) * x.hat eps r l) / x.shape.last)) := by
  let n := normalised eps x x.rowMeans x.rowVariances
  let d := mulRow g gamma
  let correction := withRows (· * ·) n.1 (mul d n.1).rowMeans
  let inner := sub (withRows (· - ·) d d.rowMeans) correction
  have scaled : d.shape = x.shape := out
  have product : (mul d n.1).shape = x.shape := out
  have hats : n.1.shape = x.shape := rfl
  have whole : inner.shape = x.shape := out
  have inside : r * x.shape.last + j < d.shape.size := by
    rw [scaled]
    exact Shape.place_lt hr hj
  have difference : inner.get (r * x.shape.last + j) =
      (withRows (· - ·) d d.rowMeans).get (r * x.shape.last + j) -
        correction.get (r * x.shape.last + j) :=
    get_sub inside
  have products : ∀ l < x.shape.last, (mul d n.1).get (r * x.shape.last + l) =
      gamma.get l * g.get (r * x.shape.last + l) * x.hat eps r l := by
    intro l hl
    rw [get_mul scaled hr hl, get_mulRow out hr hl, get_normalised_fst hr hl]
  change (withRows (fun v s => s * v) inner n.2).get (r * x.shape.last + j) = _
  rw [get_withRows whole hr hj, difference, get_withRows scaled hr hj, get_withRows hats hr hj,
    get_normalised_snd hr, get_normalised_fst hr hj, get_mulRow out hr hj,
    get_rowMeans_eq_sum scaled hr, get_rowMeans_eq_sum product hr, sum_range_congr products,
    sum_range_congr fun l hl => get_mulRow out hr hl]

theorem exists_jacobian_row {f reverse : NDArray ℝ → NDArray ℝ} {row : NDArray ℝ} {s : Shape}
    (c e : ℕ → ℕ → ℝ) (width : row.shape = [s.last]) (shape : ∀ y, (f y).shape = s)
    (entry : ∀ y : NDArray ℝ, ∀ r < s.rows, ∀ j < s.last,
      (f y).get (r * s.last + j) = y.get j * c r j + e r j)
    (fits : ∀ g : NDArray ℝ, g.shape = s → (reverse g).shape = row.shape)
    (sums : ∀ g : NDArray ℝ, g.shape = s → ∀ j < s.last,
      (reverse g).get j = ∑ r ∈ range s.rows, g.get (r * s.last + j) * c r j) :
    ∃ J, HasJacobianAt f row J ∧
      ∀ g : NDArray ℝ, g.shape = (f row).shape → reverse g = vectorJacobian g J := by
  let n := s.last
  have whole : (f row).size = s.size := congrArg Shape.size (shape row)
  have size : row.shape.size = n := by rw [width, Shape.size_one]
  refine exists_jacobian (fun k => c (k / n) (k % n) • coordinate row.shape (k % n))
    (fun y _ => (shape y).trans (shape row).symm) (fun k hk => ?_)
    (fun g out => fits g (out.trans (shape row))) fun g out d => ?_
  · obtain ⟨r, hr, j, hj, rfl⟩ := Shape.exists_place (whole ▸ hk)
    simp only [n, Shape.index_div hj, Shape.index_mod hj, entry _ r hr j hj, get_ofElements]
    exact ((coordinate row.shape j).hasFDerivAt.mul_const _).add_const _
  · rw [whole, sum_range_places, Finset.sum_comm]
    refine Eq.trans ?_ (Finset.sum_congr (congrArg range size.symm) fun _ _ => rfl)
    refine sum_range_congr fun j hj => ?_
    rw [sums g (out.trans (shape row)) j hj, Finset.mul_sum]
    refine sum_range_congr fun r hr => ?_
    simp only [n, Shape.index_div hj, Shape.index_mod hj, smul_apply, smul_eq_mul]
    ring

theorem exists_jacobian_gain (x beta : NDArray ℝ) (eps : ℝ) (width : gamma.shape = [x.shape.last]) :
    ∃ J, HasJacobianAt (fun y => x.layerNorm eps y beta) gamma J ∧
      ∀ g : NDArray ℝ, g.shape = x.shape →
        layerNormGain eps x x.rowMeans x.rowVariances g = vectorJacobian g J := by
  refine exists_jacobian_row (f := fun y => x.layerNorm eps y beta) (x.hat eps)
    (fun _ j => beta.get j) width (fun _ => rfl) (fun y r hr j hj => get_layerNorm hr hj)
    (fun g out => ?_) fun g out j hj => get_layerNormGain out hj
  have last : g.shape.last = x.shape.last := congrArg Shape.last out
  exact (congrArg (fun n => [n]) last).trans width.symm

theorem exists_jacobian_shift (x gamma : NDArray ℝ) (eps : ℝ)
    (width : beta.shape = [x.shape.last]) :
    ∃ J, HasJacobianAt (fun y => x.layerNorm eps gamma y) beta J ∧
      ∀ g : NDArray ℝ, g.shape = x.shape → sumRows g = vectorJacobian g J := by
  refine exists_jacobian_row (f := fun y => x.layerNorm eps gamma y) (fun _ _ => 1)
    (fun r j => gamma.get j * x.hat eps r j) width (fun _ => rfl)
    (fun y r hr j hj => ?_) (fun g out => ?_) fun g out j hj => ?_
  · rw [get_layerNorm hr hj]
    ring
  · have last : g.shape.last = x.shape.last := congrArg Shape.last out
    exact (congrArg (fun n => [n]) last).trans width.symm
  · rw [get_sumRows out hj, sumTo_eq_sum]
    exact Finset.sum_congr rfl fun _ _ => (mul_one _).symm

theorem sum_normalised (n : ℕ) (N : ℝ) (g h d : ℕ → ℝ) :
    ∑ j ∈ range n, g j * (d j - (∑ l ∈ range n, d l) / N -
        h j * ((∑ l ∈ range n, d l * h l) / N)) =
      ∑ j ∈ range n, d j * (g j - (∑ l ∈ range n, g l) / N -
        h j * ((∑ l ∈ range n, g l * h l) / N)) := by
  have spread (g d : ℕ → ℝ) : ∑ j ∈ range n, g j * (d j - (∑ l ∈ range n, d l) / N -
      h j * ((∑ l ∈ range n, d l * h l) / N)) = ∑ j ∈ range n, g j * d j -
        (∑ j ∈ range n, g j) * ((∑ l ∈ range n, d l) / N) -
          (∑ j ∈ range n, g j * h j) * ((∑ l ∈ range n, d l * h l) / N) := by
    rw [Finset.sum_mul, Finset.sum_mul, ← Finset.sum_sub_distrib, ← Finset.sum_sub_distrib]
    exact Finset.sum_congr rfl fun _ _ => by ring
  have commuted : ∑ j ∈ range n, g j * d j = ∑ j ∈ range n, d j * g j :=
    Finset.sum_congr rfl fun _ _ => mul_comm _ _
  rw [spread, spread, commuted]
  ring

theorem exists_jacobian_input (x gamma beta : NDArray ℝ) (positive : 0 < eps) :
    ∃ J, HasJacobianAt (fun y => y.layerNorm eps gamma beta) x J ∧
      ∀ g : NDArray ℝ, g.shape = x.shape →
        layerNormInput eps x x.rowMeans x.rowVariances gamma g = vectorJacobian g J := by
  let n := x.shape.last
  let C := coordinate x.shape
  let L (r j : ℕ) := (gamma.get j * (x.deviation eps r)⁻¹) • (C (r * n + j) -
    meanCoordinate x.shape r - (x.hat eps r j * (n : ℝ)⁻¹) •
      ∑ l ∈ range n, x.hat eps r l • C (r * n + l))
  refine exists_jacobian (f := fun y => y.layerNorm eps gamma beta) (fun k => L (k / n) (k % n))
    (fun _ shape => shape) (fun k hk => ?_) (fun _ out => out) fun g out d => ?_
  · have inside : k < x.shape.size := hk
    obtain ⟨r, hr, j, hj, rfl⟩ := Shape.exists_place inside
    simp only [n, Shape.index_div hj, Shape.index_mod hj]
    exact hasFDerivAt_layerNorm positive hr hj
  · have shape : g.shape = x.shape := out
    change ∑ k ∈ range x.shape.size, _ = _
    rw [sum_range_places, sum_range_places]
    refine sum_range_congr fun r hr => ?_
    have forward : ∀ j < n, g.get (r * n + j) * L ((r * n + j) / n) ((r * n + j) % n) d =
        (x.deviation eps r)⁻¹ * (gamma.get j * g.get (r * n + j) * (C (r * n + j) d -
          (∑ l ∈ range n, C (r * n + l) d) / n -
            x.hat eps r j * ((∑ l ∈ range n, C (r * n + l) d * x.hat eps r l) / n))) := by
      intro j hj
      rw [Shape.index_div hj, Shape.index_mod hj]
      simp only [L, meanCoordinate, smul_apply, sub_apply, sum_apply, smul_eq_mul,
        mul_comm (x.hat eps r _) (C _ d)]
      ring
    have back : ∀ j < n, C (r * n + j) d *
        (layerNormInput eps x x.rowMeans x.rowVariances gamma g).get (r * n + j) =
          (x.deviation eps r)⁻¹ * (C (r * n + j) d * (gamma.get j * g.get (r * n + j) -
            (∑ l ∈ range n, gamma.get l * g.get (r * n + l)) / n - x.hat eps r j *
              ((∑ l ∈ range n, gamma.get l * g.get (r * n + l) * x.hat eps r l) / n))) := by
      intro j hj
      rw [get_layerNormInput shape hr hj]
      ring
    rw [sum_range_congr forward, sum_range_congr back, ← Finset.mul_sum, ← Finset.mul_sum,
      sum_normalised]

end NDArray

namespace Operation

open NDArray (HasJacobianAt vectorJacobian)

variable {ν : Type} {shape : ν → Shape} {values now : ν → NDArray ℝ} {x gamma beta : ν} {eps : ℝ}

/-- The reverse of a layer normalisation, with its gain as it was, sends the products of the
gradient and the derivatives of the result by the elements of each operand in turn. -/
theorem sent_layerNorm (positive : 0 < eps)
    (applied : (layerNorm eps x gamma beta).Applied shape values)
    (unchanged : now gamma = values gamma) :
    ∃ Jx Jgamma Jbeta,
      HasJacobianAt (fun y => y.layerNorm eps (values gamma) (values beta)) (values x) Jx ∧
      HasJacobianAt (fun y => (values x).layerNorm eps y (values beta)) (values gamma) Jgamma ∧
      HasJacobianAt (fun y => (values x).layerNorm eps (values gamma) y) (values beta) Jbeta ∧
      ∀ g : NDArray ℝ, g.shape = ((layerNorm eps x gamma beta).result values).shape →
        (layerNorm eps x gamma beta).sent shape
            (((layerNorm eps x gamma beta).map values).saved
              ((layerNorm eps x gamma beta).result values)) now g =
          [(gamma, vectorJacobian g Jgamma), (beta, vectorJacobian g Jbeta),
            (x, vectorJacobian g Jx)] := by
  have fits : checkLayerNorm (shape x) (shape gamma) (shape beta) = .ok () := applied.check
  obtain ⟨gain, shift⟩ := checkLayerNorm_eq_ok fits
  have input := applied.shapes x (by simp [operands])
  have gain : (values gamma).shape = [(values x).shape.last] := by
    rw [applied.shapes gamma (by simp [operands]), gain, input]
  have shift : (values beta).shape = [(values x).shape.last] := by
    rw [applied.shapes beta (by simp [operands]), shift, input]
  obtain ⟨Jx, slope, exact⟩ :=
    NDArray.exists_jacobian_input (values x) (values gamma) (values beta) positive
  obtain ⟨Jgamma, slope', exact'⟩ := NDArray.exists_jacobian_gain (values x) (values beta) eps gain
  obtain ⟨Jbeta, slope'', exact''⟩ :=
    NDArray.exists_jacobian_shift (values x) (values gamma) eps shift
  refine ⟨Jx, Jgamma, Jbeta, slope, slope', slope'', fun g out => ?_⟩
  have same : g.shape = (values x).shape := out
  rw [← exact g same, ← exact' g same, ← exact'' g same, ← unchanged]
  rfl

theorem sent_layerNorm_rows :
    let op : Operation ℝ (Fin 3) := .layerNorm 1 0 1 2
    let values : Fin 3 → NDArray ℝ :=
      ![.ofFn [2, 2] fun i => i * (i - 1), .ofFn [2] fun i => i + 1, .ofFn [2] fun i => i]
    let shape : Fin 3 → Shape := fun v => (values v).shape
    ((0 : ℝ) < 1 ∧ op.Applied shape values ∧ values 1 = values 1) ∧
      ∃ Jx Jgamma Jbeta,
        HasJacobianAt (fun y => y.layerNorm 1 (values 1) (values 2)) (values 0) Jx ∧
        HasJacobianAt (fun y => (values 0).layerNorm 1 y (values 2)) (values 1) Jgamma ∧
        HasJacobianAt (fun y => (values 0).layerNorm 1 (values 1) y) (values 2) Jbeta ∧
        ∀ g : NDArray ℝ, g.shape = (op.result values).shape →
          op.sent shape ((op.map values).saved (op.result values)) values g =
            [(1, vectorJacobian g Jgamma), (2, vectorJacobian g Jbeta),
              (0, vectorJacobian g Jx)] := by
  intro op values shape
  have positive : (0 : ℝ) < 1 := one_pos
  have applied : op.Applied shape values := ⟨rfl, fun _ _ => rfl⟩
  exact ⟨⟨positive, applied, rfl⟩, sent_layerNorm positive applied rfl⟩

end Operation

end DerivativeEngine
