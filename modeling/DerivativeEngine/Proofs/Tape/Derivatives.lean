import Mathlib.Analysis.SpecialFunctions.ExpDeriv
import Mathlib.Analysis.SpecialFunctions.Log.Deriv
import DerivativeEngine.Proofs.Tape.Checks
import DerivativeEngine.Proofs.Tape.Jacobian
import DerivativeEngine.Proofs.Tensor.Rows

/-! Reverses of activations and losses over the real numbers. A shift of a row cancels in its
weights, so a weight is the exponential of a number less the logarithm of the sum of exponentials in
its row; the derivatives of that logarithm are the weights themselves, and the derivatives of
everything that is computed from weights follow. -/

namespace DerivativeEngine

open Finset (range)

namespace NDArray

variable {x t g : NDArray ℝ} {r j k : ℕ}

theorem sum_exp_sub (f : ℕ → ℝ) (n : ℕ) (m : ℝ) :
    ∑ l ∈ range n, Real.exp (f l - m) = (∑ l ∈ range n, Real.exp (f l)) / Real.exp m := by
  rw [Finset.sum_div]
  exact Finset.sum_congr rfl fun _ _ => Real.exp_sub _ _

theorem sum_exp_pos (f : ℕ → ℝ) {n : ℕ} (h : 0 < n) : 0 < ∑ l ∈ range n, Real.exp (f l) :=
  Finset.sum_pos (fun _ _ => Real.exp_pos _) (Finset.nonempty_range_iff.2 h.ne')

theorem get_logSumExp (hr : r < x.shape.rows) (wide : 0 < x.shape.last) : x.logSumExp.get r =
    Real.log (∑ l ∈ range x.shape.last, Real.exp (x.get (r * x.shape.last + l))) := by
  let m := x.rowMaxima.map fun x => if Scalar.isFinite x then x else 0
  let e := withRows (fun x m => Scalar.exp (x - m)) x m
  have shape : e.shape = x.shape := rfl
  have shifted : ∀ l < x.shape.last, e.get (r * x.shape.last + l) =
      Real.exp (x.get (r * x.shape.last + l) - m.get r) := fun l hl => get_withRows rfl hr hl
  have logarithm : x.logSumExp.get r = Real.log (e.rowSums.get r) + m.get r := get_ofFn hr
  rw [logarithm, get_rowSums shape hr, sumTo_congr shifted, sumTo_eq_sum, sum_exp_sub,
    Real.log_div (sum_exp_pos _ wide).ne' (Real.exp_pos _).ne', Real.log_exp, sub_add_cancel]

theorem get_softmax_eq_exp (hr : r < x.shape.rows) (hj : j < x.shape.last) :
    x.softmax.get (r * x.shape.last + j) =
      Real.exp (x.get (r * x.shape.last + j) - x.logSumExp.get r) := by
  have wide := Nat.zero_lt_of_lt hj
  rw [get_softmax_row rfl hr hj, get_logSumExp hr wide, sumTo_eq_sum, Real.exp_sub,
    Real.exp_log (sum_exp_pos _ wide)]
  change Real.exp _ / ∑ l ∈ range _, Real.exp _ = _
  rw [sum_exp_sub, Real.exp_sub, div_div_div_cancel_right₀ (Real.exp_pos _).ne']

theorem hasFDerivAt_logSumExp (hr : r < x.shape.rows) (wide : 0 < x.shape.last) :
    HasFDerivAt (fun a => (ofElements x.shape a).logSumExp.get r)
      (∑ l ∈ range x.shape.last, x.softmax.get (r * x.shape.last + l) •
        coordinate x.shape (r * x.shape.last + l)) (x.elements x.shape.size) := by
  have row (a : Fin x.shape.size → ℝ) : (ofElements x.shape a).logSumExp.get r =
      Real.log (∑ l ∈ range x.shape.last,
        Real.exp (coordinate x.shape (r * x.shape.last + l) a)) := by
    simp only [← get_ofElements]
    exact get_logSumExp hr wide
  simp only [row]
  have total := HasFDerivAt.fun_sum fun l (_ : l ∈ range x.shape.last) =>
    (coordinate x.shape (r * x.shape.last + l)).hasFDerivAt (x := x.elements x.shape.size) |>.exp
  refine (total.log (sum_exp_pos _ wide).ne').congr_fderiv ?_
  rw [Finset.smul_sum]
  refine sum_range_congr fun l hl => ?_
  rw [smul_smul, get_softmax_eq_exp hr hl, get_logSumExp hr wide, Real.exp_sub,
    Real.exp_log (sum_exp_pos _ wide), div_eq_inv_mul]
  simp only [coordinate_elements]

theorem hasFDerivAt_softmax (hr : r < x.shape.rows) (hj : j < x.shape.last) :
    HasFDerivAt (fun a => (ofElements x.shape a).softmax.get (r * x.shape.last + j))
      (x.softmax.get (r * x.shape.last + j) • (coordinate x.shape (r * x.shape.last + j) -
        ∑ l ∈ range x.shape.last, x.softmax.get (r * x.shape.last + l) •
          coordinate x.shape (r * x.shape.last + l))) (x.elements x.shape.size) := by
  have weight (a : Fin x.shape.size → ℝ) :
      (ofElements x.shape a).softmax.get (r * x.shape.last + j) =
        Real.exp (coordinate x.shape (r * x.shape.last + j) a -
          (ofElements x.shape a).logSumExp.get r) := by
    rw [← get_ofElements]
    exact get_softmax_eq_exp hr hj
  have slope := ((coordinate x.shape (r * x.shape.last + j)).hasFDerivAt.fun_sub
    (hasFDerivAt_logSumExp hr (Nat.zero_lt_of_lt hj))).exp
  rw [← weight, ofElements_elements] at slope
  simpa only [weight] using slope

theorem get_softmaxReverse {y : NDArray ℝ} {s : Shape} (weights : y.shape = s)
    (shape : g.shape = s) (hr : r < s.rows) (hj : j < s.last) :
    (softmaxReverse y g).get (r * s.last + j) = y.get (r * s.last + j) *
      (g.get (r * s.last + j) -
        ∑ l ∈ range s.last, g.get (r * s.last + l) * y.get (r * s.last + l)) := by
  have product : ∀ l < s.last, (mul g y).get (r * s.last + l) =
      g.get (r * s.last + l) * y.get (r * s.last + l) := fun l hl => get_mul shape hr hl
  have total : (mul g y).shape = s := shape
  rw [softmaxReverse, get_mul weights hr hj, get_withRows shape hr hj, get_rowSums total hr,
    sumTo_congr product, sumTo_eq_sum]

theorem sum_weighed (n : ℕ) (g w d : ℕ → ℝ) :
    ∑ j ∈ range n, g j * (w j * (d j - ∑ l ∈ range n, w l * d l)) =
      ∑ j ∈ range n, d j * (w j * (g j - ∑ l ∈ range n, g l * w l)) := by
  have left : ∑ j ∈ range n, g j * (w j * (d j - ∑ l ∈ range n, w l * d l)) =
      ∑ j ∈ range n, g j * w j * d j - (∑ j ∈ range n, g j * w j) * ∑ l ∈ range n, w l * d l := by
    rw [Finset.sum_mul, ← Finset.sum_sub_distrib]
    exact Finset.sum_congr rfl fun _ _ => by ring
  have right : ∑ j ∈ range n, d j * (w j * (g j - ∑ l ∈ range n, g l * w l)) =
      ∑ j ∈ range n, g j * w j * d j - (∑ l ∈ range n, g l * w l) * ∑ j ∈ range n, w j * d j := by
    rw [Finset.mul_sum, ← Finset.sum_sub_distrib]
    exact Finset.sum_congr rfl fun _ _ => by ring
  rw [left, right]

theorem exists_jacobian_softmax (x : NDArray ℝ) : ∃ J, HasJacobianAt softmax x J ∧
    ∀ g : NDArray ℝ, g.shape = x.softmax.shape →
      softmaxReverse x.softmax g = vectorJacobian g J := by
  let n := x.shape.last
  let y := x.softmax
  refine exists_jacobian (fun k => y.get k • (coordinate x.shape k -
    ∑ l ∈ range n, y.get (k / n * n + l) • coordinate x.shape (k / n * n + l)))
    (fun _ shape => shape) (fun k hk => ?_) (fun _ _ => rfl) fun g out d => ?_
  · have inside : k < x.shape.size := hk
    obtain ⟨r, hr, j, hj, rfl⟩ := Shape.exists_place inside
    simp only [n, Shape.index_div hj]
    exact hasFDerivAt_softmax hr hj
  · have weights : y.shape = x.shape := rfl
    have shape : g.shape = x.shape := out
    change ∑ k ∈ range x.shape.size, _ = _
    rw [sum_range_places, sum_range_places]
    refine sum_range_congr fun r hr => ?_
    have forward : ∀ j < n, (y.get (r * n + j) • (coordinate x.shape (r * n + j) -
        ∑ l ∈ range n, y.get ((r * n + j) / n * n + l) •
          coordinate x.shape ((r * n + j) / n * n + l))) d =
        y.get (r * n + j) * (coordinate x.shape (r * n + j) d -
          ∑ l ∈ range n, y.get (r * n + l) * coordinate x.shape (r * n + l) d) := by
      intro j hj
      rw [Shape.index_div hj]
      simp
    have back : ∀ j < n, (softmaxReverse y g).get (r * n + j) = y.get (r * n + j) *
        (g.get (r * n + j) - ∑ l ∈ range n, g.get (r * n + l) * y.get (r * n + l)) :=
      fun j hj => get_softmaxReverse weights shape hr hj
    rw [sum_range_congr fun j hj => congrArg (g.get (r * n + j) * ·) (forward j hj),
      sum_range_congr fun j hj => congrArg (coordinate x.shape (r * n + j) d * ·) (back j hj)]
    exact sum_weighed n _ _ _

theorem get_crossEntropy {ts : List ℕ} {m n : ℕ} (shape : x.shape = [m, n]) :
    (x.crossEntropy ts).get 0 =
      -((∑ r ∈ range m, (x.get (r * n + ts.getD r 0) - x.logSumExp.get r)) / m) := by
  simp only [crossEntropy, shape, Shape.dim, List.getD_cons_zero, List.getD_cons_succ]
  rw [get_fill (by decide), sumTo_eq_sum]
  rfl

theorem get_crossEntropyReverse {ts : List ℕ} {m n : ℕ} (shape : x.shape = [m, n]) (hr : r < m)
    (hj : j < n) : (x.crossEntropyReverse ts g).get (r * n + j) =
      (x.softmax.get (r * n + j) - if ts.getD r 0 = j then 1 else 0) * g.get 0 / m := by
  have inside : r * n + j < Shape.size [m, n] := by
    rw [Shape.size_two]
    exact Shape.index_lt hr hj
  simp only [crossEntropyReverse, shape, Shape.dim, List.getD_cons_zero, List.getD_cons_succ]
  rw [get_ofFn inside, Shape.index_div hj, Shape.index_mod hj]
  simp only [beq_iff_eq]
  rfl

theorem exists_jacobian_crossEntropy {ts : List ℕ} {m n : ℕ} (shape : x.shape = [m, n])
    (inside : ∀ r < m, ts.getD r 0 < n) : ∃ J, HasJacobianAt (fun y => y.crossEntropy ts) x J ∧
      ∀ g : NDArray ℝ, g.shape = (x.crossEntropy ts).shape →
        crossEntropyReverse x ts g = vectorJacobian g J := by
  have rows : x.shape.rows = m := by rw [shape, Shape.rows_two]
  have last : x.shape.last = n := by rw [shape]; rfl
  let C := coordinate x.shape
  let y := x.softmax
  refine exists_jacobian (f := fun y => y.crossEntropy ts) (fun _ => -((m : ℝ)⁻¹ •
    ∑ r ∈ range m, (C (r * n + ts.getD r 0) - ∑ l ∈ range n, y.get (r * n + l) • C (r * n + l))))
    (fun _ _ => rfl) (fun k hk => ?_) (fun _ _ => rfl) fun g out d => ?_
  · have first : k = 0 := Nat.lt_one_iff.1 hk
    subst first
    have loss (a : Fin x.shape.size → ℝ) : ((ofElements x.shape a).crossEntropy ts).get 0 =
        -((m : ℝ)⁻¹ * ∑ r ∈ range m, (C (r * n + ts.getD r 0) a -
          (ofElements x.shape a).logSumExp.get r)) := by
      rw [get_crossEntropy (show (ofElements x.shape a).shape = [m, n] from shape), div_eq_inv_mul]
      simp only [get_ofElements]
      rfl
    simp only [loss]
    refine (HasFDerivAt.fun_sum fun r hr => ?_).const_mul _ |>.neg
    have hr := Finset.mem_range.1 hr
    refine (C (r * n + ts.getD r 0)).hasFDerivAt.fun_sub ?_
    have slope := hasFDerivAt_logSumExp (x := x) (rows ▸ hr)
      (last ▸ Nat.zero_lt_of_lt (inside r hr))
    rwa [last] at slope
  · have one : (x.crossEntropy ts).size = 1 := rfl
    rw [one, Finset.sum_range_one, sum_range_places, rows, last]
    have reverse : ∀ r < m, ∑ j ∈ range n,
        C (r * n + j) d * (crossEntropyReverse x ts g).get (r * n + j) =
          ((∑ l ∈ range n, y.get (r * n + l) * C (r * n + l) d) - C (r * n + ts.getD r 0) d) *
            (g.get 0 / m) := by
      intro r hr
      have target : ∑ j ∈ range n, C (r * n + j) d * (if ts.getD r 0 = j then 1 else 0) =
          C (r * n + ts.getD r 0) d := by
        simp only [mul_ite, mul_one, mul_zero]
        rw [Finset.sum_ite_eq, if_pos (Finset.mem_range.2 (inside r hr))]
      rw [← target, sub_mul, Finset.sum_mul, Finset.sum_mul, ← Finset.sum_sub_distrib]
      refine sum_range_congr fun j hj => ?_
      rw [get_crossEntropyReverse shape hr hj]
      ring
    rw [sum_range_congr reverse, ← Finset.sum_mul]
    simp only [neg_apply, smul_apply, sum_apply, sub_apply, smul_eq_mul, Finset.sum_sub_distrib]
    ring

theorem get_meanSquaredError : (x.meanSquaredError t).get 0 =
    (∑ i ∈ range x.size, (x.get i - t.get i) * (x.get i - t.get i)) / x.size := by
  have squares : ∀ i < x.size, (mul (sub x t) (sub x t)).get i =
      (x.get i - t.get i) * (x.get i - t.get i) := by
    intro i hi
    have inside : i < (sub x t).size := hi
    rw [get_product inside, get_sub hi]
  have mean : (x.meanSquaredError t).get 0 =
      sumTo (mul (sub x t) (sub x t)).get x.size / x.size := get_fill (by decide)
  rw [mean, sumTo_congr squares, sumTo_eq_sum]

theorem get_meanSquaredErrorReverse {i : ℕ} (hi : i < x.size) :
    (x.meanSquaredErrorReverse t g).get i = 2 * (x.get i - t.get i) / x.size * g.get 0 := by
  have scaled : (x.meanSquaredErrorReverse t g).get i =
      2.0 * (sub x t).get i / x.size * g.get 0 := get_ofFn hi
  rw [scaled, get_sub hi]
  norm_num

theorem exists_jacobian_meanSquaredError (x t : NDArray ℝ) :
    ∃ J, HasJacobianAt (fun y => y.meanSquaredError t) x J ∧
      ∀ g : NDArray ℝ, g.shape = (x.meanSquaredError t).shape →
        meanSquaredErrorReverse x t g = vectorJacobian g J := by
  let C := coordinate x.shape
  refine exists_jacobian (f := fun y => y.meanSquaredError t) (fun _ =>
    (x.size : ℝ)⁻¹ • ∑ i ∈ range x.size, (2 * (x.get i - t.get i)) • C i)
    (fun _ _ => rfl) (fun k hk => ?_) (fun _ _ => rfl) fun g out d => ?_
  · have first : k = 0 := Nat.lt_one_iff.1 hk
    subst first
    have loss (a : Fin x.shape.size → ℝ) : ((ofElements x.shape a).meanSquaredError t).get 0 =
        (x.size : ℝ)⁻¹ * ∑ i ∈ range x.size, (C i a - t.get i) * (C i a - t.get i) := by
      rw [get_meanSquaredError, div_eq_inv_mul]
      simp only [get_ofElements]
      rfl
    simp only [loss]
    refine (HasFDerivAt.fun_sum fun i _ => ?_).const_mul _
    have difference := (C i).hasFDerivAt (x := x.elements x.shape.size) |>.sub_const (t.get i)
    refine (difference.fun_mul difference).congr_fderiv ?_
    rw [coordinate_elements, ← add_smul, two_mul]
  · have one : (x.meanSquaredError t).size = 1 := rfl
    rw [one, Finset.sum_range_one]
    simp only [smul_apply, sum_apply, smul_eq_mul, Finset.mul_sum]
    refine sum_range_congr fun i hi => ?_
    rw [get_meanSquaredErrorReverse hi]
    ring

theorem get_relu {i : ℕ} (hi : i < x.size) :
    x.relu.get i = if x.get i < 0 then 0 else x.get i := by
  have rectified : x.relu.get i = larger (x.get i) 0 := get_ofFn hi
  rw [rectified]
  rfl

theorem get_reluReverse {i : ℕ} (hi : i < x.size) :
    (reluReverse x g).get i = if 0 < x.get i then g.get i else 0 :=
  get_ofFn hi

theorem exists_jacobian_relu (off : ∀ i < x.size, x.get i ≠ 0) :
    ∃ J, HasJacobianAt relu x J ∧
      ∀ g : NDArray ℝ, g.shape = x.relu.shape → reluReverse x g = vectorJacobian g J := by
  let C := coordinate x.shape
  refine exists_jacobian (fun k => if 0 < x.get k then C k else 0)
    (fun _ shape => shape) (fun k hk => ?_) (fun _ _ => rfl) fun g out d => ?_
  · have rectified (a : Fin x.shape.size → ℝ) :
        (ofElements x.shape a).relu.get k = if C k a < 0 then 0 else C k a := by
      have inside : k < (ofElements x.shape a).size := hk
      rw [get_relu inside, get_ofElements]
    have value : C k (x.elements x.shape.size) = x.get k := coordinate_elements x k
    have near := (C k).continuous.continuousAt (x := x.elements x.shape.size)
    simp only [rectified]
    rcases lt_or_gt_of_ne (off k hk) with negative | positive
    · rw [if_neg negative.not_gt]
      have below := near.eventually (Iio_mem_nhds (value ▸ negative))
      refine (hasFDerivAt_const (0 : ℝ) _).congr_of_eventuallyEq ?_
      exact below.mono fun a ha => if_pos ha
    · rw [if_pos positive]
      have above := near.eventually (Ioi_mem_nhds (value ▸ positive))
      refine (C k).hasFDerivAt.congr_of_eventuallyEq ?_
      exact above.mono fun a ha => if_neg (not_lt_of_gt ha)
  · refine sum_range_congr fun i hi => ?_
    rw [get_reluReverse (x := x) hi]
    split_ifs
    · exact mul_comm _ _
    · simp

end NDArray

namespace Operation

open NDArray (HasJacobianAt vectorJacobian)

variable {ν : Type} {op : Operation ℝ ν} {shape : ν → Shape} {values now : ν → NDArray ℝ} {v : ν}

/-- An activation or a loss of one variable, and for a rectifier no number of it zero. -/
def SmoothAt (values : ν → NDArray ℝ) (v : ν) : Operation ℝ ν → Prop
  | relu x => x = v ∧ ∀ i < (values v).size, (values v).get i ≠ 0
  | softmax x | crossEntropy _ x | mse _ x => x = v
  | _ => False

/-- The reverse of an activation or a loss sends the product of the gradient and the derivatives of
the result by the elements of the operand. -/
theorem sent_vectorJacobian (smooth : op.SmoothAt values v) (applied : op.Applied shape values) :
    ∃ J, HasJacobianAt (fun y => op.result fun _ => y) (values v) J ∧
      ∀ g : NDArray ℝ, g.shape = (op.result values).shape →
        op.sent shape ((op.map values).saved (op.result values)) now g =
          [(v, vectorJacobian g J)] := by
  cases op with
  | relu x =>
    obtain ⟨rfl, off⟩ := smooth
    obtain ⟨J, slope, exact⟩ := NDArray.exists_jacobian_relu off
    exact ⟨J, slope, fun g out => congrArg (fun y => [(x, y)]) (exact g out)⟩
  | softmax x =>
    obtain rfl : x = v := smooth
    obtain ⟨J, slope, exact⟩ := NDArray.exists_jacobian_softmax (values x)
    exact ⟨J, slope, fun g out => congrArg (fun y => [(x, y)]) (exact g out)⟩
  | crossEntropy ts x =>
    obtain rfl : x = v := smooth
    have fits : checkTargets ts (shape x) = .ok () := applied.check
    obtain ⟨n, logits, inside⟩ := checkTargets_eq_ok fits
    have matrix := (applied.shapes x (by simp [operands])).trans logits
    obtain ⟨J, slope, exact⟩ := NDArray.exists_jacobian_crossEntropy matrix inside
    exact ⟨J, slope, fun g out => congrArg (fun y => [(x, y)]) (exact g out)⟩
  | mse t x =>
    obtain rfl : x = v := smooth
    obtain ⟨J, slope, exact⟩ := NDArray.exists_jacobian_meanSquaredError (values x) t
    exact ⟨J, slope, fun g out => congrArg (fun y => [(x, y)]) (exact g out)⟩
  | _ => exact smooth.elim

theorem sent_vectorJacobian_relu :
    let op : Operation ℝ Unit := .relu ()
    let shape : Unit → Shape := fun _ => [2]
    let values : Unit → NDArray ℝ := fun _ => .ofFn [2] fun i => 1 - 2 * i
    (op.SmoothAt values () ∧ op.Applied shape values) ∧
      ∃ J, HasJacobianAt (fun y => op.result fun _ => y) (values ()) J ∧
        ∀ g : NDArray ℝ, g.shape = (op.result values).shape →
          op.sent shape ((op.map values).saved (op.result values)) values g =
            [((), vectorJacobian g J)] := by
  intro op shape values
  have off : ∀ i < (values ()).size, (values ()).get i ≠ 0 := by
    intro i hi
    have element : (values ()).get i = 1 - 2 * i := NDArray.get_ofFn hi
    have odd : 1 ≠ 2 * i := by omega
    rw [element, sub_ne_zero]
    exact_mod_cast odd
  have smooth : op.SmoothAt values () := ⟨rfl, off⟩
  have applied : op.Applied shape values := ⟨rfl, fun _ _ => rfl⟩
  exact ⟨⟨smooth, applied⟩, sent_vectorJacobian smooth applied⟩

end Operation

end DerivativeEngine
