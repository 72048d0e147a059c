import Mathlib.Algebra.DualNumber
import DerivativeEngine.Proofs.Layer.Causality
import DerivativeEngine.Proofs.Tape.Checks
import DerivativeEngine.Proofs.Tape.FirstOrder

/-! Reverses of sums and products. The change of a result is linear in the changes of the operands,
and a reverse is the transpose of this linear map: what it sends, paired with the changes of the
operands, gives what the gradient of the result gives when paired with the change of the result. -/

namespace DerivativeEngine

open Finset (range)
open scoped DualNumber

namespace NDArray

variable {R : Type} [RingScalar R] {x y dx dy g : NDArray R} {m n k s heads width : ℕ}

noncomputable def pairing (g : NDArray R) (result : NDArray R[ε]) : R :=
  ∑ i ∈ range g.size, g.get i * (result.get i).snd

theorem snd_sumTo (f : ℕ → R[ε]) (n : ℕ) : (sumTo f n).snd = ∑ i ∈ range n, (f i).snd := by
  rw [sumTo_eq_sum, TrivSqZeroExt.snd_sum]

theorem get_scale {α : Type} [MulZeroClass α] [Add α] {c : α} (a : NDArray α) (i : ℕ) :
    (a.scale c).get i = a.get i * c := by
  by_cases h : i < a.size
  · exact get_ofFn h
  · have outside : (a.scale c).size ≤ i := Nat.le_of_not_lt h
    rw [get_of_size_le outside, get_of_size_le (Nat.le_of_not_lt h), zero_mul]

theorem pairing_two {z : NDArray R[ε]} (shape : g.shape = [m, n]) : g.pairing z =
    ∑ r ∈ range m, ∑ j ∈ range n, g.get (r * n + j) * (z.get (r * n + j)).snd := by
  rw [pairing, size, shape, Shape.size_two, sum_range_rows]

theorem pairing_three {z : NDArray R[ε]} (shape : g.shape = [m, n, k]) : g.pairing z =
    ∑ i ∈ range m, ∑ j ∈ range n, ∑ l ∈ range k,
      g.get ((i * n + j) * k + l) * (z.get ((i * n + j) * k + l)).snd := by
  rw [pairing, size, shape, Shape.size_three, sum_range_rows, sum_range_rows]

theorem pairing_add (hdx : dx.shape = x.shape) (hy : y.shape = x.shape) (hdy : dy.shape = x.shape)
    (hg : g.shape = x.shape) : g.pairing ((x.moved dx).add (y.moved dy)) = dx.dot g + dy.dot g := by
  rw [dot_eq_sum, dot_eq_sum, pairing, size, size, size, hg, hdx, hdy, ← Finset.sum_add_distrib]
  refine sum_range_congr fun i hi => ?_
  have inside : i < (x.moved dx).size := hi
  rw [get_add inside, TrivSqZeroExt.snd_add, snd_get_moved hdx, snd_get_moved (hdy.trans hy.symm)]
  ring

theorem pairing_addRow (hdx : dx.shape = x.shape) (hy : y.shape = [x.shape.last])
    (hdy : dy.shape = y.shape) (hg : g.shape = x.shape) :
    g.pairing ((x.moved dx).addRow (y.moved dy)) = dx.dot g + dy.dot g.sumRows := by
  have row : dy.dot g.sumRows = ∑ r ∈ range x.shape.rows, ∑ j ∈ range x.shape.last,
      dy.get j * g.get (r * x.shape.last + j) := by
    rw [dot_eq_sum, size, hdy, hy, Shape.size_one, Finset.sum_comm]
    refine sum_range_congr fun j hj => ?_
    rw [get_sumRows hg hj, sumTo_eq_sum, Finset.mul_sum]
  rw [row, dot_eq_sum, pairing, size, size, hdx, hg, sum_range_places, sum_range_places,
    ← Finset.sum_add_distrib]
  refine sum_range_congr fun r hr => ?_
  rw [← Finset.sum_add_distrib]
  refine sum_range_congr fun j hj => ?_
  have sum : ((x.moved dx).addRow (y.moved dy)).get (r * x.shape.last + j) =
      (x.moved dx).get (r * x.shape.last + j) + (y.moved dy).get j := get_addRow rfl hr hj
  rw [sum, TrivSqZeroExt.snd_add, snd_get_moved hdx, snd_get_moved hdy]
  ring

theorem pairing_addBroadcast (fits : Operation.checkAdd x.shape y.shape = .ok ())
    (hdx : dx.shape = x.shape) (hdy : dy.shape = y.shape)
    (hg : g.shape = (x.addBroadcast y).shape) :
    g.pairing ((x.moved dx).addBroadcast (y.moved dy)) =
      dx.dot (addReverse x.shape g) + dy.dot (addReverse y.shape g) := by
  rw [shape_addBroadcast] at hg
  unfold addBroadcast addReverse
  change g.pairing (if x.shape = y.shape then _ else if x.shape.length = 2 then _ else _) = _
  rcases Operation.checkAdd_eq_ok fits with same | ⟨m, n, ⟨hx, hy⟩ | ⟨hx, hy⟩⟩
  · rw [if_pos (.inl same)] at hg
    rw [if_pos same, if_pos hg.symm, if_pos (same.symm.trans hg.symm)]
    exact pairing_add hdx same.symm (hdy.trans same.symm) hg
  · have other : x.shape ≠ y.shape := by simp [hx, hy]
    have two : x.shape.length = 2 := by rw [hx]; rfl
    rw [if_pos (.inr two)] at hg
    rw [if_neg other, if_pos two, if_pos hg.symm,
      if_neg fun same => other (hg.symm.trans same.symm)]
    have row : y.shape = [x.shape.last] := by rw [hx, hy]; rfl
    exact pairing_addRow hdx row hdy hg
  · have other : x.shape ≠ y.shape := by simp [hx, hy]
    have one : x.shape.length ≠ 2 := by simp [hx]
    rw [if_neg (not_or.2 ⟨other, one⟩)] at hg
    rw [if_neg other, if_neg one, if_neg fun same => other (same.trans hg), if_pos hg.symm,
      add_comm]
    have row : x.shape = [y.shape.last] := by rw [hy, hx]; rfl
    exact pairing_addRow hdy row hdx hg

theorem pairing_mul (hdx : dx.shape = x.shape) (hy : y.shape = x.shape) (hdy : dy.shape = x.shape)
    (hg : g.shape = x.shape) :
    g.pairing ((x.moved dx).mul (y.moved dy)) = dx.dot (g.mul y) + dy.dot (g.mul x) := by
  rw [dot_eq_sum, dot_eq_sum, pairing, size, size, size, hg, hdx, hdy, ← Finset.sum_add_distrib]
  refine sum_range_congr fun i hi => ?_
  have inside : i < (x.moved dx).size := hi
  have inside' : i < g.size := by rwa [size, hg]
  rw [get_product inside, get_product inside', get_product inside', DualNumber.snd_mul,
    fst_get_moved, fst_get_moved, snd_get_moved hdx, snd_get_moved (hdy.trans hy.symm)]
  ring

theorem pairing_scale (c : R) (hdx : dx.shape = x.shape) (hg : g.shape = x.shape) :
    g.pairing ((x.moved dx).scale (.inl c)) = dx.dot (g.scale c) := by
  rw [dot_eq_sum, pairing, size, size, hg, hdx]
  refine sum_range_congr fun i hi => ?_
  rw [get_scale, get_scale, DualNumber.snd_mul, snd_get_moved hdx, TrivSqZeroExt.fst_inl,
    TrivSqZeroExt.snd_inl]
  ring

theorem pairing_matmul (hx : x.shape = [m, k]) (hdx : dx.shape = x.shape) (hy : y.shape = [k, n])
    (hdy : dy.shape = y.shape) (hg : g.shape = [m, n]) :
    g.pairing ((x.moved dx).matmul (y.moved dy)) =
      dx.dot (g.matmul y.transpose) + dy.dot (x.transpose.matmul g) := by
  have shape : (x.moved dx).shape = [m, k] := hx
  have shape' : (y.moved dy).shape = [k, n] := hy
  have turned : x.transpose.shape = [k, m] := by simp [transpose, ofFn, hx, Shape.dim]
  have turned' : y.transpose.shape = [n, k] := by simp [transpose, ofFn, hy, Shape.dim]
  have forward : g.pairing ((x.moved dx).matmul (y.moved dy)) =
      ∑ i ∈ range m, ∑ j ∈ range n, g.get (i * n + j) * ∑ l ∈ range k,
        (x.get (i * k + l) * dy.get (l * n + j) + dx.get (i * k + l) * y.get (l * n + j)) := by
    rw [pairing_two hg]
    refine sum_range_congr fun i hi => sum_range_congr fun j hj => ?_
    rw [get_matmul shape shape' hi hj, snd_sumTo]
    simp only [DualNumber.snd_mul, fst_get_moved, snd_get_moved hdx, snd_get_moved hdy]
  have left : dx.dot (g.matmul y.transpose) = ∑ i ∈ range m, ∑ l ∈ range k,
      dx.get (i * k + l) * ∑ j ∈ range n, g.get (i * n + j) * y.get (l * n + j) := by
    rw [dot_two _ (hdx.trans hx)]
    refine sum_range_congr fun i hi => sum_range_congr fun l hl => ?_
    rw [get_matmul hg turned' hi hl, sumTo_eq_sum]
    exact congrArg _ (sum_range_congr fun j hj => by rw [get_transpose hy hj hl])
  have right : dy.dot (x.transpose.matmul g) = ∑ l ∈ range k, ∑ j ∈ range n,
      dy.get (l * n + j) * ∑ i ∈ range m, x.get (i * k + l) * g.get (i * n + j) := by
    rw [dot_two _ (hdy.trans hy)]
    refine sum_range_congr fun l hl => sum_range_congr fun j hj => ?_
    rw [get_matmul turned hg hl hj, sumTo_eq_sum]
    exact congrArg _ (sum_range_congr fun i hi => by rw [get_transpose hx hl hi])
  rw [forward, left, right]
  exact sum_replaced m k n _ _ _ _ _

theorem pairing_transpose (hx : x.shape = [m, n]) (hdx : dx.shape = x.shape)
    (hg : g.shape = [n, m]) : g.pairing (x.moved dx).transpose = dx.dot g.transpose := by
  have shape : (x.moved dx).shape = [m, n] := hx
  rw [pairing_two hg, dot_two _ (hdx.trans hx), Finset.sum_comm]
  refine sum_range_congr fun i hi => sum_range_congr fun j hj => ?_
  rw [get_transpose shape hj hi, get_transpose hg hi hj, snd_get_moved hdx, mul_comm]

theorem pairing_reshape {t : Shape} (size : t.size = x.shape.size) (hdx : dx.shape = x.shape)
    (hg : g.shape = t) : g.pairing ((x.moved dx).reshape t) = dx.dot (g.reshape x.shape) := by
  rw [dot_eq_sum, pairing, NDArray.size, NDArray.size, hg, hdx, size]
  refine sum_range_congr fun i hi => ?_
  have there : ((x.moved dx).reshape t).get i = (x.moved dx).get i := get_ofFn (size ▸ hi)
  have back : (g.reshape x.shape).get i = g.get i := get_ofFn hi
  rw [there, back, snd_get_moved hdx, mul_comm]

theorem pairing_gather {is : List ℕ} (hx : x.shape = [m, n]) (hdx : dx.shape = x.shape)
    (inside : ∀ r < is.length, is.getD r 0 < m) (hg : g.shape = [is.length, n]) :
    g.pairing ((x.moved dx).gather is) = dx.dot (scatter x.shape is g) := by
  have shape : (x.moved dx).shape = [m, n] := hx
  have sent : dx.dot (scatter x.shape is g) = ∑ r ∈ range is.length, ∑ j ∈ range n,
      ∑ i ∈ range m, dx.get (i * n + j) * if is.getD r 0 = i then g.get (r * n + j) else 0 := by
    rw [dot_two _ (hdx.trans hx), hx]
    have each (i : ℕ) (hi : i < m) : ∑ j ∈ range n,
        dx.get (i * n + j) * (scatter [m, n] is g).get (i * n + j) =
          ∑ r ∈ range is.length, ∑ j ∈ range n,
            dx.get (i * n + j) * if is.getD r 0 = i then g.get (r * n + j) else 0 := by
      rw [Finset.sum_comm]
      refine sum_range_congr fun j hj => ?_
      rw [get_scatter hi hj, sumTo_eq_sum, Finset.mul_sum]
    rw [sum_range_congr each, Finset.sum_comm]
    exact sum_range_congr fun r _ => Finset.sum_comm
  rw [sent, pairing_two hg]
  refine sum_range_congr fun r hr => sum_range_congr fun j hj => ?_
  rw [get_gather shape hr hj, snd_get_moved hdx, mul_comm]
  simp only [mul_ite, mul_zero]
  rw [Finset.sum_ite_eq, if_pos (Finset.mem_range.2 (inside r hr))]

theorem pairing_overKeys (hx : x.shape = [heads, s, s]) (hdx : dx.shape = x.shape)
    (hy : y.shape = [s, heads, width]) (hdy : dy.shape = y.shape)
    (hg : g.shape = [s, heads, width]) :
    g.pairing (overKeys (x.moved dx) (y.moved dy)) =
      dx.dot (overWidth g y) + dy.dot (overQueries x g) := by
  have shape : (y.moved dy).shape = [s, heads, width] := hy
  have forward : g.pairing (overKeys (x.moved dx) (y.moved dy)) =
      ∑ h ∈ range heads, ∑ i ∈ range s, ∑ d ∈ range width,
        g.get ((i * heads + h) * width + d) * ∑ j ∈ range s,
          (x.get ((h * s + i) * s + j) * dy.get ((j * heads + h) * width + d) +
            dx.get ((h * s + i) * s + j) * y.get ((j * heads + h) * width + d)) := by
    rw [pairing_three hg, Finset.sum_comm]
    refine sum_range_congr fun h hh => sum_range_congr fun i hi => sum_range_congr fun d hd => ?_
    rw [get_overKeys shape hi hh hd, snd_sumTo]
    simp only [DualNumber.snd_mul, fst_get_moved, snd_get_moved hdx, snd_get_moved hdy]
  have left : dx.dot (overWidth g y) = ∑ h ∈ range heads, ∑ i ∈ range s, ∑ j ∈ range s,
      dx.get ((h * s + i) * s + j) * ∑ d ∈ range width,
        g.get ((i * heads + h) * width + d) * y.get ((j * heads + h) * width + d) := by
    rw [dot_three _ (hdx.trans hx)]
    refine sum_range_congr fun h hh => sum_range_congr fun i hi => sum_range_congr fun j hj => ?_
    rw [get_overWidth hy hh hi hj, sumTo_eq_sum]
  have right : dy.dot (overQueries x g) = ∑ h ∈ range heads, ∑ j ∈ range s, ∑ d ∈ range width,
      dy.get ((j * heads + h) * width + d) * ∑ i ∈ range s,
        x.get ((h * s + i) * s + j) * g.get ((i * heads + h) * width + d) := by
    rw [dot_three _ (hdy.trans hy), Finset.sum_comm]
    refine sum_range_congr fun h hh => sum_range_congr fun j hj => sum_range_congr fun d hd => ?_
    rw [get_overQueries hg hj hh hd, sumTo_eq_sum]
  rw [forward, left, right, ← Finset.sum_add_distrib]
  exact sum_range_congr fun h _ => sum_replaced s s width _ _ _ _ _

theorem pairing_attentionScores (masked : R[ε]) (c : R) (causal : Bool)
    (hx : x.shape = [s, heads, width]) (hdx : dx.shape = x.shape) (hy : y.shape = x.shape)
    (hdy : dy.shape = y.shape) (hg : g.shape = [heads, s, s]) :
    ∑ n ∈ range g.size with (causal && decide (n / s % s < n % s)) = false, g.get n *
        ((attentionScores masked (.inl c) causal (x.moved dx) (y.moved dy)).get n).snd =
      dx.dot ((overKeys (unmasked causal g) y).scale c) +
        dy.dot ((overQueries (unmasked causal g) x).scale c) := by
  have shape : (x.moved dx).shape = [s, heads, width] := hx
  have shape' : y.shape = [s, heads, width] := hy.trans hx
  let seen (h i j : ℕ) : R := (unmasked causal g).get ((h * s + i) * s + j) * c
  have forward : ∑ n ∈ range g.size with (causal && decide (n / s % s < n % s)) = false,
        g.get n * ((attentionScores masked (.inl c) causal (x.moved dx) (y.moved dy)).get n).snd =
      ∑ h ∈ range heads, ∑ i ∈ range s, ∑ j ∈ range s, seen h i j * ∑ d ∈ range width,
        (x.get ((i * heads + h) * width + d) * dy.get ((j * heads + h) * width + d) +
          dx.get ((i * heads + h) * width + d) * y.get ((j * heads + h) * width + d)) := by
    rw [Finset.sum_filter, size, hg, Shape.size_three, sum_range_rows, sum_range_rows]
    refine sum_range_congr fun h hh => sum_range_congr fun i hi => sum_range_congr fun j hj => ?_
    simp only [seen]
    rw [get_attentionScores shape hh hi hj, get_unmasked hg hh hi hj, Shape.index_div hj,
      Shape.index_mod hi, Shape.index_mod hj]
    by_cases hidden : (causal && decide (i < j)) = true
    · rw [if_neg (by rw [hidden]; exact Bool.noConfusion), if_pos hidden, zero_mul, zero_mul]
    · rw [if_pos (Bool.eq_false_iff.2 hidden), if_neg hidden, if_neg hidden,
        DualNumber.snd_mul, TrivSqZeroExt.fst_inl, TrivSqZeroExt.snd_inl, snd_sumTo]
      simp only [entry, DualNumber.snd_mul, fst_get_moved, snd_get_moved hdx, snd_get_moved hdy]
      ring
  have left : dx.dot ((overKeys (unmasked causal g) y).scale c) =
      ∑ h ∈ range heads, ∑ i ∈ range s, ∑ d ∈ range width,
        dx.get ((i * heads + h) * width + d) * ∑ j ∈ range s,
          seen h i j * y.get ((j * heads + h) * width + d) := by
    rw [dot_three _ (hdx.trans hx), Finset.sum_comm]
    refine sum_range_congr fun h hh => sum_range_congr fun i hi => sum_range_congr fun d hd => ?_
    have scaled := get_scale (c := c) (overKeys (unmasked causal g) y)
      ((i * heads + h) * width + d)
    rw [scaled, get_overKeys shape' hi hh hd, sumTo_eq_sum, Finset.sum_mul]
    exact congrArg _ (sum_range_congr fun j _ => mul_right_comm _ _ _)
  have right : dy.dot ((overQueries (unmasked causal g) x).scale c) =
      ∑ h ∈ range heads, ∑ d ∈ range width, ∑ j ∈ range s,
        dy.get ((j * heads + h) * width + d) * ∑ i ∈ range s,
          x.get ((i * heads + h) * width + d) * seen h i j := by
    rw [dot_three _ (hdy.trans shape'), Finset.sum_comm]
    refine sum_range_congr fun h hh => ?_
    rw [Finset.sum_comm]
    refine sum_range_congr fun d hd => sum_range_congr fun j hj => ?_
    have scaled := get_scale (c := c) (overQueries (unmasked causal g) x)
      ((j * heads + h) * width + d)
    rw [scaled, get_overQueries hx hj hh hd, sumTo_eq_sum, Finset.sum_mul]
    exact congrArg _ (sum_range_congr fun i _ => by simp only [seen]; ring)
  rw [forward, left, right, ← Finset.sum_add_distrib]
  exact sum_range_congr fun h _ => sum_replaced s width s (seen h) _ _ _ _

end NDArray

namespace Operation

open NDArray (moved dot pairing)

variable {R ν : Type} [RingScalar R] {op : Operation R ν} {shape : ν → Shape}
  {x d now : ν → NDArray R} {g : NDArray R}

theorem sum_pair (a b : R) : [a, b].sum = a + b := by simp

theorem sum_change (plain : ∀ n, op.hides shape n = false)
    (out : g.shape = (op.result x).shape) :
    ∑ n ∈ range g.size with op.hides shape n = false, g.get n * (op.change x d).get n =
      g.pairing ((op.mapScalars .inl).result fun v => (x v).moved (d v)) := by
  rw [Finset.filter_true_of_mem fun n _ => plain n, pairing]
  refine sum_range_congr fun n hn => ?_
  rw [get_change op x d (by rwa [NDArray.size, ← out])]

/-- What is sent for the gradient of a result, paired with the changes of the operands, is the
gradient paired with the change of the result. -/
theorem dot_sent (arithmetic : op.Arithmetic) (applied : op.Applied shape x)
    (moved : ∀ v ∈ op.operands, (d v).shape = shape v) (out : g.shape = (op.result x).shape) :
    ∑ n ∈ range g.size with op.hides shape n = false, g.get n * (op.change x d).get n =
      ((op.sent shape ((op.map x).saved (op.result x)) now g).map fun p =>
        (d p.1).dot p.2).sum := by
  have same : ∀ v ∈ op.operands, (d v).shape = (x v).shape := fun v hv =>
    (moved v hv).trans (applied.shapes v hv).symm
  cases op with
  | add a b =>
    have ha := applied.shapes a (by simp [operands])
    have hb := applied.shapes b (by simp [operands])
    have fits : checkAdd (x a).shape (x b).shape = .ok () := by
      rw [ha, hb]
      exact applied.check
    have adjoint := NDArray.pairing_addBroadcast fits (same a (by simp [operands]))
      (same b (by simp [operands])) out
    rw [ha, hb] at adjoint
    exact (sum_change (fun _ => rfl) out).trans (adjoint.trans (sum_pair _ _).symm)
  | multiply a b =>
    have fits : (shape a == shape b) = true := of_ite_ok applied.check
    have hab : (x b).shape = (x a).shape := by
      rw [applied.shapes a (by simp [operands]), applied.shapes b (by simp [operands]),
        beq_iff_eq.1 fits]
    have adjoint := NDArray.pairing_mul (same a (by simp [operands])) hab
      ((same b (by simp [operands])).trans hab) out
    exact (sum_change (fun _ => rfl) out).trans (adjoint.trans (sum_pair _ _).symm)
  | scale c a =>
    have adjoint := NDArray.pairing_scale c (same a (by simp [operands])) out
    exact (sum_change (fun _ => rfl) out).trans (adjoint.trans (add_zero _).symm)
  | matmul a b =>
    have fits : checkMatmul (shape a) (shape b) = .ok () := applied.check
    obtain ⟨m, k, n, left, right⟩ := checkMatmul_eq_ok fits
    have ha := (applied.shapes a (by simp [operands])).trans left
    have hb := (applied.shapes b (by simp [operands])).trans right
    have hg : g.shape = [m, n] := by
      refine out.trans ?_
      change [(x a).shape.dim 0, (x b).shape.dim 1] = _
      rw [ha, hb]
      rfl
    have adjoint := NDArray.pairing_matmul ha (same a (by simp [operands])) hb
      (same b (by simp [operands])) hg
    exact (sum_change (fun _ => rfl) out).trans (adjoint.trans (sum_pair _ _).symm)
  | transpose a =>
    have rank : ((shape a).length == 2) = true := of_ite_ok applied.check
    have ha := (applied.shapes a (by simp [operands])).trans (eq_dims_two (beq_iff_eq.1 rank))
    have hg : g.shape = [(shape a).dim 1, (shape a).dim 0] := by
      refine out.trans ?_
      change [(x a).shape.dim 1, (x a).shape.dim 0] = _
      rw [ha]
      rfl
    have adjoint := NDArray.pairing_transpose ha (same a (by simp [operands])) hg
    exact (sum_change (fun _ => rfl) out).trans (adjoint.trans (add_zero _).symm)
  | reshape s a =>
    have ha := applied.shapes a (by simp [operands])
    have size : Shape.size (s.map Int.toNat) = (x a).shape.size := by
      rw [ha]
      exact checkReshape_eq_ok applied.check
    have adjoint := NDArray.pairing_reshape size (same a (by simp [operands])) out
    rw [ha] at adjoint
    exact (sum_change (fun _ => rfl) out).trans (adjoint.trans (add_zero _).symm)
  | embedding is a =>
    have ha := applied.shapes a (by simp [operands])
    have fits : checkEmbedding is (shape a) = .ok () := applied.check
    obtain ⟨m, n, table, inside⟩ := checkEmbedding_eq_ok fits
    have hg : g.shape = [(is.map Int.toNat).length, n] := by
      refine out.trans ?_
      change [(is.map Int.toNat).length, (x a).shape.dim 1] = _
      rw [ha, table]
      rfl
    have adjoint := NDArray.pairing_gather (ha.trans table) (same a (by simp [operands]))
      (fun r hr => inside r (List.length_map Int.toNat ▸ hr)) hg
    rw [ha] at adjoint
    exact (sum_change (fun _ => rfl) out).trans (adjoint.trans (add_zero _).symm)
  | attentionScores c causal q k =>
    have fits : checkScores (shape q) (shape k) = .ok () := applied.check
    obtain ⟨s, heads, width, query, key⟩ := checkScores_eq_ok fits
    have hq := (applied.shapes q (by simp [operands])).trans query
    have hk := (applied.shapes k (by simp [operands])).trans key
    have hg : g.shape = [heads, s, s] := by
      refine out.trans ?_
      change [(x q).shape.dim 1, (x q).shape.dim 0, (x q).shape.dim 0] = _
      rw [hq]
      rfl
    have adjoint := NDArray.pairing_attentionScores Scalar.negInf c causal hq
      (same q (by simp [operands])) (hk.trans hq.symm) (same k (by simp [operands])) hg
    refine Eq.trans ?_ (adjoint.trans (sum_pair _ _).symm)
    have hidden (n : ℕ) : (attentionScores c causal q k).hides shape n =
        (causal && decide (n / s % s < n % s)) := by
      simp only [hides, query]
      rfl
    simp only [hidden]
    refine Finset.sum_congr rfl fun n hn => ?_
    have inside : n < g.size := Finset.mem_range.1 (Finset.mem_filter.1 hn).1
    rw [get_change _ x d (by rwa [NDArray.size, ← out])]
    rfl
  | attentionApply w v =>
    have fits : checkApply (shape w) (shape v) = .ok () := applied.check
    obtain ⟨s, heads, width, weights, values⟩ := checkApply_eq_ok fits
    have hw := (applied.shapes w (by simp [operands])).trans weights
    have hv := (applied.shapes v (by simp [operands])).trans values
    have hg : g.shape = [s, heads, width] := by
      refine out.trans ?_
      change [(x v).shape.dim 0, (x v).shape.dim 1, (x v).shape.dim 2] = _
      rw [hv]
      rfl
    have adjoint := NDArray.pairing_overKeys hw (same w (by simp [operands])) hv
      (same v (by simp [operands])) hg
    exact (sum_change (fun _ => rfl) out).trans (adjoint.trans (sum_pair _ _).symm)
  | relu _ | softmax _ | layerNorm _ _ _ _ | crossEntropy _ _ | mse _ _ => exact arithmetic.elim

/-- The reverse of sums and products is adjoint to their first-order change, also where a variable
stands in both places, and what it sends has the shapes of the operands. -/
theorem sent_adjoint (arithmetic : op.Arithmetic) (applied : op.Applied shape x)
    (moved : ∀ v ∈ op.operands, (d v).shape = shape v) (out : g.shape = (op.result x).shape) :
    ∑ n ∈ range g.size with op.hides shape n = false, g.get n * (op.change x d).get n =
        ((op.sent shape ((op.map x).saved (op.result x)) now g).map fun p =>
          (d p.1).dot p.2).sum ∧
      ∀ p ∈ op.sent shape ((op.map x).saved (op.result x)) now g, p.2.shape = shape p.1 :=
  ⟨dot_sent arithmetic applied moved out, shape_of_mem_sent applied out⟩

theorem sent_adjoint_self :
    letI := RingScalar.ofCommRing ℤ
    let op : Operation ℤ Unit := .attentionScores 3 true () ()
    let shape : Unit → Shape := fun _ => [2, 1, 2]
    let x : Unit → NDArray ℤ := fun _ => .ofFn [2, 1, 2] fun i => i + 1
    let d : Unit → NDArray ℤ := fun _ => .ofFn [2, 1, 2] fun i => 2 - i
    let g : NDArray ℤ := .ofFn [1, 2, 2] fun i => i + 5
    (op.Applied shape x ∧ g.shape = (op.result x).shape) ∧
      ∑ n ∈ range g.size with op.hides shape n = false, g.get n * (op.change x d).get n =
        ((op.sent shape ((op.map x).saved (op.result x)) x g).map fun p =>
          (d p.1).dot p.2).sum ∧
      ∀ p ∈ op.sent shape ((op.map x).saved (op.result x)) x g, p.2.shape = shape p.1 := by
  let := RingScalar.ofCommRing ℤ
  intro op shape x d g
  have arithmetic : op.Arithmetic := trivial
  have applied : op.Applied shape x := ⟨rfl, fun _ _ => rfl⟩
  have moved : ∀ v ∈ op.operands, (d v).shape = shape v := fun _ _ => rfl
  have out : g.shape = (op.result x).shape := rfl
  exact ⟨⟨applied, out⟩, sent_adjoint arithmetic applied moved out⟩

end Operation

end DerivativeEngine
