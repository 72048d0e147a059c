import Mathlib.Algebra.BigOperators.Group.Finset.Sigma
import Mathlib.Algebra.BigOperators.Ring.Finset
import Mathlib.Tactic.Ring
import DerivativeEngine.Proofs.Tensor.Rows

/-! Sums over arrays in exact arithmetic. A sum over flat indices is a sum over rows of sums over
columns, however many dimensions the rows run through, and two products of matrices are exchanged
under a sum over all their indices. -/

namespace DerivativeEngine

open Finset (range)

theorem sumTo_eq_sum {α : Type} [AddCommMonoid α] (f : ℕ → α) (n : ℕ) :
    sumTo f n = ∑ i ∈ range n, f i := by
  induction n with
  | zero => rfl
  | succ n ih => rw [sumTo, ih, Finset.sum_range_succ]

section Indices

variable {M : Type*} [AddCommMonoid M]

theorem sum_range_rows (m n : ℕ) (f : ℕ → M) :
    ∑ i ∈ range (m * n), f i = ∑ r ∈ range m, ∑ j ∈ range n, f (r * n + j) := by
  induction m with
  | zero => simp
  | succ m ih => rw [Nat.succ_mul, Finset.sum_range_add, ih, Finset.sum_range_succ]

theorem sum_range_congr {n : ℕ} {f g : ℕ → M} (same : ∀ i < n, f i = g i) :
    ∑ i ∈ range n, f i = ∑ i ∈ range n, g i :=
  Finset.sum_congr rfl fun i hi => same i (Finset.mem_range.1 hi)

theorem sum_range_places (s : Shape) (f : ℕ → M) : ∑ i ∈ range s.size, f i =
    ∑ r ∈ range s.rows, ∑ j ∈ range s.last, f (r * s.last + j) := by
  rw [s.size_eq_rows, sum_range_rows]

end Indices

namespace Shape

theorem size_one (n : ℕ) : Shape.size [n] = n := Nat.mul_one n

theorem size_two (m n : ℕ) : Shape.size [m, n] = m * n := by simp [Shape.size]

theorem size_three (m n k : ℕ) : Shape.size [m, n, k] = m * n * k := by
  simp [Shape.size, Nat.mul_assoc]

end Shape

namespace NDArray

variable {α : Type}

theorem get_of_size_le [Zero α] {a : NDArray α} {i : ℕ} (h : a.size ≤ i) : a.get i = 0 := by
  have outside : a.data.size ≤ i := a.size_data.trans_le h
  simp [get, Array.getD_eq_getD_getElem?, Array.getElem?_eq_none outside]

theorem get_ofFn_three [Zero α] {m n k : ℕ} {f : ℕ → ℕ → ℕ → α} {i j l : ℕ} (hi : i < m)
    (hj : j < n) (hl : l < k) :
    (ofFn [m, n, k] fun t => f (t / (n * k)) (t / k % n) (t % k)).get ((i * n + j) * k + l) =
      f i j l := by
  have inside : (i * n + j) * k + l < Shape.size [m, n, k] := by
    rw [Shape.size_three]
    exact Shape.index_lt (Shape.index_lt hi hj) hl
  have first : ((i * n + j) * k + l) / (n * k) = i := by
    rw [Nat.mul_comm n, ← Nat.div_div_eq_div_mul, Shape.index_div hl, Shape.index_div hj]
  rw [get_ofFn inside, first, Shape.index_div hl, Shape.index_mod hj, Shape.index_mod hl]

theorem get_ofFn_two [Zero α] {m n : ℕ} {f : ℕ → ℕ → α} {r j : ℕ} (hr : r < m) (hj : j < n) :
    (ofFn [m, n] fun t => f (t / n) (t % n)).get (r * n + j) = f r j := by
  have inside : r * n + j < Shape.size [m, n] := by
    rw [Shape.size_two]
    exact Shape.index_lt hr hj
  rw [get_ofFn inside, Shape.index_div hj, Shape.index_mod hj]

section Places

variable [Zero α] {a b g : NDArray α} {m n k s heads width : ℕ}

theorem get_transpose {i j : ℕ} (ha : a.shape = [m, n]) (hi : i < n) (hj : j < m) :
    a.transpose.get (i * m + j) = a.get (j * n + i) := by
  simp only [transpose, ha, Shape.dim, List.getD_cons_zero, List.getD_cons_succ]
  exact get_ofFn_two (f := fun i j => a.get (j * n + i)) hi hj

theorem get_gather {is : List ℕ} {r j : ℕ} (ha : a.shape = [m, n]) (hr : r < is.length)
    (hj : j < n) : (a.gather is).get (r * n + j) = a.get (is.getD r 0 * n + j) := by
  simp only [gather, ha, Shape.dim, List.getD_cons_zero, List.getD_cons_succ]
  exact get_ofFn_two (f := fun r j => a.get (is.getD r 0 * n + j)) hr hj

theorem get_unmasked {causal : Bool} {h i j : ℕ} (hg : g.shape = [heads, s, s]) (hh : h < heads)
    (hi : i < s) (hj : j < s) : (unmasked causal g).get ((h * s + i) * s + j) =
      if causal && i < j then 0 else g.get ((h * s + i) * s + j) := by
  cases causal with
  | false => rfl
  | true =>
    have last : g.shape.last = s := by rw [hg]; rfl
    have inside : (h * s + i) * s + j < Shape.size [heads, s, s] := by
      rw [Shape.size_three]
      exact Shape.index_lt (Shape.index_lt hh hi) hj
    simp only [unmasked, last, if_true, Bool.true_and, decide_eq_true_eq]
    rw [hg, get_ofFn inside, Shape.index_div hj, Shape.index_mod hi, Shape.index_mod hj]

variable [Add α]

theorem get_scatter {is : List ℕ} {i j : ℕ} (hi : i < m) (hj : j < n) :
    (scatter [m, n] is g).get (i * n + j) =
      sumTo (fun r => if is.getD r 0 = i then g.get (r * n + j) else 0) is.length :=
  get_ofFn_two (f := fun i j =>
    sumTo (fun r => if is.getD r 0 = i then g.get (r * n + j) else 0) is.length) hi hj

variable [Mul α]

theorem get_matmul {p i j : ℕ} (ha : a.shape = [m, k]) (hb : b.shape = [p, n]) (hi : i < m)
    (hj : j < n) : (a.matmul b).get (i * n + j) =
      sumTo (fun l => a.get (i * k + l) * b.get (l * n + j)) k := by
  simp only [matmul, ha, hb, Shape.dim, List.getD_cons_zero, List.getD_cons_succ]
  exact get_ofFn_two (f := fun i j => sumTo (fun l => a.get (i * k + l) * b.get (l * n + j)) k)
    hi hj

theorem get_overKeys {i h d : ℕ} (hb : b.shape = [s, heads, width]) (hi : i < s) (hh : h < heads)
    (hd : d < width) : (overKeys g b).get ((i * heads + h) * width + d) =
      sumTo (fun j => g.get ((h * s + i) * s + j) * b.get ((j * heads + h) * width + d)) s := by
  simp only [overKeys, hb, Shape.dim, List.getD_cons_zero, List.getD_cons_succ]
  exact get_ofFn_three (f := fun i h d =>
    sumTo (fun j => g.get ((h * s + i) * s + j) * b.get ((j * heads + h) * width + d)) s) hi hh hd

theorem get_overQueries {j h d : ℕ} (hb : b.shape = [s, heads, width]) (hj : j < s) (hh : h < heads)
    (hd : d < width) : (overQueries g b).get ((j * heads + h) * width + d) =
      sumTo (fun i => g.get ((h * s + i) * s + j) * b.get ((i * heads + h) * width + d)) s := by
  simp only [overQueries, hb, Shape.dim, List.getD_cons_zero, List.getD_cons_succ]
  exact get_ofFn_three (f := fun j h d =>
    sumTo (fun i => g.get ((h * s + i) * s + j) * b.get ((i * heads + h) * width + d)) s) hj hh hd

theorem get_overWidth {h i j : ℕ} (hb : b.shape = [s, heads, width]) (hh : h < heads) (hi : i < s)
    (hj : j < s) : (overWidth g b).get ((h * s + i) * s + j) =
      sumTo (fun d => g.get ((i * heads + h) * width + d) * b.get ((j * heads + h) * width + d))
        width := by
  simp only [overWidth, hb, Shape.dim, List.getD_cons_zero, List.getD_cons_succ]
  exact get_ofFn_three (f := fun h i j =>
    sumTo (fun d => g.get ((i * heads + h) * width + d) * b.get ((j * heads + h) * width + d))
      width) hh hi hj

end Places

variable [CommSemiring α]

theorem dot_eq_sum (a b : NDArray α) : a.dot b = ∑ i ∈ range a.size, a.get i * b.get i :=
  sumTo_eq_sum _ _

theorem dot_two {a : NDArray α} (b : NDArray α) {m n : ℕ} (shape : a.shape = [m, n]) :
    a.dot b = ∑ r ∈ range m, ∑ j ∈ range n, a.get (r * n + j) * b.get (r * n + j) := by
  rw [dot_eq_sum, size, shape, Shape.size_two, sum_range_rows]

theorem dot_three {a : NDArray α} (b : NDArray α) {m n k : ℕ} (shape : a.shape = [m, n, k]) :
    a.dot b = ∑ i ∈ range m, ∑ j ∈ range n, ∑ l ∈ range k,
      a.get ((i * n + j) * k + l) * b.get ((i * n + j) * k + l) := by
  rw [dot_eq_sum, size, shape, Shape.size_three, sum_range_rows, sum_range_rows]

end NDArray

theorem sum_replaced {R : Type*} [CommSemiring R] (m k n : ℕ) (g x y dx dy : ℕ → ℕ → R) :
    ∑ i ∈ range m, ∑ j ∈ range n, g i j * ∑ l ∈ range k, (x i l * dy l j + dx i l * y l j) =
      ∑ i ∈ range m, ∑ l ∈ range k, dx i l * ∑ j ∈ range n, g i j * y l j +
        ∑ l ∈ range k, ∑ j ∈ range n, dy l j * ∑ i ∈ range m, x i l * g i j := by
  have split (i j : ℕ) : g i j * ∑ l ∈ range k, (x i l * dy l j + dx i l * y l j) =
      ∑ l ∈ range k, dx i l * (g i j * y l j) + ∑ l ∈ range k, dy l j * (x i l * g i j) := by
    rw [Finset.mul_sum, ← Finset.sum_add_distrib]
    exact Finset.sum_congr rfl fun l _ => by ring
  simp only [split]
  simp only [Finset.sum_add_distrib, Finset.mul_sum]
  congr 1
  · exact Finset.sum_congr rfl fun i _ => Finset.sum_comm
  · -- The index of the rows goes from the first place to the last.
    rw [Finset.sum_comm]
    refine (Finset.sum_congr rfl fun j _ => Finset.sum_comm).trans ?_
    exact Finset.sum_comm

end DerivativeEngine
