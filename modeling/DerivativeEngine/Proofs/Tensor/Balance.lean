import DerivativeEngine.Proofs.Tensor.RealArrays

/-! Gradients that cancel out. A softmax does not see what is added to a whole row, so what its
reverse sends sums to zero in each row; the keys of attention get this weighed with the queries, and
so the sum over all keys is zero in each column. -/

namespace DerivativeEngine

open Finset (range)

theorem IsReal.sumTo_eq_zero {f : ℕ → EReal} {n : ℕ} (real : ∀ i, IsReal (f i)) :
    DerivativeEngine.sumTo f n = 0 ↔ ∑ i ∈ range n, (f i).toReal = 0 := by
  rw [sumTo_coe fun i _ => (real i).toReal.symm, EReal.coe_eq_zero]

namespace NDArray

structure Additive {α : Type} [Zero α] [Add α] (P : NDArray α → Prop) : Prop where
  zeros : ∀ s, P (fill s 0)
  add : ∀ {a b : NDArray α}, b.shape = a.shape → P a → P b → P (a.add b)

variable {a b g x y z : NDArray EReal} {m n heads width : ℕ} {c : EReal} {causal : Bool} {s : Shape}

theorem get_zeros (s : Shape) (i : ℕ) : (fill s (0 : EReal)).get i = 0 := by
  rcases Nat.lt_or_ge i s.size with inside | outside
  · exact get_fill inside
  · exact get_of_size_le outside

theorem get_sum (shape : b.shape = a.shape) (i : ℕ) : (a.add b).get i = a.get i + b.get i := by
  rcases Nat.lt_or_ge i a.size with inside | outside
  · exact get_add inside
  · have outside' : b.size ≤ i := by rwa [size, shape]
    have outside'' : (a.add b).size ≤ i := outside
    rw [get_of_size_le outside, get_of_size_le outside', get_of_size_le outside'', add_zero]

theorem additive_allReal : Additive AllReal where
  zeros s := .fill s .zero
  add _ ha hb := ha.add hb

theorem additive_zero : Additive fun g : NDArray EReal => ∀ i, g.get i = 0 where
  zeros := get_zeros
  add shape ha hb i := by rw [get_sum shape, ha, hb, add_zero]

/-- Real numbers whose sum is zero in each of `n` columns of `m`. -/
structure Balanced (m n : ℕ) (g : NDArray EReal) : Prop where
  real : g.AllReal
  column : ∀ j < n, sumTo (fun i => g.get (i * n + j)) m = 0

/-- Real numbers whose sum is zero in each of `m` rows of `n`. -/
structure Level (m n : ℕ) (g : NDArray EReal) : Prop where
  real : g.AllReal
  row : ∀ r < m, sumTo (fun j => g.get (r * n + j)) n = 0

theorem sumTo_zeros {f : ℕ → EReal} (zero : ∀ i, f i = 0) (n : ℕ) : sumTo f n = 0 := by
  rw [sumTo_eq_sum]
  exact Finset.sum_eq_zero fun i _ => zero i

theorem sumTo_sum {f f' h : ℕ → EReal} (sum : ∀ i, h i = f i + f' i) (n : ℕ) :
    sumTo h n = sumTo f n + sumTo f' n := by
  simp only [sumTo_eq_sum, sum, Finset.sum_add_distrib]

theorem additive_balanced (m n : ℕ) : Additive (Balanced m n) where
  zeros s := ⟨.fill s .zero, fun _ _ => sumTo_zeros (fun _ => get_zeros s _) m⟩
  add shape ha hb := ⟨ha.real.add hb.real, fun j hj => by
    rw [sumTo_sum (fun _ => get_sum shape _), ha.column j hj, hb.column j hj, add_zero]⟩

theorem Level.zeros (m n : ℕ) (s : Shape) : Level m n (fill s 0) :=
  ⟨.fill s .zero, fun _ _ => sumTo_zeros (fun _ => get_zeros s _) n⟩

theorem Level.add (shape : b.shape = a.shape) (ha : Level m n a) (hb : Level m n b) :
    Level m n (a.add b) :=
  ⟨ha.real.add hb.real, fun r hr => by
    rw [sumTo_sum (fun _ => get_sum shape _), ha.row r hr, hb.row r hr, add_zero]⟩

theorem Balanced.reshape (h : Balanced m n g) (size : s.size = g.size) :
    Balanced m n (g.reshape s) := by
  have same (i : ℕ) : (g.reshape s).get i = g.get i := by
    rcases Nat.lt_or_ge i s.size with inside | outside
    · exact get_ofFn inside
    · have outside' : (g.reshape s).size ≤ i := outside
      rw [get_of_size_le outside', get_of_size_le (size ▸ outside)]
  exact ⟨h.real.reshape s, by simpa only [same] using h.column⟩

theorem Balanced.addReverse (h : Balanced m n g) (shape : g.shape = [m, n]) (i : ℕ) :
    (addReverse [n] g).get i = 0 := by
  rw [NDArray.addReverse, if_neg (by simp [shape])]
  have last : g.shape.last = n := by rw [shape]; rfl
  rcases Nat.lt_or_ge i n with inside | outside
  · have there : i < Shape.last [m, n] := inside
    rw [get_sumRows shape there, Shape.rows_two]
    exact h.column i inside
  · refine get_of_size_le ?_
    change Shape.size [g.shape.last] ≤ i
    rwa [last, Shape.size_one]

theorem get_unmasked_cases (causal : Bool) (g : NDArray EReal) (i : ℕ) :
    (unmasked causal g).get i =
      if causal && i / g.shape.last % g.shape.last < i % g.shape.last then 0 else g.get i := by
  cases causal with
  | false => rfl
  | true =>
    rw [unmasked, if_pos rfl, Bool.true_and]
    rcases Nat.lt_or_ge i g.size with inside | outside
    · simpa only [decide_eq_true_eq] using get_ofFn inside
    · have outside' : (ofFn g.shape fun n => if n / g.shape.last % g.shape.last <
          n % g.shape.last then 0 else g.get n).size ≤ i := outside
      rw [get_of_size_le outside', get_of_size_le outside, ite_self]

theorem shape_unmasked (causal : Bool) (g : NDArray EReal) :
    (unmasked causal g).shape = g.shape := by
  cases causal <;> rfl

theorem ext_unmasked (shape : a.shape = g.shape)
    (elements : ∀ i, a.get i =
      if causal && i / g.shape.last % g.shape.last < i % g.shape.last then 0 else g.get i) :
    unmasked causal g = a := by
  refine ext_get ((shape_unmasked causal g).trans shape.symm) fun i _ => ?_
  rw [get_unmasked_cases, elements]

theorem unmasked_zeros (causal : Bool) (s : Shape) :
    unmasked causal (fill s (0 : EReal)) = fill s 0 :=
  ext_unmasked rfl fun i => by rw [get_zeros, ite_self]

theorem unmasked_add (shape : b.shape = a.shape) :
    unmasked causal (a.add b) = (unmasked causal a).add (unmasked causal b) := by
  have masks : (unmasked causal b).shape = (unmasked causal a).shape := by
    rw [shape_unmasked, shape_unmasked, shape]
  refine ext_unmasked (shape_unmasked causal a) fun i => ?_
  rw [get_sum masks, get_unmasked_cases, get_unmasked_cases, shape, get_sum shape]
  change _ = if causal && decide (i / a.shape.last % a.shape.last < i % a.shape.last) then 0
    else a.get i + b.get i
  split
  · exact add_zero 0
  · rfl

theorem additive_level (m n : ℕ) (causal : Bool) :
    Additive fun g : NDArray EReal => g.AllReal ∧ Level m n (unmasked causal g) where
  zeros s := ⟨.fill s .zero, by
    rw [unmasked_zeros]
    exact .zeros m n s⟩
  add {a b} shape ha hb := ⟨ha.1.add hb.1, by
    rw [unmasked_add shape]
    refine ha.2.add ?_ hb.2
    rw [shape_unmasked, shape_unmasked, shape]⟩

/-- Real numbers whose sum is one in each of `m` rows of `n`, and which are zero where masked. -/
structure Shared (causal : Bool) (m n : ℕ) (y : NDArray EReal) : Prop where
  real : y.AllReal
  row : ∀ r < m, sumTo (fun j => y.get (r * n + j)) n = 1
  masked : unmasked causal y = y

theorem unmasked_softmaxReverse (masked : unmasked causal y = y) :
    unmasked causal (softmaxReverse y g) = softmaxReverse y g := by
  refine ext_unmasked rfl fun i => ?_
  split
  · next here =>
    have nothing : y.get i = 0 := by
      rw [← masked, get_unmasked_cases]
      exact if_pos here
    rcases Nat.lt_or_ge i y.size with inside | outside
    · rw [softmaxReverse, get_product inside, nothing, zero_mul]
    · exact get_of_size_le outside
  · rfl

theorem Shared.level (h : Shared causal m n y) (hg : g.AllReal) (shape : y.shape = s)
    (same : g.shape = s) (rows : s.rows = m) (last : s.last = n) :
    Level m n (softmaxReverse y g) := by
  subst rows last
  have real := h.real.softmaxReverse hg
  refine ⟨real, fun r hr => (IsReal.sumTo_eq_zero fun _ => real _).2 ?_⟩
  let weight (j : ℕ) : ℝ := (y.get (r * s.last + j)).toReal
  let slope (j : ℕ) : ℝ := (g.get (r * s.last + j)).toReal
  have product : (g.mul y).shape = s := same
  have entry : ∀ j < s.last, (softmaxReverse y g).get (r * s.last + j) =
      ((weight j * (slope j - ∑ l ∈ range s.last, slope l * weight l) : ℝ) : EReal) := by
    intro j hj
    have sums : sumTo (fun l => (g.mul y).get (r * s.last + l)) s.last =
        ((∑ l ∈ range s.last, slope l * weight l : ℝ) : EReal) := by
      refine sumTo_coe fun l hl => ?_
      rw [get_mul same hr hl, EReal.coe_mul, (hg _).toReal, (h.real _).toReal]
    rw [softmaxReverse, get_mul shape hr hj, get_withRows same hr hj, get_rowSums product hr, sums,
      EReal.coe_mul, EReal.coe_sub, (h.real _).toReal, (hg _).toReal]
  have total : ∑ j ∈ range s.last, weight j = 1 := by
    have one := h.row r hr
    rw [sumTo_coe fun j _ => (h.real (r * s.last + j)).toReal.symm] at one
    exact EReal.coe_eq_one.1 one
  calc ∑ j ∈ range s.last, ((softmaxReverse y g).get (r * s.last + j)).toReal
      = ∑ j ∈ range s.last, weight j * (slope j - ∑ l ∈ range s.last, slope l * weight l) :=
        sum_range_congr fun j hj => by rw [entry j hj, EReal.toReal_coe]
    _ = ∑ j ∈ range s.last, slope j * weight j -
          (∑ j ∈ range s.last, weight j) * ∑ l ∈ range s.last, slope l * weight l := by
        simp only [mul_sub, Finset.sum_sub_distrib, Finset.sum_mul, mul_comm]
    _ = 0 := by rw [total, one_mul, sub_self]

theorem Level.balanced (hg : Level (heads * n) n g) (hx : x.AllReal) (hc : IsReal c)
    (shape : x.shape = [n, heads, width]) :
    Balanced n (heads * width) ((overQueries g x).scale c) := by
  have real := (hg.real.overQueries hx).scale hc
  refine ⟨real, fun t ht => (IsReal.sumTo_eq_zero fun _ => real _).2 ?_⟩
  have wide : 0 < width := Nat.pos_of_mul_pos_left (Nat.zero_lt_of_lt ht)
  have head : t / width < heads := Shape.row_lt ht
  have column : t % width < width := Nat.mod_lt _ wide
  let slope (q j : ℕ) : ℝ := (g.get ((t / width * n + q) * n + j)).toReal
  let query (q : ℕ) : ℝ := (x.get ((q * heads + t / width) * width + t % width)).toReal
  have entry : ∀ j < n, ((overQueries g x).scale c).get (j * (heads * width) + t) =
      (((∑ q ∈ range n, slope q j * query q) * c.toReal : ℝ) : EReal) := by
    intro j hj
    have place : j * (heads * width) + t = (j * heads + t / width) * width + t % width := by
      rw [Nat.add_mul, Nat.mul_assoc, Nat.add_assoc, Nat.div_add_mod']
    have inside : (j * heads + t / width) * width + t % width < (overQueries g x).size := by
      change _ < Shape.size [x.shape.dim 0, x.shape.dim 1, x.shape.dim 2]
      rw [shape]
      change _ < Shape.size [n, heads, width]
      rw [Shape.size_three]
      exact Shape.index_lt (Shape.index_lt hj head) column
    have sum : (overQueries g x).get ((j * heads + t / width) * width + t % width) =
        ((∑ q ∈ range n, slope q j * query q : ℝ) : EReal) := by
      rw [get_overQueries shape hj head column]
      refine sumTo_coe fun q _ => ?_
      rw [EReal.coe_mul, (hg.real _).toReal, (hx _).toReal]
    have scaled : ((overQueries g x).scale c).get ((j * heads + t / width) * width + t % width) =
        (overQueries g x).get ((j * heads + t / width) * width + t % width) * c := get_ofFn inside
    rw [place, scaled, sum, EReal.coe_mul, hc.toReal]
  have nothing : ∀ q < n, ∑ j ∈ range n, slope q j = 0 := fun q hq =>
    (IsReal.sumTo_eq_zero fun _ => hg.real _).1 (hg.row _ (Shape.index_lt head hq))
  calc ∑ j ∈ range n, (((overQueries g x).scale c).get (j * (heads * width) + t)).toReal
      = ∑ j ∈ range n, (∑ q ∈ range n, slope q j * query q) * c.toReal :=
        sum_range_congr fun j hj => by rw [entry j hj, EReal.toReal_coe]
    _ = (∑ q ∈ range n, (∑ j ∈ range n, slope q j) * query q) * c.toReal := by
        rw [← Finset.sum_mul, Finset.sum_comm]
        simp only [Finset.sum_mul]
    _ = 0 := by
        rw [sum_range_congr fun q hq => by rw [nothing q hq, zero_mul], Finset.sum_const_zero,
          zero_mul]

end NDArray

end DerivativeEngine
