import Mathlib.LinearAlgebra.Matrix.Defs
import DerivativeEngine.Proofs.Scalar.Reals

/-! Arrays of real numbers. Every operation on arrays gives real numbers for real numbers, and so
does every reverse. Scores that are masked are not real numbers, but their softmax is: each row is
shared out among the keys that are seen. -/

namespace DerivativeEngine

section Shares

variable {ι : Type*} {K : Finset ι} {S : ι → ℝ}

noncomputable def share (K : Finset ι) (S : ι → ℝ) (j : ι) : ℝ :=
  Real.exp (S j) / ∑ l ∈ K, Real.exp (S l)

theorem share_add (K : Finset ι) (S : ι → ℝ) (c : ℝ) (j : ι) :
    share K (fun l => S l + c) j = share K S j := by
  simp only [share, Real.exp_add, ← Finset.sum_mul]
  exact mul_div_mul_right _ _ (Real.exp_pos c).ne'

theorem sum_share (nonempty : K.Nonempty) : ∑ j ∈ K, share K S j = 1 := by
  have positive : 0 < ∑ l ∈ K, Real.exp (S l) :=
    Finset.sum_pos (fun _ _ => Real.exp_pos _) nonempty
  simp only [share, ← Finset.sum_div]
  exact div_self positive.ne'

end Shares

namespace NDArray

def AllReal (a : NDArray EReal) : Prop := ∀ i, IsReal (a.get i)

section Softmax

variable {a : NDArray EReal} {s : Shape} {r n : ℕ}

theorem get_softmax_masked (shape : a.shape = s) (width : s.last = n) (hr : r < s.rows)
    {K : Finset (Fin n)} {S : Fin n → ℝ} (nonempty : K.Nonempty)
    (scores : ∀ j : Fin n, a.get (r * n + j) = if j ∈ K then (S j : EReal) else ⊥) (j : Fin n) :
    a.softmax.get (r * n + j) = ((if j ∈ K then share K S j else 0 : ℝ) : EReal) := by
  subst width
  obtain ⟨k, hk⟩ := nonempty
  have inside := k.isLt
  have top : IsReal (a.rowMaxima.get r) := by
    rw [get_rowMaxima shape hr]
    refine IsReal.foldTo (i := k) (fun l hl => ?_) (by omega) ⟨S k, ?_⟩
    · have column : l < s.last := by omega
      rw [scores ⟨l, column⟩]
      split
      · exact EReal.coe_lt_top _
      · exact bot_lt_top
    · rw [scores k, if_pos hk]
  obtain ⟨t, ht⟩ := top
  have weight (l : Fin s.last) : Scalar.exp (a.get (r * s.last + l) - a.rowMaxima.get r) =
      ((if l ∈ K then Real.exp (S l) / Real.exp t else 0 : ℝ) : EReal) := by
    rw [scores l, ht]
    split
    · rw [← Real.exp_sub, ← exp_coe, EReal.coe_sub]
    · exact MaskingScalar.exp_masked _
  rw [get_softmax_row shape hr j.isLt, sumTo_fin weight, weight j]
  refine (EReal.coe_div _ _).symm.trans (congrArg _ ?_)
  rw [Finset.sum_ite_mem, Finset.univ_inter, ← Finset.sum_div]
  split
  · exact div_div_div_cancel_right₀ (Real.exp_pos t).ne' _ _
  · exact zero_div _

end Softmax

namespace AllReal

variable {a b g x y v rows : NDArray EReal}

theorem ofFn {s : Shape} {f : ℕ → EReal} (h : ∀ i, IsReal (f i)) : (ofFn s f).AllReal := by
  intro i
  rcases Nat.lt_or_ge i s.size with inside | outside
  · rw [get_ofFn inside]
    exact h i
  · rw [get_of_size_le outside]
    exact .zero

theorem fill (s : Shape) {c : EReal} (h : IsReal c) : (fill s c).AllReal := ofFn fun _ => h

theorem map {f : EReal → EReal} (keeps : ∀ z, IsReal z → IsReal (f z)) (h : a.AllReal) :
    (a.map f).AllReal :=
  ofFn fun i => keeps _ (h i)

theorem zipWith {f : EReal → EReal → EReal} (keeps : ∀ z t, IsReal z → IsReal t → IsReal (f z t))
    (ha : a.AllReal) (hb : b.AllReal) : (NDArray.zipWith f a b).AllReal :=
  ofFn fun i => keeps _ _ (ha i) (hb i)

theorem reshape (h : a.AllReal) (s : Shape) : (a.reshape s).AllReal := ofFn h

theorem add (ha : a.AllReal) (hb : b.AllReal) : (a.add b).AllReal :=
  ha.zipWith (fun _ _ => .add) hb

theorem sub (ha : a.AllReal) (hb : b.AllReal) : (a.sub b).AllReal :=
  ha.zipWith (fun _ _ => .sub) hb

theorem mul (ha : a.AllReal) (hb : b.AllReal) : (a.mul b).AllReal :=
  ha.zipWith (fun _ _ => .mul) hb

theorem scale (h : a.AllReal) {c : EReal} (hc : IsReal c) : (a.scale c).AllReal :=
  h.map fun _ hz => hz.mul hc

theorem addRow (ha : a.AllReal) (hv : v.AllReal) : (a.addRow v).AllReal :=
  ofFn fun i => (ha i).add (hv _)

theorem mulRow (ha : a.AllReal) (hv : v.AllReal) : (a.mulRow v).AllReal :=
  ofFn fun i => (hv _).mul (ha i)

theorem addBroadcast (ha : a.AllReal) (hb : b.AllReal) : (a.addBroadcast b).AllReal := by
  unfold NDArray.addBroadcast
  split
  · exact ha.add hb
  · split
    · exact ha.addRow hb
    · exact hb.addRow ha

theorem sumRows (h : a.AllReal) : a.sumRows.AllReal := ofFn fun _ => .sumTo (fun _ => h _) _

theorem addReverse (h : g.AllReal) (s : Shape) : (addReverse s g).AllReal := by
  unfold NDArray.addReverse
  split
  · exact h
  · exact h.sumRows

theorem transpose (h : a.AllReal) : a.transpose.AllReal := ofFn fun _ => h _

theorem matmul (ha : a.AllReal) (hb : b.AllReal) : (a.matmul b).AllReal :=
  ofFn fun _ => .sumTo (fun _ => (ha _).mul (hb _)) _

theorem gather (h : a.AllReal) (is : List ℕ) : (a.gather is).AllReal := ofFn fun _ => h _

theorem scatter (h : g.AllReal) (s : Shape) (is : List ℕ) : (scatter s is g).AllReal :=
  ofFn fun _ => .sumTo (fun _ => .ite (h _) .zero) _

theorem overKeys (hg : g.AllReal) (hx : x.AllReal) : (overKeys g x).AllReal :=
  ofFn fun _ => .sumTo (fun _ => (hg _).mul (hx _)) _

theorem overQueries (hg : g.AllReal) (hx : x.AllReal) : (overQueries g x).AllReal :=
  ofFn fun _ => .sumTo (fun _ => (hg _).mul (hx _)) _

theorem overWidth (hg : g.AllReal) (hx : x.AllReal) : (overWidth g x).AllReal :=
  ofFn fun _ => .sumTo (fun _ => (hg _).mul (hx _)) _

theorem perRow {f : (ℕ → EReal) → ℕ → EReal}
    (keeps : ∀ (row : ℕ → EReal) n, (∀ i, IsReal (row i)) → IsReal (f row n)) (h : a.AllReal) :
    (a.perRow f).AllReal :=
  ofFn fun _ => keeps _ _ fun _ => h _

theorem withRows {f : EReal → EReal → EReal} (keeps : ∀ z t, IsReal z → IsReal t → IsReal (f z t))
    (ha : a.AllReal) (hr : rows.AllReal) : (a.withRows f rows).AllReal :=
  ofFn fun i => keeps _ _ (ha i) (hr _)

theorem rowSums (h : a.AllReal) : a.rowSums.AllReal := h.perRow fun _ n hrow => .sumTo hrow n

theorem rowMeans (h : a.AllReal) : a.rowMeans.AllReal :=
  h.perRow fun _ n hrow => (IsReal.sumTo hrow n).div (.ofNat n)

theorem rowMaxima (h : a.AllReal) : a.rowMaxima.AllReal :=
  h.perRow fun _ _ hrow => .foldTo (i := 0) (fun j _ => (hrow j).lt_top) (Nat.zero_le _) (hrow 0)

theorem softmax (h : a.AllReal) : a.softmax.AllReal := by
  have weights := h.withRows (fun _ _ hz ht => (hz.sub ht).exp) h.rowMaxima
  exact weights.withRows (fun _ _ => .div) weights.rowSums

theorem relu (h : a.AllReal) : a.relu.AllReal := h.map fun _ hz => hz.larger .zero

theorem centred (h : a.AllReal) : a.centred.AllReal := h.withRows (fun _ _ => .sub) h.rowMeans

theorem rowVariances (h : a.AllReal) : a.rowVariances.AllReal := (h.centred.mul h.centred).rowMeans

theorem layerNorm {eps : EReal} (heps : IsReal eps) (hx : x.AllReal) (hg : g.AllReal)
    (hb : b.AllReal) : (x.layerNorm eps g b).AllReal :=
  ((hx.centred.mulRow hg).withRows (fun _ _ => .div)
    (hx.rowVariances.map fun _ hz => (hz.add heps).sqrt)).addRow hb

theorem softmaxReverse (hy : y.AllReal) (hg : g.AllReal) : (softmaxReverse y g).AllReal :=
  hy.mul (hg.withRows (fun _ _ => .sub) (hg.mul hy).rowSums)

theorem reluReverse (hg : g.AllReal) (x : NDArray EReal) : (reluReverse x g).AllReal :=
  ofFn fun i => .ite (hg i) .zero

theorem crossEntropyReverse (hx : x.AllReal) (hg : g.AllReal) (targets : List ℕ) :
    (crossEntropyReverse x targets g).AllReal :=
  ofFn fun i => (((hx.softmax i).sub (.ite .one .zero)).mul (hg 0)).div (.ofNat _)

theorem normalised {eps : EReal} (heps : IsReal eps) (hx : x.AllReal) (ha : a.AllReal)
    (hv : v.AllReal) : (normalised eps x a v).1.AllReal ∧ (normalised eps x a v).2.AllReal := by
  have factors := hv.map fun _ hz => IsReal.one.div (hz.add heps).sqrt
  exact ⟨(hx.withRows (fun _ _ => .sub) ha).withRows (fun _ _ => .mul) factors, factors⟩

theorem layerNormGain {eps : EReal} (heps : IsReal eps) (hx : x.AllReal) (ha : a.AllReal)
    (hv : v.AllReal) (hg : g.AllReal) : (layerNormGain eps x a v g).AllReal :=
  (hg.mul (normalised heps hx ha hv).1).sumRows

theorem layerNormInput {eps : EReal} (heps : IsReal eps) (hx : x.AllReal) (ha : a.AllReal)
    (hv : v.AllReal) (hb : b.AllReal) (hg : g.AllReal) :
    (layerNormInput eps x a v b g).AllReal := by
  obtain ⟨hat, factors⟩ := normalised heps hx ha hv
  have scaled := hg.mulRow hb
  have correction := hat.withRows (fun _ _ => .mul) (scaled.mul hat).rowMeans
  have inner := (scaled.withRows (fun _ _ => .sub) scaled.rowMeans).sub correction
  exact inner.withRows (fun _ _ hz ht => ht.mul hz) factors

end AllReal

end NDArray

end DerivativeEngine

namespace DerivativeEngine.NDArray

variable {a b : NDArray EReal} {m n k : ℕ}

structure IsMatrix (a : NDArray EReal) {m n : ℕ} (M : Matrix (Fin m) (Fin n) ℝ) : Prop where
  shape : a.shape = [m, n]
  entry : ∀ (i : Fin m) (j : Fin n), a.get (i * n + j) = M i j

structure IsRow (a : NDArray EReal) {n : ℕ} (v : Fin n → ℝ) : Prop where
  shape : a.shape = [n]
  entry : ∀ j : Fin n, a.get j = v j

theorem AllReal.exists_isMatrix (h : a.AllReal) (shape : a.shape = [m, n]) :
    ∃ M : Matrix (Fin m) (Fin n) ℝ, a.IsMatrix M :=
  ⟨.of fun i j => (a.get (i * n + j)).toReal, shape, fun _ _ => (h _).toReal.symm⟩

theorem AllReal.exists_isRow (h : a.AllReal) (shape : a.shape = [n]) :
    ∃ v : Fin n → ℝ, a.IsRow v :=
  ⟨fun j => (a.get j).toReal, shape, fun _ => (h _).toReal.symm⟩

namespace IsMatrix

variable {M : Matrix (Fin m) (Fin n) ℝ} {N : Matrix (Fin n) (Fin k) ℝ} {v : Fin n → ℝ}

theorem get (h : a.IsMatrix M) {i j : ℕ} (hi : i < m) (hj : j < n) :
    a.get (i * n + j) = M ⟨i, hi⟩ ⟨j, hj⟩ :=
  h.entry ⟨i, hi⟩ ⟨j, hj⟩

theorem unique (h : a.IsMatrix M) (h' : b.IsMatrix M) : a = b := by
  refine ext_get (h.shape.trans h'.shape.symm) fun t ht => ?_
  rw [size, h.shape, Shape.size_two] at ht
  have wide : 0 < n := Nat.pos_of_mul_pos_left (Nat.zero_lt_of_lt ht)
  have place := Nat.div_add_mod' t n
  rw [← place, h.get (Shape.row_lt ht) (Nat.mod_lt _ wide),
    h'.get (Shape.row_lt ht) (Nat.mod_lt _ wide)]

theorem allReal (h : a.IsMatrix M) : a.AllReal := by
  intro t
  rcases Nat.lt_or_ge t a.size with inside | outside
  · rw [size, h.shape, Shape.size_two] at inside
    have wide : 0 < n := Nat.pos_of_mul_pos_left (Nat.zero_lt_of_lt inside)
    rw [← Nat.div_add_mod' t n, h.get (Shape.row_lt inside) (Nat.mod_lt _ wide)]
    exact .coe _
  · rw [get_of_size_le outside]
    exact .zero

theorem transpose (h : a.IsMatrix M) : a.transpose.IsMatrix M.transpose where
  shape := by simp [NDArray.transpose, NDArray.ofFn, h.shape, Shape.dim]
  entry i j := by rw [get_transpose h.shape i.isLt j.isLt, h.entry, Matrix.transpose_apply]

theorem matmul (h : a.IsMatrix M) (h' : b.IsMatrix N) : (a.matmul b).IsMatrix (M * N) where
  shape := by simp [NDArray.matmul, NDArray.ofFn, h.shape, h'.shape, Shape.dim]
  entry i j := by
    rw [get_matmul h.shape h'.shape i.isLt j.isLt, Matrix.mul_apply]
    refine sumTo_fin fun l => ?_
    rw [h.entry, h'.entry, EReal.coe_mul]

theorem addBroadcast (h : a.IsMatrix M) (h' : b.IsRow v) :
    (a.addBroadcast b).IsMatrix (.of fun i j => M i j + v j) := by
  have added : a.addBroadcast b = a.addRow b := by
    rw [NDArray.addBroadcast, if_neg (by simp [h.shape, h'.shape]), if_pos (by simp [h.shape])]
  rw [added]
  refine ⟨h.shape, fun i j => ?_⟩
  have place := get_addRow (v := b) h.shape (r := i) (j := j) (by simp [Shape.rows_two]) j.isLt
  rw [Matrix.of_apply, EReal.coe_add, ← h.entry, ← h'.entry]
  exact place

end IsMatrix

end DerivativeEngine.NDArray
