import DerivativeEngine.Proofs.Layer.Buildable
import DerivativeEngine.Proofs.Tensor.Balance
import DerivativeEngine.Proofs.Tensor.RealArrays

/-! Attention with several heads, as it is defined for matrices of real numbers: each head has its
own columns of the projections, shares out the values of the keys that a query sees by how well they
answer it, and puts what it gets back into its columns. The layer takes its columns apart and puts
them together again through arrays of three dimensions; it computes the same. -/

namespace DerivativeEngine

section Definition

variable {n d e heads width : ℕ}

/-- A map from rows of `d` columns to rows of `e`. -/
structure Affine (d e : ℕ) where
  weight : Matrix (Fin e) (Fin d) ℝ
  bias : Fin e → ℝ

def Affine.apply (A : Affine d e) (X : Matrix (Fin n) (Fin d) ℝ) : Matrix (Fin n) (Fin e) ℝ :=
  .of fun i j => (X * A.weight.transpose) i j + A.bias j

def columns (h : Fin heads) (X : Matrix (Fin n) (Fin (heads * width)) ℝ) :
    Matrix (Fin n) (Fin width) ℝ :=
  .of fun i d => X i ⟨h * width + d, Shape.index_lt h.isLt d.isLt⟩

def sideBySide (Y : Fin heads → Matrix (Fin n) (Fin width) ℝ) :
    Matrix (Fin n) (Fin (heads * width)) ℝ :=
  .of fun i c => Y c.divNat i c.modNat

def seen (causal : Bool) (i : Fin n) : Finset (Fin n) :=
  if causal then Finset.Iic i else Finset.univ

/-- The softmax of `Q Kᵀ / √width` over the keys that are seen, times `V`. -/
noncomputable def attend (causal : Bool) (Q K V : Matrix (Fin n) (Fin width) ℝ) :
    Matrix (Fin n) (Fin width) ℝ :=
  .of fun i d => ∑ j ∈ seen causal i,
    share (seen causal i) (fun l => (Q * K.transpose) i l / √width) j * V j d

/-- Each head attends on its own, and the results are projected once more. -/
noncomputable def multiHead (causal : Bool)
    (query key values output : Affine (heads * width) (heads * width))
    (X : Matrix (Fin n) (Fin (heads * width)) ℝ) : Matrix (Fin n) (Fin (heads * width)) ℝ :=
  output.apply (sideBySide fun h => attend causal (columns h (query.apply X))
    (columns h (key.apply X)) (columns h (values.apply X)))

theorem mem_seen {causal : Bool} {i j : Fin n} :
    j ∈ seen causal i ↔ ¬ (causal && decide ((i : ℕ) < j)) = true := by
  cases causal with
  | false => simp [seen]
  | true =>
    rw [seen, if_pos rfl, Finset.mem_Iic, Bool.true_and, decide_eq_true_eq, Nat.not_lt]
    exact Fin.le_def

theorem seen_nonempty (causal : Bool) (i : Fin n) : (seen causal i).Nonempty :=
  ⟨i, mem_seen.2 (by simp)⟩

theorem attend_add (causal : Bool) (Q K V : Matrix (Fin n) (Fin width) ℝ) (c : Fin width → ℝ) :
    attend causal Q (.of fun j d => K j d + c d) V = attend causal Q K V := by
  have raised (i l : Fin n) :
      (Q * (Matrix.of fun j d => K j d + c d).transpose) i l / √width =
        (Q * K.transpose) i l / √width + (∑ d, Q i d * c d) / √width := by
    simp only [Matrix.mul_apply, Matrix.transpose_apply, Matrix.of_apply, mul_add,
      Finset.sum_add_distrib, add_div]
  unfold attend
  simp only [raised, share_add]

/-- The bias of the keys makes no difference. -/
theorem multiHead_key_bias (causal : Bool)
    (query key values output : Affine (heads * width) (heads * width))
    (X : Matrix (Fin n) (Fin (heads * width)) ℝ) (bias : Fin (heads * width) → ℝ) :
    multiHead causal query { key with bias } values output X =
      multiHead causal query key values output X := by
  have moved (h : Fin heads) : columns h (({ key with bias } : Affine _ _).apply X) =
      .of fun j d => columns h (key.apply X) j d +
        (bias ⟨h * width + d, Shape.index_lt h.isLt d.isLt⟩ -
          key.bias ⟨h * width + d, Shape.index_lt h.isLt d.isLt⟩) := by
    funext j d
    simp only [columns, Affine.apply, Matrix.of_apply]
    ring
  unfold multiHead
  simp only [moved]
  congr
  funext h
  exact attend_add causal _ _ _ _

end Definition

namespace NDArray

variable {q k : NDArray EReal} {c : EReal} {n heads width : ℕ}

theorem get_softmax_scores (rows : q.shape = [n, heads, width]) (causal : Bool) (h : Fin heads)
    (i : Fin n) {S : Fin n → ℝ}
    (scores : ∀ l : Fin n,
      sumTo (fun d => entry q heads width i h d * entry k heads width l h d) width * c = S l)
    (j : Fin n) :
    (attentionScores Scalar.negInf c causal q k).softmax.get ((h * n + i) * n + j) =
      ((if j ∈ seen causal i then share (seen causal i) S j else 0 : ℝ) : EReal) := by
  have shape : (attentionScores Scalar.negInf c causal q k).shape = [heads, n, n] := by
    simp [attentionScores, ofFn, rows, Shape.dim]
  have row : (h : ℕ) * n + i < Shape.rows [heads, n, n] := by
    rw [Shape.rows, rowShape]
    simpa [Shape.size] using Shape.index_lt h.isLt i.isLt
  have last : Shape.last [heads, n, n] = n := rfl
  refine get_softmax_masked shape last row (seen_nonempty causal i) (fun l => ?_) j
  refine (get_attentionScores rows h.isLt i.isLt l.isLt).trans ?_
  by_cases after : (causal && decide ((i : ℕ) < l)) = true
  · rw [if_pos after, if_neg fun member => mem_seen.1 member after]
    rfl
  · rw [if_neg after, if_pos (mem_seen.2 after), scores l]

theorem exists_square {t : ℕ} (ht : t < Shape.size [heads, n, n]) :
    ∃ (h : Fin heads) (i j : Fin n), t = (h * n + i) * n + j := by
  rw [Shape.size_three] at ht
  have wide : 0 < n := Nat.pos_of_mul_pos_left (Nat.zero_lt_of_lt ht)
  have row : t / n < heads * n := Shape.row_lt ht
  refine ⟨⟨t / n / n, Shape.row_lt row⟩, ⟨t / n % n, Nat.mod_lt _ wide⟩,
    ⟨t % n, Nat.mod_lt _ wide⟩, ?_⟩
  change t = (t / n / n * n + t / n % n) * n + t % n
  rw [Nat.div_add_mod', Nat.div_add_mod']

theorem shared_softmax_scores (hq : q.AllReal) (hk : k.AllReal) (hc : IsReal c)
    (rows : q.shape = [n, heads, width]) (causal : Bool) :
    Shared causal (heads * n) n (attentionScores Scalar.negInf c causal q k).softmax := by
  have shape : (attentionScores Scalar.negInf c causal q k).softmax.shape = [heads, n, n] := by
    change [q.shape.dim 1, q.shape.dim 0, q.shape.dim 0] = _
    rw [rows]
    rfl
  have weight (h : Fin heads) (i j : Fin n) := get_softmax_scores rows causal h i
    (S := fun l => (sumTo (fun d => entry q heads width i h d * entry k heads width l h d) width *
      c).toReal)
    (fun l => ((IsReal.sumTo (fun d => (hq _).mul (hk _)) width).mul hc).toReal.symm) j
  refine ⟨fun t => ?_, fun r hr => ?_, ext_unmasked rfl fun t => ?_⟩
  · rcases Nat.lt_or_ge t (Shape.size [heads, n, n]) with inside | outside
    · obtain ⟨h, i, j, rfl⟩ := exists_square inside
      exact ⟨_, weight h i j⟩
    · rw [get_of_size_le (by rwa [size, shape])]
      exact .zero
  · have wide : 0 < n := Nat.pos_of_mul_pos_left (Nat.zero_lt_of_lt hr)
    have place := Nat.div_add_mod' r n
    rw [← place, sumTo_fin (weight ⟨r / n, Shape.row_lt hr⟩ ⟨r % n, Nat.mod_lt _ wide⟩),
      Finset.sum_ite_mem, Finset.univ_inter, sum_share (seen_nonempty _ _)]
    rfl
  · have last : (attentionScores Scalar.negInf c causal q k).softmax.shape.last = n := by
      rw [shape]
      rfl
    rw [last]
    split
    · next after =>
      rcases Nat.lt_or_ge t (Shape.size [heads, n, n]) with inside | outside
      · obtain ⟨h, i, j, rfl⟩ := exists_square inside
        rw [Shape.index_div j.isLt, Shape.index_mod i.isLt, Shape.index_mod j.isLt] at after
        rw [weight h i j, if_neg fun member => mem_seen.1 member after]
        rfl
      · rw [get_of_size_le (by rwa [size, shape])]
    · rfl

end NDArray

/-- The parameters of a projection are those of this map. -/
structure Linear.IsAffine (l : Linear (NDArray EReal)) {d e : ℕ} (A : Affine d e) : Prop where
  weight : l.weight.IsMatrix A.weight
  bias : l.bias.IsRow A.bias

theorem Linear.IsAffine.value {l : Linear (NDArray EReal)} {x : NDArray EReal} {n d e : ℕ}
    {A : Affine d e} {X : Matrix (Fin n) (Fin d) ℝ} (h : l.IsAffine A) (hx : x.IsMatrix X) :
    (l.value x).IsMatrix (A.apply X) :=
  (hx.matmul h.weight.transpose).addBroadcast h.bias

namespace MultiHeadAttention

variable {α ν : Type}

structure Sized [Scalar α] (a : MultiHeadAttention α ν) (m n : ℕ) : Prop where
  model : a.model = (m * n : ℕ)
  heads : a.heads = m
  width : a.width = n
  scale : a.scale = 1 / Scalar.sqrt (Scalar.ofNat n)

variable {a : MultiHeadAttention EReal (NDArray EReal)} {x : NDArray EReal} {n heads width : ℕ}
  {X : Matrix (Fin n) (Fin (heads * width)) ℝ}

theorem Sized.scale_eq (h : a.Sized heads width) : a.scale = ((1 / √width : ℝ) : EReal) := by
  rw [h.scale, EReal.coe_div]
  exact congrArg ((1 : EReal) / ·) (sqrt_coe width)

theorem Sized.get_split (h : a.Sized heads width) {l : Linear (NDArray EReal)}
    {A : Affine (heads * width) (heads * width)} (hl : l.IsAffine A) (hx : x.IsMatrix X) (i : Fin n)
    (k : Fin heads) (d : Fin width) :
    (a.split l x).get ((i * heads + k) * width + d) = columns k (A.apply X) i d := by
  have column : (k : ℕ) * width + d < heads * width := Shape.index_lt k.isLt d.isLt
  have place : ((i : ℕ) * heads + k) * width + d = i * (heads * width) + (k * width + d) := by
    rw [Nat.add_mul, Nat.mul_assoc, Nat.add_assoc]
  have inside : ((i : ℕ) * heads + k) * width + d < Shape.size [n, heads, width] := by
    rw [Shape.size_three]
    exact Shape.index_lt (Shape.index_lt i.isLt k.isLt) d.isLt
  rw [MultiHeadAttention.split, h.heads, h.width, hx.shape]
  change (NDArray.ofFn [n, heads, width] (l.value x).get).get _ = _
  rw [NDArray.get_ofFn inside, place, (hl.value hx).get i.isLt column]
  rfl

theorem Sized.get_weights (h : a.Sized heads width)
    {query key : Affine (heads * width) (heads * width)} (hq : a.query.IsAffine query)
    (hk : a.key.IsAffine key) (hx : x.IsMatrix X) (k : Fin heads) (i j : Fin n) :
    (NDArray.attentionScores Scalar.negInf a.scale a.causal (a.split a.query x)
        (a.split a.key x)).softmax.get ((k * n + i) * n + j) =
      ((if j ∈ seen a.causal i then share (seen a.causal i)
        (fun l => (columns k (query.apply X) * (columns k (key.apply X)).transpose) i l / √width) j
        else 0 : ℝ) : EReal) := by
  have rows : (a.split a.query x).shape = [n, heads, width] := by
    rw [a.shape_split _ hx.shape, h.heads, h.width]
    rfl
  refine NDArray.get_softmax_scores rows a.causal k i (fun l => ?_) j
  rw [div_eq_mul_one_div, EReal.coe_mul, ← h.scale_eq, Matrix.mul_apply]
  refine congrArg (· * a.scale) (sumTo_fin fun d => ?_)
  rw [NDArray.entry, NDArray.entry, h.get_split hq hx, h.get_split hk hx, ← EReal.coe_mul,
    Matrix.transpose_apply]

theorem Sized.value (h : a.Sized heads width)
    {query key values output : Affine (heads * width) (heads * width)}
    (hq : a.query.IsAffine query) (hk : a.key.IsAffine key) (hv : a.values.IsAffine values)
    (ho : a.output.IsAffine output) (hx : x.IsMatrix X) :
    (a.value x).IsMatrix (multiHead a.causal query key values output X) := by
  refine ho.value ⟨?_, fun i c => ?_⟩
  · rw [h.model, hx.shape]
    rfl
  have rows : (a.split a.values x).shape = [n, heads, width] := by
    rw [a.shape_split _ hx.shape, h.heads, h.width]
    rfl
  have place : (i : ℕ) * (heads * width) + c =
      (i * heads + c.divNat) * width + c.modNat := by
    rw [Nat.add_mul, Nat.mul_assoc, Nat.add_assoc, Fin.coe_divNat, Fin.coe_modNat,
      Nat.div_add_mod']
  have inside : (i : ℕ) * (heads * width) + c < Shape.size [n, heads * width] := by
    rw [Shape.size_two]
    exact Shape.index_lt i.isLt c.isLt
  have joined : ((a.mixed x).reshape [x.shape.dim 0, a.model.toNat]).get (i * (heads * width) + c) =
      (a.mixed x).get (i * (heads * width) + c) := by
    rw [h.model, hx.shape]
    exact NDArray.get_ofFn inside
  rw [joined, place, MultiHeadAttention.mixed,
    NDArray.get_overKeys rows i.isLt c.divNat.isLt c.modNat.isLt]
  have term (j : Fin n) : (NDArray.attentionScores Scalar.negInf a.scale a.causal
      (a.split a.query x) (a.split a.key x)).softmax.get ((c.divNat * n + i) * n + j) *
        (a.split a.values x).get ((j * heads + c.divNat) * width + c.modNat) =
      ((if j ∈ seen a.causal i then share (seen a.causal i) (fun l =>
          (columns c.divNat (query.apply X) * (columns c.divNat (key.apply X)).transpose) i l /
            √width) j * columns c.divNat (values.apply X) j c.modNat else 0 : ℝ) : EReal) := by
    rw [h.get_weights hq hk hx, h.get_split hv hx, ← EReal.coe_mul, ite_mul, zero_mul]
  rw [sumTo_fin term, Finset.sum_ite_mem, Finset.univ_inter]
  rfl

section Plans

variable [Scalar α] {causal : Bool} {name : String} {p : MultiHeadAttention α (Slot α)}

theorem sized_of_plan
    (plan : MultiHeadAttention.plan (heads * width : ℕ) heads causal name = .ok p) :
    p.Sized heads width ∧ p.causal = causal := by
  have planned := MultiHeadAttention.planned plan
  have columns : p.width = width := by
    rw [planned.width.1, Nat.cast_mul]
    exact Int.mul_ediv_cancel_left _ planned.divides.1.ne'
  have number : (Scalar.ofInt p.width : α) = Scalar.ofNat width := by
    rw [columns, Scalar.ofInt, if_neg (by omega), Int.natAbs_natCast]
  obtain ⟨root, taken, scale⟩ := planned.scale
  rw [number, Slot.root] at taken
  split at taken
  · cases taken
  obtain rfl := Except.ok.inj taken
  exact ⟨⟨planned.model, planned.heads, columns, scale⟩, planned.causal⟩

theorem Sized.of_frame {μ : Type} {a : MultiHeadAttention α ν} {p : MultiHeadAttention α μ}
    (h : p.Sized heads width) (frame : a.frame = p.frame) : a.Sized heads width where
  model := (congrArg MultiHeadAttention.model frame).trans h.model
  heads := (congrArg MultiHeadAttention.heads frame).trans h.heads
  width := (congrArg MultiHeadAttention.width frame).trans h.width
  scale := (congrArg MultiHeadAttention.scale frame).trans h.scale

end Plans

end MultiHeadAttention

end DerivativeEngine
