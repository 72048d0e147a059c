import DerivativeEngine.Proofs.Layer.Shapes
import DerivativeEngine.Proofs.Tensor.Rows

/-! What a causal model can know of a sequence. Where the exponential of a masked score is zero, a
query mixes the values of the keys up to itself and no others, so the first rows that an attention
layer gives depend on the first rows it gets. All other layers work on each row by itself. The first
logits are then the same for any two sequences that start alike, whatever follows and however
long. -/

namespace DerivativeEngine

variable {α : Type}

/-- What is asked of arithmetic with a number below all others: it never wins a maximum, its
exponential is zero under any shift, and what is multiplied by zero is nothing to a sum. -/
class MaskingScalar (α : Type) [Scalar α] : Prop where
  add_zero : ∀ x : α, x + 0 = x
  zero_mul : ∀ x : α, 0 * x = 0
  zero_div : ∀ x : α, 0 / x = 0
  exp_masked : ∀ x : α, Scalar.exp (Scalar.negInf - x) = 0
  larger_masked : ∀ x : α, NDArray.larger x Scalar.negInf = x

section Masked

variable [Scalar α] [MaskingScalar α]

theorem sumTo_masked {f : Nat → α} {m : Nat} : ∀ {n : Nat}, m ≤ n →
    (∀ j, m ≤ j → j < n → f j = 0) → sumTo f n = sumTo f m
  | 0, le, _ => by rw [Nat.le_zero.1 le]
  | n + 1, le, zero => by
    rcases Nat.lt_or_eq_of_le le with lt | rfl
    · have before : m ≤ n := Nat.le_of_lt_succ lt
      rw [sumTo, zero n before (Nat.lt_succ_self n), MaskingScalar.add_zero,
        sumTo_masked before fun j hm hj => zero j hm (Nat.lt_succ_of_lt hj)]
    · rfl

theorem foldTo_masked {f : Nat → α} {m : Nat} : ∀ {n : Nat}, m ≤ n →
    (∀ j, m < j → j ≤ n → f j = Scalar.negInf) →
      foldTo NDArray.larger f n = foldTo NDArray.larger f m
  | 0, le, _ => by rw [Nat.le_zero.1 le]
  | n + 1, le, masked => by
    rcases Nat.lt_or_eq_of_le le with lt | rfl
    · have before : m ≤ n := Nat.le_of_lt_succ lt
      rw [foldTo, masked (n + 1) lt (Nat.le_refl _), MaskingScalar.larger_masked,
        foldTo_masked before fun j hm hj => masked j hm (Nat.le_succ_of_le hj)]
    · rfl

end Masked

section Attention

variable [Scalar α]

def weighed (score value : Nat → α) (n : Nat) : α :=
  let top := foldTo NDArray.larger score n
  sumTo (fun j => Scalar.exp (score j - top) /
    sumTo (fun l => Scalar.exp (score l - top)) (n + 1) * value j) (n + 1)

theorem weighed_congr {score score' value value' : Nat → α} {n : Nat}
    (scores : ∀ j ≤ n, score j = score' j) (values : ∀ j ≤ n, value j = value' j) :
    weighed score value n = weighed score' value' n := by
  have total : sumTo (fun l => Scalar.exp (score l - foldTo NDArray.larger score n)) (n + 1) =
      sumTo (fun l => Scalar.exp (score' l - foldTo NDArray.larger score n)) (n + 1) :=
    sumTo_congr fun l hl => by rw [scores l (Nat.le_of_lt_succ hl)]
  unfold weighed
  dsimp only
  rw [total, foldTo_congr scores]
  refine sumTo_congr fun j hj => ?_
  rw [scores j (Nat.le_of_lt_succ hj), values j (Nat.le_of_lt_succ hj)]

theorem weighed_masked [MaskingScalar α] {score value : Nat → α} {i n : Nat} (le : i ≤ n)
    (masked : ∀ j, i < j → j ≤ n → score j = Scalar.negInf) :
    weighed score value n = weighed score value i := by
  have top := foldTo_masked le masked
  have nothing : ∀ j, i + 1 ≤ j → j < n + 1 →
      Scalar.exp (score j - foldTo NDArray.larger score i) = 0 := by
    intro j hi hn
    rw [masked j hi (Nat.le_of_lt_succ hn), MaskingScalar.exp_masked]
  have total := sumTo_masked (Nat.succ_le_succ le) nothing
  unfold weighed
  dsimp only
  rw [top, total]
  refine sumTo_masked (Nat.succ_le_succ le) fun j hi hn => ?_
  rw [nothing j hi hn, MaskingScalar.zero_div, MaskingScalar.zero_mul]

namespace NDArray

theorem get_softmax {a : NDArray α} {heads n r j : Nat} (shape : a.shape = [heads, n, n])
    (hr : r < heads * n) (hj : j < n) : a.softmax.get (r * n + j) =
      Scalar.exp (a.get (r * n + j) - foldTo larger (fun l => a.get (r * n + l)) (n - 1)) /
        sumTo (fun l => Scalar.exp (a.get (r * n + l) -
          foldTo larger (fun l => a.get (r * n + l)) (n - 1))) n := by
  have row : r < Shape.rows [heads, n, n] := by
    simpa [Shape.rows, rowShape, Shape.size] using hr
  have top : a.rowMaxima.get r = foldTo larger (fun l => a.get (r * n + l)) (n - 1) :=
    get_rowMaxima shape row
  rw [← top]
  exact get_softmax_row shape row hj

theorem get_attentionScores {masked c : α} {causal : Bool} {q k : NDArray α}
    {n heads width h i j : Nat} (shape : q.shape = [n, heads, width]) (hh : h < heads) (hi : i < n)
    (hj : j < n) : (attentionScores masked c causal q k).get ((h * n + i) * n + j) =
      if causal && i < j then masked
      else sumTo (fun d => entry q heads width i h d * entry k heads width j h d) width * c := by
  have row : h * n + i < heads * n := Shape.index_lt hh hi
  have inside : (h * n + i) * n + j < Shape.size [heads, n, n] := by
    simpa [Shape.size, Nat.mul_assoc] using Shape.index_lt row hj
  have head : ((h * n + i) * n + j) / (n * n) = h := by
    rw [← Nat.div_div_eq_div_mul, Shape.index_div hj, Shape.index_div hi]
  simp only [attentionScores, shape, Shape.dim, List.getD_cons_zero, List.getD_cons_succ]
  rw [get_ofFn inside, head, Shape.index_div hj, Shape.index_mod hi, Shape.index_mod hj]

theorem get_mixed {masked c : α} {causal : Bool} {q k v : NDArray α} {n heads width m : Nat}
    (shape : q.shape = [n, heads, width]) (shape' : v.shape = [n, heads, width])
    (hm : m < n * (heads * width)) :
    (overKeys (attentionScores masked c causal q k).softmax v).get m =
      weighed (fun j => (attentionScores masked c causal q k).get
          ((m / width % heads * n + m / (heads * width)) * n + j))
        (fun j => entry v heads width j (m / width % heads) (m % width)) (n - 1) := by
  have query : m / (heads * width) < n := Shape.row_lt hm
  have positive : 0 < heads * width := by
    rcases Nat.eq_zero_or_pos (heads * width) with zero | positive
    · rw [zero, Nat.mul_zero] at hm
      cases hm
    · exact positive
  have head : m / width % heads < heads := Nat.mod_lt _ (Nat.pos_of_mul_pos_right positive)
  have row := Shape.index_lt head query
  have inside : m < Shape.size [n, heads, width] := by simpa [Shape.size] using hm
  have scores : (attentionScores masked c causal q k).shape = [heads, n, n] := by
    simp [attentionScores, NDArray.ofFn, shape, Shape.dim]
  have last : n - 1 + 1 = n := Nat.sub_add_cancel (Nat.zero_lt_of_lt query)
  simp only [overKeys, shape', Shape.dim, List.getD_cons_zero, List.getD_cons_succ]
  rw [get_ofFn inside]
  unfold weighed
  dsimp only
  rw [last]
  exact sumTo_congr fun j hj => by rw [get_softmax scores row hj]

theorem Agree.mixed [MaskingScalar α] {c : α} {q q' k k' v v' : NDArray α} {heads width p : Nat}
    (hq : Agree p [heads, width] q q') (hk : Agree p [heads, width] k k')
    (hv : Agree p [heads, width] v v') (same : v.shape = q.shape) (same' : v'.shape = q'.shape) :
    Agree p [heads, width] (overKeys (attentionScores Scalar.negInf c true q k).softmax v)
      (overKeys (attentionScores Scalar.negInf c true q' k').softmax v') := by
  obtain ⟨n, n', shape, shape', first, second⟩ := hq.shapes
  have entries : ∀ {x x' : NDArray α}, Agree p [heads, width] x x' → ∀ i < p, ∀ h < heads,
      ∀ d < width, entry x heads width i h d = entry x' heads width i h d := by
    intro x x' agree i hi h hh d hd
    refine agree.entries _ ?_
    simpa [Shape.size, Nat.mul_assoc] using Shape.index_lt (Shape.index_lt hi hh) hd
  refine ⟨⟨n, n', ?_, ?_, first, second⟩, fun m hm => ?_⟩
  · simp [overKeys, NDArray.ofFn, same, shape, Shape.dim]
  · simp [overKeys, NDArray.ofFn, same', shape', Shape.dim]
  have inside : m < p * (heads * width) := by simpa [Shape.size] using hm
  have query : m / (heads * width) < p := Shape.row_lt inside
  have positive : 0 < heads * width := by
    rcases Nat.eq_zero_or_pos (heads * width) with zero | positive
    · rw [zero, Nat.mul_zero] at inside
      cases inside
    · exact positive
  have head : m / width % heads < heads := Nat.mod_lt _ (Nat.pos_of_mul_pos_right positive)
  have column : m % width < width := Nat.mod_lt _ (Nat.pos_of_mul_pos_left positive)
  rw [get_mixed shape (same.trans shape)
      (Nat.lt_of_lt_of_le inside (Nat.mul_le_mul_right _ first)),
    get_mixed shape' (same'.trans shape')
      (Nat.lt_of_lt_of_le inside (Nat.mul_le_mul_right _ second))]
  -- Both rows are cut after the query; what is left are scores and values of common keys.
  have score : ∀ {n : Nat} {q k : NDArray α}, q.shape = [n, heads, width] →
      m / (heads * width) < n → ∀ j < n,
        (attentionScores Scalar.negInf c true q k).get
          ((m / width % heads * n + m / (heads * width)) * n + j) =
        if m / (heads * width) < j then Scalar.negInf
        else sumTo (fun d => entry q heads width (m / (heads * width)) (m / width % heads) d *
          entry k heads width j (m / width % heads) d) width * c := by
    intro n q k shape hn j hj
    rw [get_attentionScores shape head hn hj]
    simp only [Bool.true_and, decide_eq_true_eq]
  have lt : m / (heads * width) < n := Nat.lt_of_lt_of_le query first
  have lt' : m / (heads * width) < n' := Nat.lt_of_lt_of_le query second
  rw [weighed_masked (Nat.le_sub_one_of_lt lt) fun j hj hn => by
      rw [score shape lt j (Nat.lt_of_le_sub_one (Nat.zero_lt_of_lt lt) hn), if_pos hj],
    weighed_masked (Nat.le_sub_one_of_lt lt') fun j hj hn => by
      rw [score shape' lt' j (Nat.lt_of_le_sub_one (Nat.zero_lt_of_lt lt') hn), if_pos hj]]
  refine weighed_congr (fun j hj => ?_) fun j hj =>
    entries hv j (Nat.lt_of_le_of_lt hj query) _ head _ column
  have before : ¬ m / (heads * width) < j := Nat.not_lt.2 hj
  rw [score shape lt j (Nat.lt_of_le_of_lt hj lt), score shape' lt' j (Nat.lt_of_le_of_lt hj lt'),
    if_neg before, if_neg before]
  refine congrArg (· * c) (sumTo_congr fun d hd => ?_)
  rw [entries hq _ query _ head d hd, entries hk j (Nat.lt_of_le_of_lt hj query) _ head d hd]

end NDArray

end Attention

section Layers

variable [Scalar α] {p d e : Nat} {x x' : NDArray α}

open NDArray (Agree)

theorem Linear.agree {l : Linear (NDArray α)} (fits : (l.map NDArray.shape).Fits d e)
    (h : Agree p [d] x x') : Agree p [e] (l.value x) (l.value x') := by
  have weight : l.weight.shape = [e, d] := fits.weight
  have bias : l.bias.shape = [e] := fits.bias
  have turned : l.weight.transpose.shape = [d, e] := by
    simp [NDArray.transpose, NDArray.ofFn, weight, Shape.dim]
  have product := h.matmul turned
  have added : ∀ {y : NDArray α} {n : Nat}, y.shape = [n, e] →
      y.addBroadcast l.bias = y.addRow l.bias := by
    intro y n rows
    rw [NDArray.addBroadcast, if_neg (by simp [rows, bias]), if_pos (by simp [rows])]
  obtain ⟨n, n', rows, rows', -⟩ := product.shapes
  rw [Linear.value, Linear.value, added rows, added rows']
  exact product.addRow l.bias

theorem FeedForward.agree {f : FeedForward (NDArray α)} (fits : (f.map NDArray.shape).Fits d)
    (h : Agree p [d] x x') : Agree p [d] (f.value x) (f.value x') := by
  obtain ⟨inner, first, second⟩ := fits
  exact Linear.agree second (Linear.agree first h).relu

theorem Agree.addBroadcast {y y' : NDArray α} (h : Agree p [d] x x') (h' : Agree p [d] y y')
    (same : y.shape = x.shape) (same' : y'.shape = x'.shape) :
    Agree p [d] (x.addBroadcast y) (x'.addBroadcast y') := by
  rw [addBroadcast_eq_add same, addBroadcast_eq_add same']
  exact h.zipWith (· + ·) h'

variable [MaskingScalar α]

theorem MultiHeadAttention.agree {a : MultiHeadAttention α (NDArray α)} (causal : a.causal = true)
    (fits : (a.map NDArray.shape).Fits d) (h : Agree p [d] x x') :
    Agree p [d] (a.value x) (a.value x') := by
  obtain ⟨n, n', rows, rows', first, second⟩ := h.shapes
  have size : Shape.size [a.heads.toNat, a.width.toNat] = Shape.size [d] := by
    simpa [Shape.size] using fits.size 1
  have dim : x.shape.dim 0 = n := by rw [rows]; rfl
  have dim' : x'.shape.dim 0 = n' := by rw [rows']; rfl
  have split : ∀ {l : Linear (NDArray α)}, (l.map NDArray.shape).Fits d d →
      Agree p [a.heads.toNat, a.width.toNat] (a.split l x) (a.split l x') := by
    intro l fitsLinear
    rw [MultiHeadAttention.split, MultiHeadAttention.split, dim, dim']
    exact (Linear.agree fitsLinear h).reshape size first second
  have mixed : Agree p [a.heads.toNat, a.width.toNat] (a.mixed x) (a.mixed x') := by
    rw [MultiHeadAttention.mixed, MultiHeadAttention.mixed, causal]
    refine (split fits.query).mixed (split fits.key) (split fits.values) ?_ ?_
    · rw [a.shape_split _ rows, a.shape_split _ rows]
    · rw [a.shape_split _ rows', a.shape_split _ rows']
  have model : a.model.toNat = d := by
    rw [show a.model = d from fits.model]
    rfl
  rw [MultiHeadAttention.value, MultiHeadAttention.value, dim, dim', model]
  exact Linear.agree fits.output (mixed.reshape size.symm first second)

omit [MaskingScalar α] in
theorem LayerNorm.agree (l : LayerNorm α (NDArray α)) (h : Agree p [d] x x') :
    Agree p [d] (l.value x) (l.value x') :=
  h.layerNorm l.eps l.gamma l.beta

theorem TransformerBlock.agree {b : TransformerBlock α (NDArray α)}
    (causal : b.attention.causal = true) (fits : (b.map NDArray.shape).Fits d)
    (h : Agree p [d] x x') : Agree p [d] (b.value x) (b.value x') := by
  obtain ⟨n, n', rows, rows', -⟩ := h.shapes
  have attended := Agree.addBroadcast h
    (MultiHeadAttention.agree causal fits.attention (b.norm₁.agree h))
    (TransformerBlock.shape_attended fits rows) (TransformerBlock.shape_attended fits rows')
  obtain ⟨m, m', rows₁, rows₁', -⟩ := attended.shapes
  have rows₂ := (b.norm₂.shape_value _).trans rows₁
  have rows₂' := (b.norm₂.shape_value _).trans rows₁'
  refine Agree.addBroadcast attended
    (FeedForward.agree fits.feedForward (b.norm₂.agree attended)) ?_ ?_
  · rw [FeedForward.shape_value fits.feedForward rows₂, rows₁]
  · rw [FeedForward.shape_value fits.feedForward rows₂', rows₁']

theorem TransformerBlock.all_agree : ∀ {bs : List (TransformerBlock α (NDArray α))}
    {x x' : NDArray α}, (∀ b ∈ bs, b.attention.causal = true ∧ (b.map NDArray.shape).Fits d) →
      Agree p [d] x x' →
        Agree p [d] (bs.foldl (fun x b => b.value x) x) (bs.foldl (fun x b => b.value x) x')
  | [], _, _, _, h => h
  | _ :: _, _, _, fits, h => by
    obtain ⟨⟨causal, first⟩, others⟩ := List.forall_mem_cons.1 fits
    have rest := all_agree others (TransformerBlock.agree causal first h)
    exact rest

/-- Logits are the same up to where the sequences are. -/
theorem Transformer.agree {t : Transformer α (NDArray α)} {tokens tokens' : List Int}
    (causal : ∀ b ∈ t.blocks, b.attention.causal = true) (fits : (t.map NDArray.shape).Fits)
    (first : p ≤ tokens.length) (second : p ≤ tokens'.length)
    (same : tokens.take p = tokens'.take p) :
    Agree p [t.config.vocabSize.toNat] (t.value tokens) (t.value tokens') := by
  have table : t.tokens.weight.shape = [t.config.vocabSize.toNat, t.config.dModel.toNat] :=
    fits.tokens
  have places : t.positions.weight.shape = [t.config.maxSeqLen.toNat, t.config.dModel.toNat] :=
    fits.positions
  have common : ∀ {r : Nat}, r < p → tokens[r]? = tokens'[r]? := by
    intro r hr
    rw [← List.getElem?_take_of_lt hr, same, List.getElem?_take_of_lt hr]
  have looked : Agree p [t.config.dModel.toNat]
      (t.tokens.weight.gather (tokens.map Int.toNat))
      (t.tokens.weight.gather (tokens'.map Int.toNat)) :=
    Agree.gather table (by simpa using first) (by simpa using second) fun r hr => by
      simp only [List.getD_eq_getElem?_getD, List.getElem?_map, common hr]
  have placed : Agree p [t.config.dModel.toNat]
      (t.positions.weight.gather (((List.range tokens.length).map Int.ofNat).map Int.toNat))
      (t.positions.weight.gather (((List.range tokens'.length).map Int.ofNat).map Int.toNat)) :=
    Agree.gather places (by simpa using first) (by simpa using second) fun r hr => by
      have inside : r < tokens.length := Nat.lt_of_lt_of_le hr first
      have inside' : r < tokens'.length := Nat.lt_of_lt_of_le hr second
      simp [List.getD_eq_getElem?_getD, inside, inside']
  have embedded : Agree p [t.config.dModel.toNat] (t.embedded tokens) (t.embedded tokens') :=
    Agree.addBroadcast looked placed
      (by simp [Transformer.shape_gather table, Transformer.shape_gather places])
      (by simp [Transformer.shape_gather table, Transformer.shape_gather places])
  have blocks := TransformerBlock.all_agree (fun b hb =>
    ⟨causal b hb, List.forall_mem_map.1 fits.blocks b hb⟩) embedded
  exact Linear.agree fits.head (t.norm.agree blocks)

end Layers

end DerivativeEngine
