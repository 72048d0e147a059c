import DerivativeEngine.Proofs.Layer.Frame
import DerivativeEngine.Proofs.ModelFile.Fitting
import DerivativeEngine.Proofs.Tape.Contributions
import DerivativeEngine.Proofs.Tensor.Arrays

/-! Layers as functions of arrays. What a layer gives is written down without the checks on the way;
where the parameters have the shapes they were planned with, and the input has rows of the right
width, all checks pass. A sequence of tokens that is neither empty nor too long, of tokens that have
a row in their table, so always gets its logits, a row for each token. -/

namespace DerivativeEngine

variable {α : Type}

section Values

variable [Scalar α]

def Linear.value (l : Linear (NDArray α)) (x : NDArray α) : NDArray α :=
  (x.matmul l.weight.transpose).addBroadcast l.bias

def LayerNorm.value (l : LayerNorm α (NDArray α)) (x : NDArray α) : NDArray α :=
  x.layerNorm l.eps l.gamma l.beta

def FeedForward.value (f : FeedForward (NDArray α)) (x : NDArray α) : NDArray α :=
  f.second.value (f.first.value x).relu

namespace MultiHeadAttention

def split (a : MultiHeadAttention α (NDArray α)) (l : Linear (NDArray α)) (x : NDArray α) :
    NDArray α :=
  (l.value x).reshape [x.shape.dim 0, a.heads.toNat, a.width.toNat]

def mixed (a : MultiHeadAttention α (NDArray α)) (x : NDArray α) : NDArray α :=
  NDArray.overKeys (NDArray.attentionScores Scalar.negInf a.scale a.causal (a.split a.query x)
    (a.split a.key x)).softmax (a.split a.values x)

def value (a : MultiHeadAttention α (NDArray α)) (x : NDArray α) : NDArray α :=
  a.output.value ((a.mixed x).reshape [x.shape.dim 0, a.model.toNat])

end MultiHeadAttention

def TransformerBlock.value (b : TransformerBlock α (NDArray α)) (x : NDArray α) : NDArray α :=
  let y := x.addBroadcast (b.attention.value (b.norm₁.value x))
  y.addBroadcast (b.feedForward.value (b.norm₂.value y))

namespace Transformer

def embedded (t : Transformer α (NDArray α)) (tokens : List Int) : NDArray α :=
  (t.tokens.weight.gather (tokens.map Int.toNat)).addBroadcast
    (t.positions.weight.gather (((List.range tokens.length).map Int.ofNat).map Int.toNat))

def value (t : Transformer α (NDArray α)) (tokens : List Int) : NDArray α :=
  t.head.value (t.norm.value
    (t.blocks.foldl (fun x b => b.value x) (t.embedded tokens)))

end Transformer

end Values

structure Linear.Fits (l : Linear Shape) (d e : Nat) : Prop where
  weight : l.weight = [e, d]
  bias : l.bias = [e]

structure LayerNorm.Fits (l : LayerNorm α Shape) (d : Nat) : Prop where
  gamma : l.gamma = [d]
  beta : l.beta = [d]

def FeedForward.Fits (f : FeedForward Shape) (d : Nat) : Prop :=
  ∃ inner, f.first.Fits d inner ∧ f.second.Fits inner d

structure MultiHeadAttention.Fits (a : MultiHeadAttention α Shape) (d : Nat) : Prop where
  model : a.model = d
  positive : 0 < a.model ∧ 0 < a.heads ∧ 0 < a.width
  split : a.heads * a.width = a.model
  query : a.query.Fits d d
  key : a.key.Fits d d
  values : a.values.Fits d d
  output : a.output.Fits d d

structure TransformerBlock.Fits (b : TransformerBlock α Shape) (d : Nat) : Prop where
  norm₁ : b.norm₁.Fits d
  attention : b.attention.Fits d
  norm₂ : b.norm₂.Fits d
  feedForward : b.feedForward.Fits d

structure Transformer.Fits (t : Transformer α Shape) : Prop where
  tokens : t.tokens.weight = [t.config.vocabSize.toNat, t.config.dModel.toNat]
  positions : t.positions.weight = [t.config.maxSeqLen.toNat, t.config.dModel.toNat]
  blocks : ∀ b ∈ t.blocks, b.Fits t.config.dModel.toNat
  norm : t.norm.Fits t.config.dModel.toNat
  head : t.head.Fits t.config.dModel.toNat t.config.vocabSize.toNat

section Plans

variable [Scalar α]

open Operation (ok_of_bind)

omit [Scalar α] in
theorem Slot.shape_of_ofSizes {name : String} {sizes : List Int} {filling : Filling α} {s : Slot α}
    (h : Slot.ofSizes name sizes filling = .ok s) :
    s.shape = sizes.map Int.toNat ∧ ∀ n ∈ sizes, 0 < n := by
  obtain ⟨⟨-, -, positive⟩, shape⟩ := Shape.check_eq_ok.1 (Slot.check_of_ofSizes h)
  exact ⟨shape.symm, positive⟩

theorem Linear.fits_of_plan {inputs outputs : Int} {name : String} {l : Linear (Slot α)}
    (h : Linear.plan inputs outputs name = .ok l) :
    (l.map Slot.shape).Fits inputs.toNat outputs.toNat ∧ 0 < inputs := by
  obtain ⟨quotient, -, h⟩ := ok_of_bind h
  obtain ⟨deviation, -, h⟩ := ok_of_bind h
  obtain ⟨weight, first, h⟩ := ok_of_bind h
  obtain ⟨bias, second, h⟩ := ok_of_bind h
  obtain rfl := Except.ok.inj h
  obtain ⟨shape, positive⟩ := Slot.shape_of_ofSizes first
  exact ⟨⟨shape, (Slot.shape_of_ofSizes second).1⟩, positive inputs (by simp)⟩

theorem LayerNorm.fits_of_plan {width : Int} {eps : α} {name : String} {l : LayerNorm α (Slot α)}
    (h : LayerNorm.plan width eps name = .ok l) : (l.map Slot.shape).Fits width.toNat := by
  obtain ⟨gamma, first, h⟩ := ok_of_bind h
  obtain ⟨beta, second, h⟩ := ok_of_bind h
  obtain rfl := Except.ok.inj h
  exact ⟨(Slot.shape_of_ofSizes first).1, (Slot.shape_of_ofSizes second).1⟩

theorem FeedForward.fits_of_plan {width inner : Int} {name : String} {f : FeedForward (Slot α)}
    (h : FeedForward.plan width inner name = .ok f) : (f.map Slot.shape).Fits width.toNat := by
  obtain ⟨first, up, h⟩ := ok_of_bind h
  obtain ⟨second, down, h⟩ := ok_of_bind h
  obtain rfl := Except.ok.inj h
  exact ⟨inner.toNat, (Linear.fits_of_plan up).1, (Linear.fits_of_plan down).1⟩

theorem MultiHeadAttention.fits_of_plan {model heads : Int} {causal : Bool} {name : String}
    {a : MultiHeadAttention α (Slot α)}
    (h : MultiHeadAttention.plan model heads causal name = .ok a) :
    (a.map Slot.shape).Fits model.toNat := by
  obtain ⟨⟨given, divides⟩, ⟨width, wide⟩, -, ⟨_, query⟩, ⟨_, key⟩, ⟨_, values⟩, ⟨_, output⟩,
    rfl, rfl, -⟩ := MultiHeadAttention.planned h
  obtain ⟨fits, positive⟩ := Linear.fits_of_plan query
  have nonneg : 0 ≤ a.width := width ▸
    Int.ediv_nonneg (Int.le_of_lt positive) (Int.le_of_lt given)
  exact
    { model := (Int.toNat_of_nonneg (Int.le_of_lt positive)).symm
      positive := ⟨positive, given, Int.lt_iff_le_and_ne.2 ⟨nonneg, wide.symm⟩⟩
      split := by
        change a.heads * a.width = a.model
        rw [width]
        exact Int.mul_ediv_cancel' divides
      query := fits
      key := (Linear.fits_of_plan key).1
      values := (Linear.fits_of_plan values).1
      output := (Linear.fits_of_plan output).1 }

theorem TransformerBlock.fits_of_plan {model heads inner : Int} {causal : Bool} {name : String}
    {b : TransformerBlock α (Slot α)}
    (h : TransformerBlock.plan model heads inner causal name = .ok b) :
    (b.map Slot.shape).Fits model.toNat := by
  obtain ⟨norm₁, first, h⟩ := ok_of_bind h
  obtain ⟨attention, second, h⟩ := ok_of_bind h
  obtain ⟨norm₂, third, h⟩ := ok_of_bind h
  obtain ⟨feedForward, fourth, h⟩ := ok_of_bind h
  obtain rfl := Except.ok.inj h
  exact ⟨LayerNorm.fits_of_plan first, MultiHeadAttention.fits_of_plan second,
    LayerNorm.fits_of_plan third, FeedForward.fits_of_plan fourth⟩

theorem Transformer.fits_of_plan {c : TransformerConfig} {causal : Bool}
    {p : Transformer α (Slot α)} (h : Transformer.plan c causal = .ok p) :
    (p.map Slot.shape).Fits := by
  obtain ⟨⟨_, tokens⟩, ⟨_, positions⟩, blocks, ⟨_, norm⟩, ⟨_, head⟩, rfl, -⟩ :=
    Transformer.planned h
  have table {rows width : Int} {name : String} {e : Embedding (Slot α)}
      (planned : Embedding.plan rows width name = .ok e) :
      e.weight.shape = [rows.toNat, width.toNat] := by
    obtain ⟨weight, made, planned⟩ := ok_of_bind planned
    obtain rfl := Except.ok.inj planned
    exact (Slot.shape_of_ofSizes made).1
  exact
    { tokens := table tokens
      positions := table positions
      blocks := List.forall_mem_map.2 fun b hb =>
        (blocks b hb).elim fun _ => TransformerBlock.fits_of_plan
      norm := LayerNorm.fits_of_plan norm
      head := (Linear.fits_of_plan head).1 }

end Plans

section Arrays

variable [Scalar α] {x : NDArray α} {n d e : Nat}

open Interpretation (arrays)

theorem ok_bind {ε β γ : Type} {p : Except ε β} {x : β} (h : p = .ok x) (f : β → Except ε γ) :
    (p >>= f) = f x := by
  rw [h]
  rfl

theorem arrays_apply {op : Operation α (NDArray α)}
    (check : (op.map NDArray.shape).check = .ok ()) : arrays.apply op = .ok op.value := by
  change ((op.map NDArray.shape).check >>= fun _ => _) = _
  rw [ok_bind check]
  rfl

theorem arrays_add {y : NDArray α} (same : y.shape = x.shape) :
    arrays.apply (.add x y) = .ok (x.addBroadcast y) := by
  refine arrays_apply ?_
  change Operation.checkAdd x.shape y.shape = _
  simp [Operation.checkAdd, same]

theorem addBroadcast_eq_add {y : NDArray α} (same : y.shape = x.shape) :
    x.addBroadcast y = x.add y := by
  rw [NDArray.addBroadcast, if_pos same.symm]

theorem arrays_reshape {s : List Int} (positive : ∀ m ∈ s, 0 < m) (rank : s.length ≤ Shape.maxRank)
    (given : s ≠ []) (size : Shape.size (s.map Int.toNat) = x.size) :
    arrays.apply (.reshape s x) = .ok (x.reshape (s.map Int.toNat)) := by
  refine arrays_apply ?_
  change Operation.checkReshape s x.shape = _
  have checked : Shape.check s = .ok (s.map Int.toNat) :=
    Shape.check_eq_ok.2 ⟨⟨given, rank, positive⟩, rfl⟩
  rw [Operation.checkReshape, ok_bind checked, size]
  simp [NDArray.size]
  rfl

theorem Linear.shape_value {l : Linear (NDArray α)} (fits : (l.map NDArray.shape).Fits d e)
    (rows : x.shape = [n, d]) : (l.value x).shape = [n, e] := by
  have weight : l.weight.shape = [e, d] := fits.weight
  have bias : l.bias.shape = [e] := fits.bias
  have product : (x.matmul l.weight.transpose).shape = [n, e] := by
    simp [NDArray.matmul, NDArray.transpose, NDArray.ofFn, rows, weight, Shape.dim]
  simp [Linear.value, NDArray.addBroadcast, product, bias, NDArray.addRow, NDArray.ofFn]

theorem Linear.call_arrays {l : Linear (NDArray α)} (fits : (l.map NDArray.shape).Fits d e)
    (rows : x.shape = [n, d]) : l.call arrays x = .ok (l.value x) := by
  have weight : l.weight.shape = [e, d] := fits.weight
  have bias : l.bias.shape = [e] := fits.bias
  have turned : arrays.apply (.transpose l.weight) = .ok l.weight.transpose := by
    refine arrays_apply ?_
    change Operation.check (.transpose l.weight.shape) = _
    rw [weight]
    rfl
  have shape : l.weight.transpose.shape = [d, e] := by
    simp [NDArray.transpose, NDArray.ofFn, weight, Shape.dim]
  have multiplied : arrays.apply (.matmul x l.weight.transpose) =
      .ok (x.matmul l.weight.transpose) := by
    refine arrays_apply ?_
    change Operation.checkMatmul x.shape l.weight.transpose.shape = _
    simp [rows, shape, Operation.checkMatmul, Shape.dim]
  have product : (x.matmul l.weight.transpose).shape = [n, e] := by
    simp [NDArray.matmul, NDArray.ofFn, rows, shape, Shape.dim]
  rw [Linear.call, ok_bind turned, ok_bind multiplied]
  refine arrays_apply ?_
  change Operation.checkAdd (x.matmul l.weight.transpose).shape l.bias.shape = _
  simp [product, bias, Operation.checkAdd, Operation.rowFits, Shape.dim]

theorem LayerNorm.shape_value (l : LayerNorm α (NDArray α)) (x : NDArray α) :
    (l.value x).shape = x.shape := rfl

theorem LayerNorm.call_arrays {l : LayerNorm α (NDArray α)} (fits : (l.map NDArray.shape).Fits d)
    (rows : x.shape = [n, d]) : l.call arrays x = .ok (l.value x) := by
  have gamma : l.gamma.shape = [d] := fits.gamma
  have beta : l.beta.shape = [d] := fits.beta
  refine arrays_apply ?_
  change Operation.checkLayerNorm x.shape l.gamma.shape l.beta.shape = _
  simp [rows, gamma, beta, Operation.checkLayerNorm, Shape.last]

theorem FeedForward.shape_value {f : FeedForward (NDArray α)}
    (fits : (f.map NDArray.shape).Fits d) (rows : x.shape = [n, d]) :
    (f.value x).shape = [n, d] := by
  obtain ⟨inner, first, second⟩ := fits
  exact Linear.shape_value second (Linear.shape_value first rows)

theorem FeedForward.call_arrays {f : FeedForward (NDArray α)}
    (fits : (f.map NDArray.shape).Fits d) (rows : x.shape = [n, d]) :
    f.call arrays x = .ok (f.value x) := by
  obtain ⟨inner, first, second⟩ := fits
  have rectified : arrays.apply (.relu (f.first.value x)) = .ok (f.first.value x).relu :=
    arrays_apply rfl
  rw [FeedForward.call, ok_bind (Linear.call_arrays first rows), ok_bind rectified]
  exact Linear.call_arrays second (Linear.shape_value first rows)

namespace MultiHeadAttention

variable {a : MultiHeadAttention α (NDArray α)}

omit [Scalar α] in
theorem Fits.size (fits : (a.map NDArray.shape).Fits d) (n : Nat) :
    Shape.size [n, a.heads.toNat, a.width.toNat] = n * d := by
  have split : a.heads * a.width = a.model := fits.split
  have model : a.model = d := fits.model
  obtain ⟨-, heads, width⟩ : 0 < a.model ∧ 0 < a.heads ∧ 0 < a.width := fits.positive
  have product : a.heads.toNat * a.width.toNat = d := by
    rw [← Int.toNat_mul (Int.le_of_lt heads) (Int.le_of_lt width), split, model]
    rfl
  simp [Shape.size, product]

theorem project_arrays (fits : (a.map NDArray.shape).Fits d) (nonempty : 0 < n)
    {l : Linear (NDArray α)} (fitsLinear : (l.map NDArray.shape).Fits d d)
    (rows : x.shape = [n, d]) :
    a.project arrays (x.shape.dim 0) l x = .ok (a.split l x) := by
  obtain ⟨-, heads, width⟩ : 0 < a.model ∧ 0 < a.heads ∧ 0 < a.width := fits.positive
  rw [MultiHeadAttention.project, ok_bind (Linear.call_arrays fitsLinear rows)]
  have first : x.shape.dim 0 = n := by rw [rows]; rfl
  have positive : ∀ m ∈ [((x.shape.dim 0 : Nat) : Int), a.heads, a.width], 0 < m := by
    rw [first]
    simp only [List.forall_mem_cons]
    exact ⟨by omega, heads, width, List.forall_mem_nil _⟩
  refine arrays_reshape positive (show 3 ≤ 8 by decide) (by simp) ?_
  have whole : (l.value x).size = n * d := by
    rw [NDArray.size, Linear.shape_value fitsLinear rows]
    simp [Shape.size]
  rw [whole, first]
  exact fits.size n

theorem shape_split (a : MultiHeadAttention α (NDArray α)) (l : Linear (NDArray α))
    (rows : x.shape = [n, d]) : (a.split l x).shape = [n, a.heads.toNat, a.width.toNat] := by
  simp [MultiHeadAttention.split, NDArray.reshape, NDArray.ofFn, rows, Shape.dim]

theorem shape_mixed (a : MultiHeadAttention α (NDArray α)) (rows : x.shape = [n, d]) :
    (a.mixed x).shape = [n, a.heads.toNat, a.width.toNat] := by
  simp [MultiHeadAttention.mixed, NDArray.overKeys, NDArray.ofFn, a.shape_split a.values rows,
    Shape.dim]

theorem shape_joined (fits : (a.map NDArray.shape).Fits d) (rows : x.shape = [n, d]) :
    ((a.mixed x).reshape [x.shape.dim 0, a.model.toNat]).shape = [n, d] := by
  have model : a.model = d := fits.model
  simp [NDArray.reshape, NDArray.ofFn, rows, Shape.dim, model]

theorem shape_value (fits : (a.map NDArray.shape).Fits d) (rows : x.shape = [n, d]) :
    (a.value x).shape = [n, d] :=
  Linear.shape_value fits.output (shape_joined fits rows)

theorem call_arrays (fits : (a.map NDArray.shape).Fits d) (nonempty : 0 < n)
    (rows : x.shape = [n, d]) : a.call arrays x = .ok (a.value x) := by
  have found : arrays.shape x = .ok x.shape := rfl
  have query := project_arrays fits nonempty fits.query rows
  have key := project_arrays fits nonempty fits.key rows
  have values := project_arrays fits nonempty fits.values rows
  let scores := NDArray.attentionScores Scalar.negInf a.scale a.causal (a.split a.query x)
    (a.split a.key x)
  have scored : arrays.apply (.attentionScores a.scale a.causal (a.split a.query x)
      (a.split a.key x)) = .ok scores := by
    refine arrays_apply ?_
    change Operation.checkScores (a.split a.query x).shape (a.split a.key x).shape = _
    simp [a.shape_split _ rows, Operation.checkScores]
  have weighted : arrays.apply (.softmax scores) = .ok scores.softmax := arrays_apply rfl
  have shape : scores.softmax.shape = [a.heads.toNat, n, n] := by
    change [(a.split a.query x).shape.dim 1, (a.split a.query x).shape.dim 0,
      (a.split a.query x).shape.dim 0] = _
    rw [a.shape_split _ rows]
    rfl
  have applied : arrays.apply (.attentionApply scores.softmax (a.split a.values x)) =
      .ok (a.mixed x) := by
    refine arrays_apply ?_
    change Operation.checkApply scores.softmax.shape (a.split a.values x).shape = _
    simp [shape, a.shape_split _ rows, Operation.checkApply, Shape.dim]
  have joined : arrays.apply (.reshape [x.shape.dim 0, a.model] (a.mixed x)) =
      .ok ((a.mixed x).reshape [x.shape.dim 0, a.model.toNat]) := by
    have model : a.model = d := fits.model
    have positive : 0 < a.model := fits.positive.1
    refine arrays_reshape ?_ (show 2 ≤ 8 by decide) (by simp) ?_
    · simp only [List.forall_mem_cons, rows]
      exact ⟨by simpa [Shape.dim] using nonempty, positive, List.forall_mem_nil _⟩
    · rw [NDArray.size, a.shape_mixed rows, fits.size n]
      simp [Shape.size, rows, Shape.dim, model]
  rw [MultiHeadAttention.call, ok_bind found, ok_bind query, ok_bind key, ok_bind values,
    ok_bind scored, ok_bind weighted, ok_bind applied, ok_bind joined]
  exact Linear.call_arrays fits.output (shape_joined fits rows)

end MultiHeadAttention

namespace TransformerBlock

variable {b : TransformerBlock α (NDArray α)}

theorem shape_attended (fits : (b.map NDArray.shape).Fits d) (rows : x.shape = [n, d]) :
    (b.attention.value (b.norm₁.value x)).shape = x.shape := by
  rw [MultiHeadAttention.shape_value fits.attention (b.norm₁.shape_value x ▸ rows), rows]

theorem shape_value (fits : (b.map NDArray.shape).Fits d) (rows : x.shape = [n, d]) :
    (b.value x).shape = [n, d] := by
  have first := addBroadcast_eq_add (shape_attended fits rows)
  have shape : (x.addBroadcast (b.attention.value (b.norm₁.value x))).shape = [n, d] := by
    rw [first]
    exact rows
  have normed : (b.norm₂.value (x.addBroadcast (b.attention.value (b.norm₁.value x)))).shape =
      [n, d] := shape
  have inner := FeedForward.shape_value fits.feedForward normed
  rw [TransformerBlock.value, addBroadcast_eq_add (inner.trans shape.symm)]
  exact shape

theorem call_arrays (fits : (b.map NDArray.shape).Fits d) (nonempty : 0 < n)
    (rows : x.shape = [n, d]) : b.call arrays x = .ok (b.value x) := by
  have rows₁ : (b.norm₁.value x).shape = [n, d] := rows
  have attended := arrays_add (shape_attended fits rows)
  have rows₂ : (x.addBroadcast (b.attention.value (b.norm₁.value x))).shape = [n, d] := by
    rw [addBroadcast_eq_add (shape_attended fits rows)]
    exact rows
  have rows₃ : (b.norm₂.value (x.addBroadcast (b.attention.value (b.norm₁.value x)))).shape =
      [n, d] := rows₂
  rw [TransformerBlock.call, ok_bind (LayerNorm.call_arrays fits.norm₁ rows),
    ok_bind (MultiHeadAttention.call_arrays fits.attention nonempty rows₁), ok_bind attended,
    ok_bind (LayerNorm.call_arrays fits.norm₂ rows₂),
    ok_bind (FeedForward.call_arrays fits.feedForward rows₃)]
  exact arrays_add ((FeedForward.shape_value fits.feedForward rows₃).trans rows₂.symm)

theorem all_arrays (nonempty : 0 < n) : ∀ {bs : List (TransformerBlock α (NDArray α))}
    {x : NDArray α},
    (∀ b ∈ bs, (b.map NDArray.shape).Fits d) → x.shape = [n, d] →
      Transformer.runBlocks arrays bs x = .ok (bs.foldl (fun x b => b.value x) x) ∧
        (bs.foldl (fun x b => b.value x) x).shape = [n, d]
  | [], _, _, rows => ⟨rfl, rows⟩
  | b :: bs, x, fits, rows => by
    obtain ⟨first, others⟩ := List.forall_mem_cons.1 fits
    rw [Transformer.runBlocks, ok_bind (call_arrays first nonempty rows)]
    exact all_arrays nonempty others (shape_value first rows)

end TransformerBlock

/-- A sequence the model takes: not empty, not too long, and every token is in the vocabulary. -/
structure TransformerConfig.Takes (c : TransformerConfig) (tokens : List Int) : Prop where
  nonempty : 0 < tokens.length
  length : tokens.length ≤ c.maxSeqLen
  tokens : ∀ i ∈ tokens, 0 ≤ i ∧ i < c.vocabSize

namespace Transformer

variable {t : Transformer α (NDArray α)} {tokens : List Int}

theorem arrays_embedding {table : NDArray α} {m : Int} {indices : List Int}
    (shape : table.shape = [m.toNat, d]) (nonempty : 0 < indices.length)
    (inside : ∀ i ∈ indices, 0 ≤ i ∧ i < m) :
    arrays.apply (.embedding indices table) = .ok (table.gather (indices.map Int.toNat)) := by
  refine arrays_apply ?_
  change Operation.checkEmbedding indices table.shape = _
  have filled : indices.isEmpty = false := by simpa [List.length_pos_iff] using nonempty
  have rows : Shape.dim [m.toNat, d] 0 = m.toNat := rfl
  have found : indices.find? (fun i => i < 0 || (Shape.dim [m.toNat, d] 0 : Int) ≤ i) = none := by
    rw [List.find?_eq_none]
    intro i hi
    have := inside i hi
    simp only [Bool.or_eq_true, decide_eq_true_eq, rows]
    omega
  rw [Operation.checkEmbedding, shape, filled, found]
  rfl

theorem shape_gather {table : NDArray α} {m : Nat} (shape : table.shape = [m, d])
    (indices : List Nat) : (table.gather indices).shape = [indices.length, d] := by
  simp [NDArray.gather, NDArray.ofFn, shape, Shape.dim]

theorem shape_embedded (fits : (t.map NDArray.shape).Fits) (tokens : List Int) :
    (t.embedded tokens).shape = [tokens.length, t.config.dModel.toNat] := by
  have table : t.tokens.weight.shape = [t.config.vocabSize.toNat, t.config.dModel.toNat] :=
    fits.tokens
  have places : t.positions.weight.shape = [t.config.maxSeqLen.toNat, t.config.dModel.toNat] :=
    fits.positions
  rw [Transformer.embedded, addBroadcast_eq_add]
  · change (t.tokens.weight.gather (tokens.map Int.toNat)).shape = _
    simp [shape_gather table]
  · simp [shape_gather table, shape_gather places]

theorem shape_value (fits : (t.map NDArray.shape).Fits) (nonempty : 0 < tokens.length) :
    (t.value tokens).shape = [tokens.length, t.config.vocabSize.toNat] :=
  Linear.shape_value fits.head
    (TransformerBlock.all_arrays nonempty (List.forall_mem_map.1 fits.blocks)
      (shape_embedded fits tokens)).2

theorem logits_arrays (fits : (t.map NDArray.shape).Fits) (takes : t.config.Takes tokens) :
    t.logits arrays tokens = .ok (t.value tokens) := by
  have table : t.tokens.weight.shape = [t.config.vocabSize.toNat, t.config.dModel.toNat] :=
    fits.tokens
  have places : t.positions.weight.shape = [t.config.maxSeqLen.toNat, t.config.dModel.toNat] :=
    fits.positions
  have looked := arrays_embedding table takes.nonempty takes.tokens
  have placed : arrays.apply (.embedding ((List.range tokens.length).map Int.ofNat)
      t.positions.weight) = .ok (t.positions.weight.gather
        (((List.range tokens.length).map Int.ofNat).map Int.toNat)) := by
    refine arrays_embedding places (by simpa using takes.nonempty) fun i hi => ?_
    obtain ⟨r, hr, rfl⟩ := List.mem_map.1 hi
    have below := List.mem_range.1 hr
    have length := takes.length
    simp only [Int.ofNat_eq_natCast]
    omega
  have added : arrays.apply (.add (t.tokens.weight.gather (tokens.map Int.toNat))
      (t.positions.weight.gather (((List.range tokens.length).map Int.ofNat).map Int.toNat))) =
        .ok (t.embedded tokens) :=
    arrays_add (by simp [shape_gather table, shape_gather places])
  obtain ⟨run, rows⟩ := TransformerBlock.all_arrays takes.nonempty
    (List.forall_mem_map.1 fits.blocks) (shape_embedded fits tokens)
  rw [Transformer.logits, Embedding.call, ok_bind looked, Embedding.call, ok_bind placed,
    ok_bind added, ok_bind run, ok_bind (LayerNorm.call_arrays fits.norm rows)]
  exact Linear.call_arrays fits.head rows

end Transformer

end Arrays

end DerivativeEngine
