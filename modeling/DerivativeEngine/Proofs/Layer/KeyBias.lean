import DerivativeEngine.Proofs.Layer.Attention

/-! The bias of the keys. In a model of real numbers the keys of every block can be moved by any
bias: attention does not notice, and so neither do the blocks that follow, nor the logits. -/

namespace DerivativeEngine

variable {α μ ν : Type}

def MultiHeadAttention.others (a : MultiHeadAttention α ν) : List ν :=
  a.query.parameters ++ [a.key.weight] ++ a.values.parameters ++ a.output.parameters

theorem MultiHeadAttention.perm_parameters (a : MultiHeadAttention α ν) :
    a.parameters.Perm (a.key.bias :: a.others) := by
  change ([a.query.weight, a.query.bias, a.key.weight] ++
    a.key.bias :: (a.values.parameters ++ a.output.parameters)).Perm _
  exact List.perm_middle

namespace TransformerBlock

def others (b : TransformerBlock α ν) : List ν :=
  b.norm₁.parameters ++ b.norm₂.parameters ++ b.attention.others ++ b.feedForward.parameters

theorem perm_parameters (b : TransformerBlock α ν) :
    b.parameters.Perm (b.attention.key.bias :: b.others) := by
  have inner : (b.norm₁.parameters ++ b.norm₂.parameters ++ b.attention.parameters).Perm
      (b.attention.key.bias :: (b.norm₁.parameters ++ b.norm₂.parameters ++ b.attention.others)) :=
    (b.attention.perm_parameters.append_left _).trans List.perm_middle
  exact inner.append_right _

def withKeyBias (b : TransformerBlock α ν) (bias : ν) : TransformerBlock α ν :=
  { b with attention := { b.attention with key := { b.attention.key with bias } } }

theorem map_eq_withKeyBias {b : TransformerBlock α μ} {f f' : μ → ν}
    (same : ∀ u ∈ b.others, f' u = f u) :
    b.map f' = (b.map f).withKeyBias (f' b.attention.key.bias) := by
  simp only [others, MultiHeadAttention.others, LayerNorm.parameters, Linear.parameters,
    FeedForward.parameters, List.forall_mem_append, List.forall_mem_cons] at same
  simp only [map, withKeyBias, LayerNorm.map, MultiHeadAttention.map, Linear.map, FeedForward.map,
    same]

end TransformerBlock

namespace Transformer

def keyBiases (t : Transformer α ν) : List ν := t.blocks.map fun b => b.attention.key.bias

def others (t : Transformer α ν) : List ν :=
  t.tokens.parameters ++ t.positions.parameters ++ t.blocks.flatMap TransformerBlock.others ++
    t.norm.parameters ++ t.head.parameters

theorem perm_parameters (t : Transformer α ν) :
    t.parameters.Perm (t.keyBiases ++ t.others) := by
  have blocks : (t.blocks.flatMap TransformerBlock.parameters).Perm
      (t.keyBiases ++ t.blocks.flatMap TransformerBlock.others) := by
    have each := List.Perm.flatMap_left t.blocks fun b _ => b.perm_parameters
    refine each.trans ?_
    rw [keyBiases, List.map_eq_flatMap]
    exact (List.flatMap_append_perm t.blocks (fun b => [b.attention.key.bias]) _).symm
  have front : (t.tokens.parameters ++ t.positions.parameters ++
      t.blocks.flatMap TransformerBlock.parameters).Perm (t.keyBiases ++
        (t.tokens.parameters ++ t.positions.parameters ++
          t.blocks.flatMap TransformerBlock.others)) := by
    refine (blocks.append_left _).trans ?_
    rw [← List.append_assoc, ← List.append_assoc]
    exact List.perm_append_comm.append_right _
  simpa only [Transformer.parameters, others, List.append_assoc] using
    (front.append_right t.norm.parameters).append_right t.head.parameters

theorem mem_parameters_of_keyBias {t : Transformer α ν} {u : ν} (hu : u ∈ t.keyBiases) :
    u ∈ t.parameters :=
  t.perm_parameters.mem_iff.2 (List.mem_append_left _ hu)

theorem mem_parameters_of_other {t : Transformer α ν} {u : ν} (hu : u ∈ t.others) :
    u ∈ t.parameters :=
  t.perm_parameters.mem_iff.2 (List.mem_append_right _ hu)

theorem mem_others_of_block {t : Transformer α ν} {b : TransformerBlock α ν} (hb : b ∈ t.blocks)
    {u : ν} (hu : u ∈ b.others) : u ∈ t.others := by
  simp only [others, List.mem_append]
  exact .inl (.inl (.inr (List.mem_flatMap_of_mem hb hu)))

theorem mem_keyBiases {t : Transformer α ν} {b : TransformerBlock α ν} (hb : b ∈ t.blocks) :
    b.attention.key.bias ∈ t.keyBiases :=
  List.mem_map_of_mem (f := fun b : TransformerBlock α ν => b.attention.key.bias) hb

end Transformer

structure TransformerBlock.Regular (b : TransformerBlock EReal ν) : Prop where
  eps : IsReal b.norm₁.eps ∧ IsReal b.norm₂.eps
  sized : ∃ heads width, b.attention.Sized heads width

structure Transformer.Regular (t : Transformer EReal ν) : Prop where
  blocks : ∀ b ∈ t.blocks, b.Regular
  eps : IsReal t.norm.eps

theorem MultiHeadAttention.Sized.isReal_scale {a : MultiHeadAttention EReal ν} {heads width : ℕ}
    (h : a.Sized heads width) : IsReal a.scale := by
  rw [h.scale]
  exact IsReal.one.div (IsReal.ofNat width).sqrt

theorem MultiHeadAttention.exists_sized {model heads : ℤ} {causal : Bool} {name : String}
    {p : MultiHeadAttention EReal (Slot EReal)}
    (plan : MultiHeadAttention.plan model heads causal name = .ok p) :
    ∃ m n, p.Sized m n := by
  obtain ⟨given, width, rfl⟩ := (MultiHeadAttention.planned plan).divides
  have positive : 0 < heads * width := by
    have planned := MultiHeadAttention.planned plan
    exact planned.model ▸ (MultiHeadAttention.fits_of_plan plan).positive.1
  have wide : 0 < width := (mul_pos_iff_of_pos_left given).1 positive
  lift heads to ℕ using given.le
  lift width to ℕ using wide.le
  rw [← Nat.cast_mul] at plan
  exact ⟨heads, width, (sized_of_plan plan).1⟩

theorem LayerNorm.isReal_eps {width : ℤ} {name : String} {l : LayerNorm EReal (Slot EReal)}
    (plan : LayerNorm.plan width LayerNorm.defaultEps name = .ok l) : IsReal l.eps := by
  obtain ⟨gamma, -, plan⟩ := Operation.ok_of_bind plan
  obtain ⟨beta, -, plan⟩ := Operation.ok_of_bind plan
  obtain rfl := Except.ok.inj plan
  exact .ofScientific _ _ _

theorem TransformerBlock.regular_of_plan {model heads inner : ℤ} {causal : Bool} {name : String}
    {b : TransformerBlock EReal (Slot EReal)}
    (plan : TransformerBlock.plan model heads inner causal name = .ok b) : b.Regular := by
  obtain ⟨norm₁, first, plan⟩ := Operation.ok_of_bind plan
  obtain ⟨attention, second, plan⟩ := Operation.ok_of_bind plan
  obtain ⟨norm₂, third, plan⟩ := Operation.ok_of_bind plan
  obtain ⟨feedForward, -, plan⟩ := Operation.ok_of_bind plan
  obtain rfl := Except.ok.inj plan
  exact ⟨⟨LayerNorm.isReal_eps first, LayerNorm.isReal_eps third⟩,
    MultiHeadAttention.exists_sized second⟩

theorem Transformer.regular_of_plan {c : TransformerConfig} {causal : Bool}
    {p : Transformer EReal (Slot EReal)} (plan : Transformer.plan c causal = .ok p)
    {t : Transformer EReal ν} (frame : t.frame = p.frame) : t.Regular := by
  have planned := Transformer.planned plan
  have blocks : ∀ b ∈ p.frame.blocks, b.Regular := by
    refine List.forall_mem_map.2 fun b hb => ?_
    obtain ⟨name, plan⟩ := planned.blocks b hb
    obtain ⟨eps, heads, width, sized⟩ := TransformerBlock.regular_of_plan plan
    exact ⟨eps, heads, width, sized.of_frame rfl⟩
  rw [← frame] at blocks
  refine ⟨fun b hb => ?_, ?_⟩
  · obtain ⟨eps, heads, width, sized⟩ := blocks _ (List.mem_map_of_mem hb)
    exact ⟨eps, heads, width, sized.model, sized.heads, sized.width, sized.scale⟩
  · have eps : IsReal p.frame.norm.eps := planned.norm.elim fun _ => LayerNorm.isReal_eps
    rw [← frame] at eps
    exact eps

section Values

variable {x : NDArray EReal} {n d e : ℕ}

theorem Linear.allReal_value {l : Linear (NDArray EReal)} (real : ∀ u ∈ l.parameters, u.AllReal)
    (hx : x.AllReal) : (l.value x).AllReal := by
  have weight := real l.weight (by simp [Linear.parameters])
  have bias := real l.bias (by simp [Linear.parameters])
  exact (hx.matmul weight.transpose).addBroadcast bias

theorem LayerNorm.allReal_value {l : LayerNorm EReal (NDArray EReal)} (eps : IsReal l.eps)
    (real : ∀ u ∈ l.parameters, u.AllReal) (hx : x.AllReal) : (l.value x).AllReal := by
  exact .layerNorm eps hx (real l.gamma (by simp [LayerNorm.parameters]))
    (real l.beta (by simp [LayerNorm.parameters]))

theorem FeedForward.allReal_value {l : FeedForward (NDArray EReal)}
    (real : ∀ u ∈ l.parameters, u.AllReal) (hx : x.AllReal) : (l.value x).AllReal := by
  obtain ⟨first, second⟩ := List.forall_mem_append.1 real
  exact Linear.allReal_value second (Linear.allReal_value first hx).relu

theorem Linear.exists_isAffine {l : Linear (NDArray EReal)} (fits : (l.map NDArray.shape).Fits d e)
    (real : ∀ u ∈ l.parameters, u.AllReal) : ∃ A : Affine d e, l.IsAffine A := by
  have weight := real l.weight (by simp [Linear.parameters])
  have bias := real l.bias (by simp [Linear.parameters])
  obtain ⟨M, hM⟩ := weight.exists_isMatrix fits.weight
  obtain ⟨v, hv⟩ := bias.exists_isRow fits.bias
  exact ⟨⟨M, v⟩, hM, hv⟩

theorem MultiHeadAttention.value_key_bias {a : MultiHeadAttention EReal (NDArray EReal)}
    {heads width : ℕ} (sized : a.Sized heads width) (fits : (a.map NDArray.shape).Fits d)
    (real : ∀ u ∈ a.parameters, u.AllReal) {bias : NDArray EReal} (other : bias.AllReal)
    (shape : bias.shape = [d]) (hx : x.AllReal) (rows : x.shape = [n, d]) :
    ({ a with key := { a.key with bias } } : MultiHeadAttention EReal (NDArray EReal)).value x =
        a.value x ∧ (a.value x).AllReal := by
  obtain ⟨real, output⟩ := List.forall_mem_append.1 real
  obtain ⟨real, values⟩ := List.forall_mem_append.1 real
  obtain ⟨query, key⟩ := List.forall_mem_append.1 real
  obtain rfl : d = heads * width := by
    have columns : a.model = d := fits.model
    rw [sized.model] at columns
    exact (Int.ofNat_inj.1 columns).symm
  obtain ⟨Q, hq⟩ := Linear.exists_isAffine fits.query query
  obtain ⟨K, hk⟩ := Linear.exists_isAffine fits.key key
  obtain ⟨V, hv⟩ := Linear.exists_isAffine fits.values values
  obtain ⟨O, ho⟩ := Linear.exists_isAffine fits.output output
  obtain ⟨X, hX⟩ := hx.exists_isMatrix rows
  obtain ⟨b, hb⟩ := other.exists_isRow shape
  have moved : ({ a.key with bias } : Linear (NDArray EReal)).IsAffine { K with bias := b } :=
    ⟨hk.weight, hb⟩
  have here := sized.value hq hk hv ho hX
  have there := MultiHeadAttention.Sized.value (a := { a with key := { a.key with bias } })
    ⟨sized.model, sized.heads, sized.width, sized.scale⟩ hq moved hv ho hX
  rw [multiHead_key_bias] at there
  exact ⟨there.unique here, here.allReal⟩

theorem TransformerBlock.value_withKeyBias {b : TransformerBlock EReal (NDArray EReal)}
    (regular : b.Regular) (fits : (b.map NDArray.shape).Fits d)
    (real : ∀ u ∈ b.parameters, u.AllReal) {bias : NDArray EReal} (other : bias.AllReal)
    (shape : bias.shape = [d]) (hx : x.AllReal) (rows : x.shape = [n, d]) :
    (b.withKeyBias bias).value x = b.value x ∧ (b.value x).AllReal := by
  obtain ⟨real, feedForward⟩ := List.forall_mem_append.1 real
  obtain ⟨real, attention⟩ := List.forall_mem_append.1 real
  obtain ⟨norm₁, norm₂⟩ := List.forall_mem_append.1 real
  obtain ⟨⟨eps₁, eps₂⟩, heads, width, sized⟩ := regular
  have normed := LayerNorm.allReal_value eps₁ norm₁ hx
  have rows' : (b.norm₁.value x).shape = [n, d] := rows
  obtain ⟨same, attended⟩ := MultiHeadAttention.value_key_bias sized fits.attention attention other
    shape normed rows'
  have middle := hx.addBroadcast attended
  refine ⟨?_, middle.addBroadcast (FeedForward.allReal_value feedForward
    (LayerNorm.allReal_value eps₂ norm₂ middle))⟩
  rw [TransformerBlock.value, TransformerBlock.value]
  change (x.addBroadcast (({ b.attention with key := { b.attention.key with bias } } :
    MultiHeadAttention EReal (NDArray EReal)).value (b.norm₁.value x))).addBroadcast
      (b.feedForward.value (b.norm₂.value (x.addBroadcast
        (({ b.attention with key := { b.attention.key with bias } } :
          MultiHeadAttention EReal (NDArray EReal)).value (b.norm₁.value x))))) = _
  rw [same]

variable {f f' : ν → NDArray EReal}

theorem TransformerBlock.foldl_key_bias : ∀ {bs : List (TransformerBlock EReal ν)}
    {x : NDArray EReal}, (∀ b ∈ bs, b.Regular) →
      (∀ b ∈ bs, ((b.map f).map NDArray.shape).Fits d) →
      (∀ b ∈ bs, ∀ u ∈ b.parameters, (f u).AllReal) →
      (∀ b ∈ bs, ∀ u ∈ b.others, f' u = f u) →
      (∀ b ∈ bs, (f' b.attention.key.bias).AllReal ∧ (f' b.attention.key.bias).shape = [d]) →
      x.AllReal → x.shape = [n, d] →
        (bs.map (TransformerBlock.map f')).foldl (fun x b => b.value x) x =
          (bs.map (TransformerBlock.map f)).foldl (fun x b => b.value x) x
  -- What comes out of one block goes into the next.
  | [], _, _, _, _, _, _, _, _ => rfl
  | b :: bs, x, regular, fits, real, same, biases, hx, rows => by
    obtain ⟨regular, regulars⟩ := List.forall_mem_cons.1 regular
    obtain ⟨here, fits⟩ := List.forall_mem_cons.1 fits
    obtain ⟨real, reals⟩ := List.forall_mem_cons.1 real
    obtain ⟨same, sames⟩ := List.forall_mem_cons.1 same
    obtain ⟨⟨bias, shape⟩, biases⟩ := List.forall_mem_cons.1 biases
    have regular' : (b.map f).Regular :=
      ⟨regular.eps, regular.sized.imp fun _ => Exists.imp fun _ h => h.of_frame rfl⟩
    have real' : ∀ u ∈ (b.map f).parameters, u.AllReal := by
      rw [TransformerBlock.parameters_map]
      exact List.forall_mem_map.2 real
    obtain ⟨equal, next⟩ :=
      TransformerBlock.value_withKeyBias regular' here real' bias shape hx rows
    rw [List.map_cons, List.map_cons, List.foldl_cons, List.foldl_cons,
      TransformerBlock.map_eq_withKeyBias same, equal]
    exact foldl_key_bias regulars fits reals sames biases next
      (TransformerBlock.shape_value here rows)

theorem Transformer.value_key_biases {t : Transformer EReal ν} (regular : t.Regular)
    (fits : ((t.map f).map NDArray.shape).Fits) (real : ∀ u ∈ t.parameters, (f u).AllReal)
    (same : ∀ u ∈ t.others, f' u = f u)
    (biases : ∀ u ∈ t.keyBiases, (f' u).AllReal ∧ (f' u).shape = (f u).shape) (tokens : List ℤ) :
    (t.map f').value tokens = (t.map f).value tokens := by
  have fit : ∀ b ∈ t.blocks, ((b.map f).map NDArray.shape).Fits t.config.dModel.toNat :=
    List.forall_mem_map.1 (List.forall_mem_map.1 fits.blocks)
  have inside : ∀ b ∈ t.blocks, ∀ u ∈ b.parameters, u ∈ t.parameters := by
    intro b hb u hu
    simp only [Transformer.parameters, List.mem_append]
    exact .inl (.inl (.inr (List.mem_flatMap_of_mem hb hu)))
  have shapes : ∀ b ∈ t.blocks, (f' b.attention.key.bias).AllReal ∧
      (f' b.attention.key.bias).shape = [t.config.dModel.toNat] := fun b hb =>
    (biases _ (mem_keyBiases hb)).imp_right fun shape => shape.trans (fit b hb).attention.key.bias
  have sames : ∀ b ∈ t.blocks, ∀ u ∈ b.others, f' u = f u := fun b hb u hu =>
    same u (mem_others_of_block hb hu)
  have table := real t.tokens.weight (by simp [Transformer.parameters, Embedding.parameters])
  have places := real t.positions.weight (by simp [Transformer.parameters, Embedding.parameters])
  have embedded : ((t.map f).embedded tokens).AllReal :=
    (table.gather _).addBroadcast (places.gather _)
  have run := TransformerBlock.foldl_key_bias regular.blocks fit
    (fun b hb u hu => real u (inside b hb u hu)) sames shapes embedded (shape_embedded fits tokens)
  have parts : t.map f' = { t.map f with blocks := t.blocks.map (TransformerBlock.map f') } := by
    simp only [others, List.forall_mem_append, Embedding.parameters, LayerNorm.parameters,
      Linear.parameters, List.forall_mem_cons] at same
    simp only [map, Embedding.map, LayerNorm.map, Linear.map, same]
  rw [parts, value, value]
  exact congrArg (fun x => (t.head.map f).value ((t.norm.map f).value x)) run

end Values

end DerivativeEngine
