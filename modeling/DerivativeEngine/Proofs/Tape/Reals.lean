import DerivativeEngine.Proofs.Tape.Contributions
import DerivativeEngine.Proofs.Tensor.RealArrays

/-! Operations on real numbers. Where operands, and the numbers that belong to the operation, are
real numbers, so is the result; and so is what is sent for a gradient of real numbers. -/

namespace DerivativeEngine.Operation

variable {ν : Type} {op : Operation EReal ν} {values now : ν → NDArray EReal} {shape : ν → Shape}
  {g : NDArray EReal}

theorem allReal_result (simple : op.Simple IsReal)
    (real : ∀ v ∈ op.operands, (values v).AllReal) : (op.result values).AllReal := by
  cases op with
  | add a b =>
    exact (real a (by simp [operands])).addBroadcast (real b (by simp [operands]))
  | multiply a b => exact (real a (by simp [operands])).mul (real b (by simp [operands]))
  | matmul a b => exact (real a (by simp [operands])).matmul (real b (by simp [operands]))
  | attentionApply a b =>
    exact (real a (by simp [operands])).overKeys (real b (by simp [operands]))
  | scale c x => exact (real x (by simp [operands])).scale simple
  | transpose x => exact (real x (by simp [operands])).transpose
  | reshape s x => exact (real x (by simp [operands])).reshape _
  | relu x => exact (real x (by simp [operands])).relu
  | softmax x => exact (real x (by simp [operands])).softmax
  | embedding is x => exact (real x (by simp [operands])).gather _
  | layerNorm eps x gamma beta =>
    exact .layerNorm simple (real x (by simp [operands])) (real gamma (by simp [operands]))
      (real beta (by simp [operands]))
  | attentionScores c causal a b => exact simple.elim
  | crossEntropy ts x | mse target x => exact simple.elim

theorem allReal_of_mem_sent (simple : op.Simple IsReal)
    (real : ∀ v ∈ op.operands, (values v).AllReal) (still : ∀ v ∈ op.operands, (now v).AllReal)
    (hg : g.AllReal) :
    ∀ p ∈ op.sent shape ((op.map values).saved (op.result values)) now g, p.2.AllReal := by
  have one {v : ν} {x : NDArray EReal} (hx : x.AllReal) : ∀ p ∈ [(v, x)], p.2.AllReal :=
    List.forall_mem_singleton.2 hx
  have two {v u : ν} {x y : NDArray EReal} (hx : x.AllReal) (hy : y.AllReal) :
      ∀ p ∈ [(v, x), (u, y)], p.2.AllReal := List.forall_mem_cons.2 ⟨hx, one hy⟩
  cases op with
  | add a b => exact two (hg.addReverse _) (hg.addReverse _)
  | multiply a b =>
    exact two (hg.mul (real b (by simp [operands]))) (hg.mul (real a (by simp [operands])))
  | matmul a b =>
    exact two (hg.matmul (real b (by simp [operands])).transpose)
      ((real a (by simp [operands])).transpose.matmul hg)
  | attentionApply a b =>
    exact two (hg.overWidth (real b (by simp [operands])))
      ((real a (by simp [operands])).overQueries hg)
  | scale c x => exact one (hg.scale simple)
  | transpose x => exact one hg.transpose
  | reshape s x => exact one (hg.reshape _)
  | relu x => exact one (hg.reluReverse _)
  | softmax x => exact one ((real x (by simp [operands])).softmax.softmaxReverse hg)
  | embedding is x => exact one (hg.scatter _ _)
  | layerNorm eps x gamma beta =>
    have hx := real x (by simp [operands])
    exact List.forall_mem_cons.2 ⟨.layerNormGain simple hx hx.rowMeans hx.rowVariances hg,
      two hg.sumRows (.layerNormInput simple hx hx.rowMeans hx.rowVariances
        (still gamma (by simp [operands])) hg)⟩
  | attentionScores c causal a b => exact simple.elim
  | crossEntropy ts x | mse target x => exact simple.elim

end DerivativeEngine.Operation
