import DerivativeEngine.Layer.Linear

/-!
Scaled dot-product self-attention with several heads. The columns of the projected queries, keys
and values are split among the heads, in order; scores are masked only in a causal layer.
-/

namespace DerivativeEngine

variable {m : Type → Type} [Monad m] {α μ ν : Type}

structure MultiHeadAttention (α ν : Type) where
  model : Int
  heads : Int
  /-- Columns of a head. -/
  width : Int
  scale : α
  causal : Bool
  query : Linear ν
  key : Linear ν
  values : Linear ν
  output : Linear ν

namespace MultiHeadAttention

def plan [Scalar α] (model heads : Int) (causal : Bool) (name : String) :
    Except TensorError (MultiHeadAttention α (Slot α)) := do
  if heads ≤ 0 || model % heads != 0 then throw (.shape (.heads model heads))
  let width := model / heads
  let root : α ← Slot.root (Scalar.ofInt width)
  if width == 0 then throw (.fault .divisionByZero)
  return ⟨model, heads, width, 1 / root, causal, ← Linear.plan model model (name ++ ".q_proj"),
    ← Linear.plan model model (name ++ ".k_proj"), ← Linear.plan model model (name ++ ".v_proj"),
    ← Linear.plan model model (name ++ ".out_proj")⟩

def parameters (a : MultiHeadAttention α ν) : List ν :=
  a.query.parameters ++ a.key.parameters ++ a.values.parameters ++ a.output.parameters

def mapM (f : μ → m ν) (a : MultiHeadAttention α μ) : m (MultiHeadAttention α ν) :=
  return ⟨a.model, a.heads, a.width, a.scale, a.causal, ← a.query.mapM f, ← a.key.mapM f,
    ← a.values.mapM f, ← a.output.mapM f⟩

/-- A projection with its columns split among the heads. -/
def project (i : Interpretation m α ν) (a : MultiHeadAttention α ν) (rows : Nat) (l : Linear ν)
    (x : ν) : m ν := do
  let y ← l.call i x
  i.apply (.reshape [rows, a.heads, a.width] y)

def call (i : Interpretation m α ν) (a : MultiHeadAttention α ν) (x : ν) : m ν := do
  let rows := (← i.shape x).dim 0
  let q ← a.project i rows a.query x
  let k ← a.project i rows a.key x
  let v ← a.project i rows a.values x
  let scores ← i.apply (.attentionScores a.scale a.causal q k)
  let weights ← i.apply (.softmax scores)
  let mixed ← i.apply (.attentionApply weights v)
  let joined ← i.apply (.reshape [rows, a.model] mixed)
  a.output.call i joined

end MultiHeadAttention

end DerivativeEngine
