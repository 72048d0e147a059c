import DerivativeEngine.Tape.Operation
import DerivativeEngine.Layer.Slot

/-!
The simple layers: affine maps, tables of rows, normalisation and the feed-forward pair. A layer
is a record of its parameters, of any type: slots when it is planned, variables when it is
trained, arrays when it is only a function.
-/

namespace DerivativeEngine

variable {m : Type → Type} [Monad m] {α μ ν : Type}

/-- `x Wᵀ + b`, with `W` of shape `(out, in)`. -/
structure Linear (ν : Type) where
  weight : ν
  bias : ν

namespace Linear

def plan [Scalar α] (inputs outputs : Int) (name : String) :
    Except TensorError (Linear (Slot α)) := do
  let deviation ← Slot.root (← Slot.quotient 2.0 inputs)
  let weight ← Slot.ofSizes (name ++ ".weight") [outputs, inputs] (.normal deviation)
  let bias ← Slot.ofSizes (name ++ ".bias") [outputs] .zeros
  return ⟨weight, bias⟩

def parameters (l : Linear ν) : List ν := [l.weight, l.bias]

def mapM (f : μ → m ν) (l : Linear μ) : m (Linear ν) :=
  return ⟨← f l.weight, ← f l.bias⟩

def call (i : Interpretation m α ν) (l : Linear ν) (x : ν) : m ν := do
  let w ← i.apply (.transpose l.weight)
  let y ← i.apply (.matmul x w)
  i.apply (.add y l.bias)

end Linear

/-- A row for each index. -/
structure Embedding (ν : Type) where
  weight : ν

namespace Embedding

def deviation [Scalar α] : α := 0.01

def plan [Scalar α] (rows width : Int) (name : String) : Except TensorError (Embedding (Slot α)) :=
  return ⟨← Slot.ofSizes (name ++ ".weight") [rows, width] (.normal deviation)⟩

def parameters (e : Embedding ν) : List ν := [e.weight]

def mapM (f : μ → m ν) (e : Embedding μ) : m (Embedding ν) := return ⟨← f e.weight⟩

def call (i : Interpretation m α ν) (e : Embedding ν) (indices : List Int) : m ν :=
  i.apply (.embedding indices e.weight)

end Embedding

/-- Normalisation of each row, with a learnt gain and shift. -/
structure LayerNorm (α ν : Type) where
  eps : α
  gamma : ν
  beta : ν

namespace LayerNorm

def defaultEps [Scalar α] : α := 1e-5

def plan [Scalar α] (width : Int) (eps : α) (name : String) :
    Except TensorError (LayerNorm α (Slot α)) :=
  return ⟨eps, ← Slot.ofSizes (name ++ ".gamma") [width] .ones,
    ← Slot.ofSizes (name ++ ".beta") [width] .zeros⟩

def parameters (l : LayerNorm α ν) : List ν := [l.gamma, l.beta]

def mapM (f : μ → m ν) (l : LayerNorm α μ) : m (LayerNorm α ν) :=
  return ⟨l.eps, ← f l.gamma, ← f l.beta⟩

def call (i : Interpretation m α ν) (l : LayerNorm α ν) (x : ν) : m ν :=
  i.apply (.layerNorm l.eps x l.gamma l.beta)

end LayerNorm

/-- Two affine maps with a rectifier between them. -/
structure FeedForward (ν : Type) where
  first : Linear ν
  second : Linear ν

namespace FeedForward

def plan [Scalar α] (width inner : Int) (name : String) :
    Except TensorError (FeedForward (Slot α)) :=
  return ⟨← Linear.plan width inner (name ++ ".fc1"), ← Linear.plan inner width (name ++ ".fc2")⟩

def parameters (f : FeedForward ν) : List ν := f.first.parameters ++ f.second.parameters

def mapM (f : μ → m ν) (l : FeedForward μ) : m (FeedForward ν) :=
  return ⟨← l.first.mapM f, ← l.second.mapM f⟩

def call (i : Interpretation m α ν) (f : FeedForward ν) (x : ν) : m ν := do
  let y ← f.first.call i x
  let z ← i.apply (.relu y)
  f.second.call i z

end FeedForward

end DerivativeEngine
