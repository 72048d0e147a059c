import DerivativeEngine.Layer.Transformer

/-!
Layers of every kind as one type. Those with a table are called on tokens, the others on a value.
-/

namespace DerivativeEngine

inductive Layer (α ν : Type) where
  | linear (l : Linear ν)
  | embedding (e : Embedding ν)
  | norm (l : LayerNorm α ν)
  | attention (a : MultiHeadAttention α ν)
  | feedForward (f : FeedForward ν)
  | block (b : TransformerBlock α ν)
  | transformer (t : Transformer α ν)

inductive LayerInput (ν : Type) where
  | value (x : ν)
  | tokens (ts : List Int)

namespace Layer

variable {m : Type → Type} [Monad m] {α μ ν : Type}

def parameters : Layer α ν → List ν
  | linear l => l.parameters
  | embedding e => e.parameters
  | norm l => l.parameters
  | attention a => a.parameters
  | feedForward f => f.parameters
  | block b => b.parameters
  | transformer t => t.parameters

def mapM (f : μ → m ν) : Layer α μ → m (Layer α ν)
  | linear l => linear <$> l.mapM f
  | embedding e => embedding <$> e.mapM f
  | norm l => norm <$> l.mapM f
  | attention a => attention <$> a.mapM f
  | feedForward l => feedForward <$> l.mapM f
  | block b => block <$> b.mapM f
  | transformer t => transformer <$> t.mapM f

def transformer? : Layer α ν → Option (Transformer α ν)
  | transformer t => some t
  | _ => none

/-- None for an input of the wrong kind. A transformer takes sequences of a right length. -/
def call? (i : Interpretation m α ν) : Layer α ν → LayerInput ν → Option (m ν)
  | linear l, .value x => some (l.call i x)
  | embedding e, .tokens ts => some (e.call i ts)
  | norm l, .value x => some (l.call i x)
  | attention a, .value x => some (a.call i x)
  | feedForward f, .value x => some (f.call i x)
  | block b, .value x => some (b.call i x)
  | transformer t, .tokens ts => some (t.logits i ts)
  | _, _ => none

end Layer

end DerivativeEngine
