import DerivativeEngine.Layer.Basic

/-!
Kinds of layers by name, with the arguments each is made from in their order. The last one is the
name that the parameters' own names start with.
-/

namespace DerivativeEngine

inductive LayerKind where
  | linear | embedding | norm | attention | feedForward | block
  deriving DecidableEq, Repr

namespace LayerKind

def all : List LayerKind := [linear, embedding, norm, attention, feedForward, block]

def name : LayerKind → String
  | linear => "Linear"
  | embedding => "Embedding"
  | norm => "LayerNorm"
  | attention => "MultiHeadAttention"
  | feedForward => "FeedForward"
  | block => "TransformerBlock"

def ofName? (name : String) : Option LayerKind := all.find? fun k => k.name == name

def arguments : LayerKind → List String
  | linear => ["in_features", "out_features", "name"]
  | embedding => ["vocab_size", "dim", "name"]
  | norm => ["dim", "eps", "name"]
  | attention => ["d_model", "n_heads", "causal", "name"]
  | feedForward => ["d_model", "d_ff", "name"]
  | block => ["d_model", "n_heads", "d_ff", "causal", "name"]

def usualName : LayerKind → String
  | linear => "linear"
  | embedding => "embedding"
  | norm => "ln"
  | attention => "attn"
  | feedForward => "ff"
  | block => "block"

/-- A layer of this kind, of sizes that are looked up by the names of the arguments. -/
def plan {α : Type} [Scalar α] (k : LayerKind) (size : String → Int) (eps : α) (causal : Bool)
    (name : String) : Except TensorError (Layer α (Slot α)) :=
  match k with
  | linear => .linear <$> Linear.plan (size "in_features") (size "out_features") name
  | embedding => .embedding <$> Embedding.plan (size "vocab_size") (size "dim") name
  | norm => .norm <$> LayerNorm.plan (size "dim") eps name
  | attention =>
    .attention <$> MultiHeadAttention.plan (size "d_model") (size "n_heads") causal name
  | feedForward => .feedForward <$> FeedForward.plan (size "d_model") (size "d_ff") name
  | block =>
    .block <$> TransformerBlock.plan (size "d_model") (size "n_heads") (size "d_ff") causal name

end LayerKind

end DerivativeEngine
