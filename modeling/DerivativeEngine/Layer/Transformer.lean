import DerivativeEngine.Layer.Attention
import DerivativeEngine.Layer.Config

/-!
The language model: embeddings of tokens and positions, blocks of attention and feed-forward
layers, each behind a normalisation and beside a residual path, a last normalisation, and the
logits.
-/

namespace DerivativeEngine

variable {m : Type → Type} [Monad m] {α μ ν : Type}

structure TransformerBlock (α ν : Type) where
  norm₁ : LayerNorm α ν
  attention : MultiHeadAttention α ν
  norm₂ : LayerNorm α ν
  feedForward : FeedForward ν

namespace TransformerBlock

def plan [Scalar α] (model heads inner : Int) (causal : Bool) (name : String) :
    Except TensorError (TransformerBlock α (Slot α)) :=
  return ⟨← LayerNorm.plan model LayerNorm.defaultEps (name ++ ".ln1"),
    ← MultiHeadAttention.plan model heads causal (name ++ ".attn"),
    ← LayerNorm.plan model LayerNorm.defaultEps (name ++ ".ln2"),
    ← FeedForward.plan model inner (name ++ ".ff")⟩

def parameters (b : TransformerBlock α ν) : List ν :=
  b.norm₁.parameters ++ b.norm₂.parameters ++ b.attention.parameters ++ b.feedForward.parameters

def mapM (f : μ → m ν) (b : TransformerBlock α μ) : m (TransformerBlock α ν) :=
  return ⟨← b.norm₁.mapM f, ← b.attention.mapM f, ← b.norm₂.mapM f, ← b.feedForward.mapM f⟩

/-- `x + attention (norm x)`, and then the same with the feed-forward layer. -/
def call (i : Interpretation m α ν) (b : TransformerBlock α ν) (x : ν) : m ν := do
  let n ← b.norm₁.call i x
  let a ← b.attention.call i n
  let y ← i.apply (.add x a)
  let n ← b.norm₂.call i y
  let f ← b.feedForward.call i n
  i.apply (.add y f)

end TransformerBlock

structure Transformer (α ν : Type) where
  config : TransformerConfig
  tokens : Embedding ν
  positions : Embedding ν
  blocks : List (TransformerBlock α ν)
  norm : LayerNorm α ν
  head : Linear ν

namespace Transformer

def plan [Scalar α] (c : TransformerConfig) (causal : Bool) :
    Except TensorError (Transformer α (Slot α)) := do
  let tokens ← Embedding.plan c.vocabSize c.dModel "token_embed"
  let positions ← Embedding.plan c.maxSeqLen c.dModel "pos_embed"
  let blocks ← (List.range c.nLayers.toNat).mapM fun i =>
    TransformerBlock.plan c.dModel c.nHeads c.dFf causal s!"blocks.{i}"
  let norm ← LayerNorm.plan c.dModel LayerNorm.defaultEps "ln_final"
  let head ← Linear.plan c.dModel c.vocabSize "lm_head"
  return ⟨c, tokens, positions, blocks, norm, head⟩

def parameters (t : Transformer α ν) : List ν :=
  t.tokens.parameters ++ t.positions.parameters ++ t.blocks.flatMap TransformerBlock.parameters ++
    t.norm.parameters ++ t.head.parameters

def mapM (f : μ → m ν) (t : Transformer α μ) : m (Transformer α ν) :=
  return ⟨t.config, ← t.tokens.mapM f, ← t.positions.mapM f,
    ← t.blocks.mapM (TransformerBlock.mapM f), ← t.norm.mapM f, ← t.head.mapM f⟩

/-- Is there a token, and a position for each? -/
def checkLength (c : TransformerConfig) (tokens : List Int) : Except ShapeError Unit :=
  let n : Int := tokens.length
  if 0 < n && n ≤ c.maxSeqLen then .ok () else .error (.sequence n c.maxSeqLen)

def runBlocks (i : Interpretation m α ν) : List (TransformerBlock α ν) → ν → m ν
  | [], x => pure x
  | b :: bs, x => do runBlocks i bs (← b.call i x)

/-- The logits of a sequence of tokens whose length is right. -/
def logits (i : Interpretation m α ν) (t : Transformer α ν) (tokens : List Int) : m ν := do
  let e ← t.tokens.call i tokens
  let p ← t.positions.call i ((List.range tokens.length).map Int.ofNat)
  let x ← i.apply (.add e p)
  let x ← runBlocks i t.blocks x
  let x ← t.norm.call i x
  t.head.call i x

end Transformer

end DerivativeEngine
