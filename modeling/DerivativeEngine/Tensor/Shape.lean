import DerivativeEngine.Text.Quoted

/-!
Shapes of tensors, and every way in which shapes, ranks or indices can fail to fit. A shape is
valid when it has one to eight dimensions, all of them positive.
-/

namespace DerivativeEngine

abbrev Shape := List Nat

/-- The product of the dimensions. -/
def Shape.size (s : Shape) : Nat := s.foldr (· * ·) 1

inductive ShapeError where
  | rank (n : Nat)
  | dimensions (shape : List Int)
  | doesNotFill (values : Nat) (shape : Shape)
  | assignment (given expected : Shape)
  | notSingle (shape : Shape)
  /-- Operands of an elementwise operation. -/
  | mismatch (op : String) (a b : Shape)
  | broadcast (a b : Shape)
  | tensorMatmulRanks (a b : Nat)
  | matmulRanks (a b : Shape)
  | matmulInner (a b : Shape)
  | tensorTransposeRank (n : Nat)
  | transposeRank (shape : Shape)
  | dotRanks (a b : Nat)
  | view (source target : Shape)
  | layerNorm (dim : Nat) (gamma beta : Shape)
  | embeddingRank (shape : Shape)
  | embeddingEmpty
  | embeddingIndex (index : Int) (rows : Nat)
  | scores (q k : Shape)
  | applyRanks (weights values : Shape)
  | apply (weights values : Shape)
  | logits (shape : Shape)
  | targetCount (targets positions : Nat)
  | target (index : Int) (vocab : Nat)
  | mseTarget (target pred : Shape)
  | heads (model heads : Int)
  | sequence (length limit : Int)
  deriving DecidableEq, Repr

namespace ShapeError

open Text (tuple)

def message : ShapeError → String
  | rank n => s!"tensor rank must be between 1 and 8, got {n}"
  | dimensions s => s!"tensor dimensions must be positive, got {tuple s}"
  | doesNotFill n s => s!"{n} values do not fill shape {tuple s}"
  | assignment a b => s!"assign: shape {tuple a} does not match {tuple b}"
  | notSingle s => s!"item() needs a single-element tensor, got shape {tuple s}"
  | mismatch op a b => s!"{op}: shape mismatch {tuple a} vs {tuple b}"
  | broadcast a b => s!"add: cannot broadcast {tuple a} with {tuple b}"
  | tensorMatmulRanks a b => s!"matmul needs rank-2 operands, got ranks {a} and {b}"
  | matmulRanks a b => s!"matmul needs rank-2 operands, got {tuple a} and {tuple b}"
  | matmulInner a b => s!"matmul inner dimensions differ: {tuple a} x {tuple b}"
  | tensorTransposeRank n => s!"transpose needs a rank-2 tensor, got rank {n}"
  | transposeRank s => s!"transpose needs a rank-2 variable, got shape {tuple s}"
  | dotRanks a b => s!"dot needs rank-1 operands, got ranks {a} and {b}"
  | view a b => s!"reshape: cannot view {tuple a} as {tuple b}"
  | layerNorm d g b =>
    s!"layer_norm: gamma/beta must have shape ({d},), got {tuple g} and {tuple b}"
  | embeddingRank s => s!"embedding table must be rank 2, got shape {tuple s}"
  | embeddingEmpty => "embedding needs at least one index"
  | embeddingIndex i n => s!"embedding index {i} out of range for {n} rows"
  | scores q k =>
    s!"attention_scores needs matching (seq, h, d_h) operands, got {tuple q} and {tuple k}"
  | applyRanks w v => s!"attention_apply needs rank-3 operands, got {tuple w} and {tuple v}"
  | apply w v => s!"attention_apply: weights {tuple w} do not match values {tuple v}"
  | logits s => s!"cross_entropy needs (seq, vocab) logits, got shape {tuple s}"
  | targetCount n m => s!"cross_entropy: {n} targets for {m} positions"
  | target i n => s!"cross_entropy target {i} out of range for vocab {n}"
  | mseTarget a b => s!"mse_loss: target shape {tuple a} does not match {tuple b}"
  | heads d n => s!"d_model={d} is not divisible by n_heads={n}"
  | sequence n m => s!"sequence length {n} outside 1..{m}"

end ShapeError

namespace Shape

def maxRank : Nat := 8

def check (s : List Int) : Except ShapeError Shape :=
  if s.length < 1 || maxRank < s.length then .error (.rank s.length)
  else if s.any (· ≤ 0) then .error (.dimensions s)
  else .ok (s.map Int.toNat)

/-- The last dimension, along which rows lie. -/
def last (s : Shape) : Nat := s.getLastD 1

def dim (s : Shape) (i : Nat) : Nat := s.getD i 1

end Shape

end DerivativeEngine
