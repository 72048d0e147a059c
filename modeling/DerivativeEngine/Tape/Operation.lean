import DerivativeEngine.Tensor.NDArray

/-!
Operations that can be differentiated, on operands of any type `ν`: shapes when they are
checked, arrays when they are computed, variables when they are recorded. Each comes with the
shapes it takes, its value, the arrays that are saved for its reverse, and the reverse itself: the
contributions to its operands, given the gradient of its value.
-/

namespace DerivativeEngine

inductive Operation (α ν : Type) where
  | add (a b : ν)
  | multiply (a b : ν)
  | scale (factor : α) (x : ν)
  | matmul (a b : ν)
  | transpose (x : ν)
  | reshape (shape : List Int) (x : ν)
  | relu (x : ν)
  /-- Along the last dimension. -/
  | softmax (x : ν)
  /-- Along the last dimension; `gamma` scales and `beta` shifts. -/
  | layerNorm (eps : α) (x gamma beta : ν)
  /-- Rows of a table. -/
  | embedding (indices : List Int) (table : ν)
  /-- Products of queries and keys, head by head. -/
  | attentionScores (scale : α) (causal : Bool) (q k : ν)
  | attentionApply (weights values : ν)
  /-- The mean over the rows of the negative logarithm of the target's probability. -/
  | crossEntropy (targets : List Int) (logits : ν)
  /-- The mean squared error against a fixed target. -/
  | mse (target : NDArray α) (prediction : ν)

namespace Operation

variable {α ν μ : Type}

def name : Operation α ν → String
  | add .. => "add"
  | multiply .. => "multiply"
  | scale .. => "scale"
  | matmul .. => "matmul"
  | transpose _ => "transpose"
  | reshape .. => "reshape"
  | relu _ => "relu"
  | softmax _ => "softmax"
  | layerNorm .. => "layer_norm"
  | embedding .. => "embedding"
  | attentionScores .. => "attention_scores"
  | attentionApply .. => "attention_apply"
  | crossEntropy .. => "cross_entropy"
  | mse .. => "mse_loss"

/-- A number, a switch or a list that belongs to an operation and not to its operands. -/
inductive Attribute (α : Type) where
  | number (x : α)
  | flag (b : Bool)
  | indices (is : List Int)

/-- The attributes that are kept with a record, by name. -/
def attributes : Operation α ν → List (String × Attribute α)
  | scale c _ => [("factor", .number c)]
  | layerNorm eps .. => [("eps", .number eps)]
  | embedding is _ => [("indices", .indices is)]
  | attentionScores c causal .. => [("scale", .number c), ("causal", .flag causal)]
  | crossEntropy ts _ => [("targets", .indices ts)]
  | _ => []

/-- The operation of a name, with attributes and operands that are looked up by theirs. An
operation against a fixed target has none to look up. -/
def ofName? (name : String) (number : String → α) (flag : String → Bool)
    (indices : String → List Int) (operand : String → ν) : Option (Operation α ν) :=
  let x := operand "x"
  let y := operand "y"
  match name with
  | "add" => some (add x y)
  | "multiply" => some (multiply x y)
  | "scale" => some (scale (number "factor") x)
  | "matmul" => some (matmul x y)
  | "transpose" => some (transpose x)
  | "reshape" => some (reshape (indices "shape") x)
  | "relu" => some (relu x)
  | "softmax" => some (softmax x)
  | "layer_norm" => some (layerNorm (number "eps") x (operand "gamma") (operand "beta"))
  | "embedding" => some (embedding (indices "indices") x)
  | "attention_scores" => some (attentionScores (number "scale") (flag "causal") x y)
  | "attention_apply" => some (attentionApply x y)
  | "cross_entropy" => some (crossEntropy (indices "targets") x)
  | _ => none

/-- From left to right. -/
def operands : Operation α ν → List ν
  | add a b | multiply a b | matmul a b => [a, b]
  | scale _ x | transpose x | reshape _ x | relu x | softmax x => [x]
  | layerNorm _ x gamma beta => [x, gamma, beta]
  | embedding _ table => [table]
  | attentionScores _ _ q k => [q, k]
  | attentionApply w v => [w, v]
  | crossEntropy _ x | mse _ x => [x]

/-- The same operation on other operands, which are made from left to right. -/
def mapM {m : Type → Type} [Monad m] (f : ν → m μ) : Operation α ν → m (Operation α μ)
  | add a b => do return add (← f a) (← f b)
  | multiply a b => do return multiply (← f a) (← f b)
  | scale c x => do return scale c (← f x)
  | matmul a b => do return matmul (← f a) (← f b)
  | transpose x => do return transpose (← f x)
  | reshape s x => do return reshape s (← f x)
  | relu x => do return relu (← f x)
  | softmax x => do return softmax (← f x)
  | layerNorm eps x gamma beta => do return layerNorm eps (← f x) (← f gamma) (← f beta)
  | embedding is table => do return embedding is (← f table)
  | attentionScores c causal q k => do return attentionScores c causal (← f q) (← f k)
  | attentionApply w v => do return attentionApply (← f w) (← f v)
  | crossEntropy ts x => do return crossEntropy ts (← f x)
  | mse t x => do return mse t (← f x)

def map (f : ν → μ) (op : Operation α ν) : Operation α μ := Id.run (op.mapM fun x => pure (f x))

/-- A matrix and a row of its width. -/
def rowFits (matrix row : Shape) : Bool :=
  matrix.length == 2 && row.length == 1 && matrix.dim 1 == row.dim 0

def checkAdd (a b : Shape) : Except ShapeError Unit :=
  if a == b || (if a.length == 2 then rowFits a b else rowFits b a) then .ok ()
  else .error (.broadcast a b)

def checkMatmul (a b : Shape) : Except ShapeError Unit :=
  if a.length != 2 || b.length != 2 then .error (.matmulRanks a b)
  else if a.dim 1 != b.dim 0 then .error (.matmulInner a b)
  else .ok ()

def checkReshape (target : List Int) (s : Shape) : Except ShapeError Unit := do
  let t ← Shape.check target
  if t.size == s.size then return () else throw (.view s t)

def checkLayerNorm (x gamma beta : Shape) : Except ShapeError Unit :=
  if gamma == [x.last] && beta == [x.last] then .ok ()
  else .error (.layerNorm x.last gamma beta)

def checkEmbedding (indices : List Int) (table : Shape) : Except ShapeError Unit :=
  if table.length != 2 then .error (.embeddingRank table)
  else if indices.isEmpty then .error .embeddingEmpty
  else
    match indices.find? fun i => i < 0 || (table.dim 0 : Int) ≤ i with
    | some i => .error (.embeddingIndex i (table.dim 0))
    | none => .ok ()

def checkScores (q k : Shape) : Except ShapeError Unit :=
  if q.length == 3 && q == k then .ok () else .error (.scores q k)

def checkApply (w v : Shape) : Except ShapeError Unit :=
  if w.length != 3 || v.length != 3 then .error (.applyRanks w v)
  else if w.dim 1 == w.dim 2 && v.dim 0 == w.dim 1 && v.dim 1 == w.dim 0 then .ok ()
  else .error (.apply w v)

/-- A class for each row of logits. -/
def checkTargets (targets : List Int) (logits : Shape) : Except ShapeError Unit :=
  if logits.length != 2 then .error (.logits logits)
  else if targets.length != logits.dim 0 then
    .error (.targetCount targets.length (logits.dim 0))
  else
    match targets.find? fun t => t < 0 || (logits.dim 1 : Int) ≤ t with
    | some t => .error (.target t (logits.dim 1))
    | none => .ok ()

/-- Do operands of these shapes fit the operation? -/
def check : Operation α Shape → Except ShapeError Unit
  | add a b => checkAdd a b
  | multiply a b => if a == b then .ok () else .error (.mismatch "multiply" a b)
  | scale .. | relu _ | softmax _ => .ok ()
  | matmul a b => checkMatmul a b
  | transpose s => if s.length == 2 then .ok () else .error (.transposeRank s)
  | reshape t s => checkReshape t s
  | layerNorm _ x gamma beta => checkLayerNorm x gamma beta
  | embedding is table => checkEmbedding is table
  | attentionScores _ _ q k => checkScores q k
  | attentionApply w v => checkApply w v
  | crossEntropy ts s => checkTargets ts s
  | mse target s => if target.shape == s then .ok () else .error (.mseTarget target.shape s)

end Operation

namespace NDArray

section Ring

variable {α : Type} [Zero α] [Add α] [Mul α]

/-- A sum in which a row is added to every row of the other operand. -/
def addBroadcast (a b : NDArray α) : NDArray α :=
  if a.shape = b.shape then add a b
  else if a.shape.length = 2 then addRow a b
  else addRow b a

/-- What an operand of such a sum gets: a row, the sum over all rows. -/
def addReverse (shape : Shape) (g : NDArray α) : NDArray α :=
  if shape = g.shape then g else sumRows g

def mulRow (a v : NDArray α) : NDArray α :=
  let n := a.shape.last
  ofFn a.shape fun i => v.get (i % n) * a.get i

end Ring

section Scalar

variable {α : Type} [Scalar α]

def centred (x : NDArray α) : NDArray α := withRows (· - ·) x x.rowMeans

def rowVariances (x : NDArray α) : NDArray α :=
  let c := x.centred
  (mul c c).rowMeans

/-- Each row is centred and brought to unit variance, and then scaled and shifted. -/
def layerNorm (eps : α) (x gamma beta : NDArray α) : NDArray α :=
  let deviations := x.rowVariances.map fun v => Scalar.sqrt (v + eps)
  addRow (withRows (· / ·) (mulRow x.centred gamma) deviations) beta

/-- The rows as they were before scaling, with the factors that brought them to unit variance. -/
def normalised (eps : α) (x mean variance : NDArray α) : NDArray α × NDArray α :=
  let invStd := variance.map fun v => 1 / Scalar.sqrt (v + eps)
  (withRows (· * ·) (withRows (· - ·) x mean) invStd, invStd)

def layerNormGain (eps : α) (x mean variance g : NDArray α) : NDArray α :=
  sumRows (mul g (normalised eps x mean variance).1)

def layerNormInput (eps : α) (x mean variance gamma g : NDArray α) : NDArray α :=
  let (hat, invStd) := normalised eps x mean variance
  let d := mulRow g gamma
  let correction := withRows (· * ·) hat (mul d hat).rowMeans
  let inner := sub (withRows (· - ·) d d.rowMeans) correction
  withRows (fun v s => s * v) inner invStd

def softmaxReverse (y g : NDArray α) : NDArray α :=
  mul y (withRows (· - ·) g (mul g y).rowSums)

def reluReverse (x g : NDArray α) : NDArray α :=
  zipWith (fun x g => if 0 < x then g else 0) x g

/-- The mean over the rows of the negative logarithm of the target's probability. -/
def crossEntropy (logits : NDArray α) (targets : List Nat) : NDArray α :=
  let rows := logits.shape.dim 0
  let n := logits.shape.dim 1
  let normalisers := logits.logSumExp
  let picked := sumTo
    (fun r => logits.get (r * n + targets.getD r 0) - normalisers.get r) rows
  fill [1] (-(picked / Scalar.ofNat rows))

def crossEntropyReverse (logits : NDArray α) (targets : List Nat) (g : NDArray α) : NDArray α :=
  let rows := logits.shape.dim 0
  let n := logits.shape.dim 1
  let probabilities := logits.softmax
  ofFn logits.shape fun i =>
    let hot := if targets.getD (i / n) 0 == i % n then 1 else 0
    (probabilities.get i - hot) * g.get 0 / Scalar.ofNat rows

def meanSquaredError (pred target : NDArray α) : NDArray α :=
  let d := sub pred target
  fill [1] (mul d d).mean

def meanSquaredErrorReverse (pred target g : NDArray α) : NDArray α :=
  (sub pred target).map fun d => 2.0 * d / Scalar.ofNat pred.size * g.get 0

end Scalar

end NDArray

namespace Operation

variable {α ν : Type} [Scalar α]

open NDArray in
/-- The value on operands that fit. -/
def value : Operation α (NDArray α) → NDArray α
  | add a b => addBroadcast a b
  | multiply a b => mul a b
  | scale c x => x.scale c
  | matmul a b => a.matmul b
  | transpose x => x.transpose
  | reshape s x => x.reshape (s.map Int.toNat)
  | relu x => x.relu
  | softmax x => x.softmax
  | layerNorm eps x gamma beta => x.layerNorm eps gamma beta
  | embedding is table => table.gather (is.map Int.toNat)
  | attentionScores c causal q k => NDArray.attentionScores Scalar.negInf c causal q k
  | attentionApply w v => overKeys w v
  | crossEntropy ts x => x.crossEntropy (ts.map Int.toNat)
  | mse target x => x.meanSquaredError target

/-- What the reverse will read, given the operands and the value. -/
def saved (op : Operation α (NDArray α)) (value : NDArray α) : List (NDArray α) :=
  match op with
  | multiply a b | matmul a b => [a, b]
  | relu x | crossEntropy _ x => [x]
  | softmax _ => [value]
  | layerNorm _ x _ _ => [x, x.rowMeans, x.rowVariances]
  | attentionScores _ _ q k => [q, k]
  | attentionApply w v => [w, v]
  | mse target x => [x, target]
  | _ => []

open NDArray in
/-- The contributions that need nothing but the saved arrays and the gradient of the value, in
the order in which they are sent. An operand is given with its shape. -/
def reverse : Operation α (ν × Shape) → List (NDArray α) → NDArray α → List (ν × NDArray α)
  | add a b, _, g => [(a.1, addReverse a.2 g), (b.1, addReverse b.2 g)]
  | multiply a b, [x, y], g => [(a.1, mul g y), (b.1, mul g x)]
  | scale c a, _, g => [(a.1, g.scale c)]
  | matmul a b, [x, y], g => [(a.1, g.matmul y.transpose), (b.1, x.transpose.matmul g)]
  | transpose a, _, g => [(a.1, g.transpose)]
  | reshape _ a, _, g => [(a.1, g.reshape a.2)]
  | relu a, [x], g => [(a.1, reluReverse x g)]
  | softmax a, [y], g => [(a.1, softmaxReverse y g)]
  | layerNorm eps _ gamma beta, [x, mean, variance], g =>
    [(gamma.1, layerNormGain eps x mean variance g), (beta.1, sumRows g)]
  | embedding is table, _, g => [(table.1, scatter table.2 (is.map Int.toNat) g)]
  | attentionScores c causal q k, [x, y], g =>
    let g := unmasked causal g
    [(q.1, (overKeys g y).scale c), (k.1, (overQueries g x).scale c)]
  | attentionApply w v, [x, y], g => [(w.1, overWidth g y), (v.1, overQueries x g)]
  | crossEntropy ts a, [x], g => [(a.1, crossEntropyReverse x (ts.map Int.toNat) g)]
  | mse _ a, [x, target], g => [(a.1, meanSquaredErrorReverse x target g)]
  | _, _, _ => []

/-- A contribution that also needs an operand as it is when the reverse runs. -/
structure Deferred (α ν : Type) where
  reads : ν
  target : ν
  contribution : NDArray α → NDArray α

/-- Layer normalisation scales what it sends on by its gain of that moment; nothing else reads
an operand again. -/
def deferred? : Operation α ν → List (NDArray α) → NDArray α → Option (Deferred α ν)
  | layerNorm eps x gamma _, [saved, mean, variance], g =>
    some ⟨gamma, x, fun gain => saved.layerNormInput eps mean variance gain g⟩
  | _, _, _ => none

end Operation

structure Interpretation (m : Type → Type) (α ν : Type) where
  shape : ν → m Shape
  apply : Operation α ν → m ν

/-- Arrays themselves, with nothing recorded. -/
def Interpretation.arrays {α : Type} [Scalar α] :
    Interpretation (Except ShapeError) α (NDArray α) where
  shape x := .ok x.shape
  apply op := do
    (op.map NDArray.shape).check
    return op.value

end DerivativeEngine
