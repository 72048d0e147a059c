import DerivativeEngine.Layer.Basic
import DerivativeEngine.Training.Optimizer
import DerivativeEngine.Workspace.Recording

/-!
Layers in a workspace: planned slots become parameters, calls are recorded, and a training
iteration goes forward, back, one step on, and starts over.
-/

namespace DerivativeEngine.Session

variable {α : Type} [Scalar α]

/-- Operations on variables, recorded in the current context. -/
def recording : Interpretation (Session α) α VariableId := ⟨shapeOf, apply⟩

def allocate (s : Slot α) : Session α VariableId := do
  let t ← match s.filling with
    | .zeros => make (.fill s.shape 0) none
    | .ones => make (.fill s.shape 1) none
    | .normal deviation => drawn (NDArray.normal deviation) s.shape none
  parameter t s.name

def buildTransformer (c : TransformerConfig) (causal : Bool) :
    Session α (Transformer α VariableId) := do
  (← ofExcept (Transformer.plan c causal)).mapM allocate

def buildLayer (plan : Layer α (Slot α)) : Session α (Layer α VariableId) := plan.mapM allocate

def logits (t : Transformer α VariableId) (tokens : List Int) : Session α VariableId := do
  let _ ← current
  ofShape (Transformer.checkLength t.config tokens)
  t.logits recording tokens

/-- None for an input of the wrong kind. -/
def callLayer? (l : Layer α VariableId) (x : LayerInput VariableId) :
    Option (Session α VariableId) :=
  match l, x with
  | .transformer t, .tokens ts => some (logits t ts)
  | l, x => l.call? recording x

def loss (t : Transformer α VariableId) (tokens targets : List Int) : Session α VariableId := do
  apply (.crossEntropy targets (← logits t tokens))

/-- The loss and the number of records of one iteration. -/
def iterate (t : Transformer α VariableId) (o : OptimizerId) (tokens targets : List Int) :
    Session α (α × Nat) := do
  zeroGrads o
  let l ← loss t tokens targets
  backward (some l)
  step o
  let x := (← value l).get 0
  let n := (← context (← current)).tape.size
  resetIteration
  return (x, n)

/-- Every parameter gets new contents of its own shape. -/
def overwrite (parameters : List VariableId) (f : Nat → Nat → α) : Session α Unit :=
  parameters.zipIdx.forM fun (p, k) => do
    assign (← var p).data (.ofFn (← shapeOf p) (f k))

end DerivativeEngine.Session
