import DerivativeEngine.ModelFile.Reader
import DerivativeEngine.Training.Model

/-!
Models and checkpoints between a workspace and bytes. A model is loaded parameter by parameter,
so one that is given to be filled keeps those that came before a failure.
-/

namespace DerivativeEngine

/-- What a checkpoint gives back. -/
structure Checkpoint (α : Type) where
  model : Transformer α VariableId
  optimizer : OptimizerId
  state : TrainingState α

namespace Session

variable {α β : Type} [Scalar α] [WordCoded α]

def ofFormat (x : Except FormatError β) : Session α β := ofExcept (failAs .format x)

def expected (v : VariableId) : Session α Expected := do
  return ⟨(← var v).name, ← shapeOf v⟩

def setData (v : VariableId) (x : NDArray α) : Session α Unit := do
  assign (← var v).data x

def saveModel (t : Transformer α VariableId) : Session α Written := do
  return ModelFile.model t.config (← t.parameters.mapM value)

/-- The moments are those of an optimizer that tracks as many parameters as the model has. -/
def saveCheckpoint (t : Transformer α VariableId) (o : OptimizerId) (iteration : Int) (loss : α) :
    Session α Written := do
  let s ← optimizer o
  if s.tracked.length != t.parameters.length then throw (.format .untracked)
  let arrays ← t.parameters.mapM value
  let (first, second) := match s.adam? with
    | some a => (a.first, a.second)
    | none => ([], [])
  let moments := first.zip second
  return ModelFile.checkpoint ⟨iteration, loss, s.rate⟩ t.config
    (arrays.zipWith (fun x p => ⟨x, p.1, p.2⟩) moments)

/-- Into the given model, whose sizes must be those of the file, or into a new one. -/
def loadModel (bytes : List UInt8) (into? : Option (Transformer α VariableId)) :
    Session α (Transformer α VariableId) := do
  let (config, rest) ← ofFormat ((Reader.header *> Reader.config).run bytes)
  let model ← match into? with
    | none => buildTransformer config false
    | some t =>
      if t.config != config then throw (.format (.architecture config t.config))
      pure t
  let p := Reader.parameters (← model.parameters.mapM expected) rest
  (model.parameters.zip p.arrays).forM fun (v, x) => setData v x
  let _ ← ofFormat p.rest
  return model

/-- A new model and an Adam optimizer that goes on where the checkpoint was written. -/
def loadCheckpoint (bytes : List UInt8) : Session α (Checkpoint α) := do
  let ((), rest) ← ofFormat (Reader.header.run bytes)
  let (state, rest) ← ofFormat ((Reader.training (α := α)).run rest)
  let (config, rest) ← ofFormat (Reader.config.run rest)
  let model ← buildTransformer config false
  let o ← newOptimizer model.parameters
    (.adam Adam.defaultBeta₁ Adam.defaultBeta₂ Adam.defaultEps) state.rate
  let (xs, _) ← ofFormat ((Reader.adaptedAll (← model.parameters.mapM expected)).run rest)
  (model.parameters.zip xs).forM fun (v, x) => setData v x.data
  modifyOptimizer o (Optimizer.mapAdam fun a =>
    { a with
      steps := state.iteration, first := xs.map Adapted.first, second := xs.map Adapted.second })
  return ⟨model, o, state⟩

end Session

end DerivativeEngine
