import DerivativeEngine.Tensor.Broadcast
import DerivativeEngine.Workspace.Tensors

/-!
Variables: a tensor each, and a gradient for those that ask for one. Parameters and their
gradients are persistent; every other variable lives in the arena of the context it was made in.
-/

namespace DerivativeEngine

def Variable.text {α : Type} (v : Variable α) (shape : Shape) : String :=
  let kind := if v.isParameter then "parameter" else "temporary"
  let label := if v.name.isEmpty then "" else " " ++ Text.quoted v.name
  let required := if v.requiresGrad then "True" else "False"
  s!"Variable({kind}{label}, shape={Text.tuple shape}, requires_grad={required})"

namespace Session

variable {α : Type} [Scalar α]

/-- A variable on a tensor, with a gradient of zeros if it asks for one. -/
def variableOn (data : TensorId) (requiresGrad isParameter : Bool) (name : String)
    (home : Option ContextId) : Session α VariableId := do
  let shape := (← tensor data).shape
  let grad ← if requiresGrad then some <$> wrap (.fill shape 0) home else pure none
  newVariable ⟨data, grad, requiresGrad, isParameter, name⟩

def parameter (t : TensorId) (name : String) : Session α VariableId := do
  variableOn (← persistent t) true true name none

/-- A tensor that has a place in an arena already is taken as it is. -/
def temporary (t : TensorId) (requiresGrad : Bool) : Session α VariableId := do
  let c ← current
  let t ← if (← tensor t).isPersistent then clone t (some c) else pure t
  variableOn t requiresGrad false "" (some c)

/-- A temporary on data that are in no tensor; they are placed in the arena at once. -/
def input (x : NDArray α) (requiresGrad : Bool) : Session α VariableId := do
  let t ← fromData x none (some (← current))
  temporary t requiresGrad

def setGrad (v : VariableId) (grad : Option (Tensor α)) : Session α Unit :=
  modify fun w => w.setVariable v { w.var v with grad }

/-- New contents for a gradient that is there. -/
def assignGrad (v : VariableId) (grad : Tensor α) (x : NDArray α) : Session α Unit := do
  let new ← ofExcept ((← get).assigned grad x)
  setGrad v (some new)

def dropGrad (v : VariableId) : Session α Unit := setGrad v none

/-- Every element of the gradient becomes `x`. -/
def fillGrad (v : VariableId) (grad : Tensor α) (x : α) : Session α Unit := do
  let _ ← read grad
  assignGrad v grad (.fill grad.shape x)

def zeroGrad (v : VariableId) : Session α Unit := do
  match (← var v).grad with
  | some grad => fillGrad v grad 0
  | none => return ()

/-- Adds to the gradient, if there is one. -/
def accumulate (v : VariableId) (x : NDArray α) : Session α Unit := do
  match (← var v).grad with
  | some grad =>
    let old ← read grad
    match old.addAligned? x with
    | some sum => assignGrad v grad sum
    | none => failShape (.assignment x.shape grad.shape)
  | none => return ()

def readGrad? (v : VariableId) : Session α (Option (NDArray α)) := do
  match (← var v).grad with
  | some grad => some <$> read grad
  | none => return none

end Session

end DerivativeEngine
