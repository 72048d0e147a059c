import DerivativeEngine.Workspace.Variables

/-!
Operations applied to variables, and the sweep back over what was recorded. An operation is
recorded when an operand asks for a gradient. The sweep visits the records of the current
context from the last to the first and sends each output's gradient back to the operands.
-/

namespace DerivativeEngine

/-- What a prediction is compared with: numbers, or what a tensor or a variable holds. -/
inductive Target (α : Type) where
  | numbers (x : NDArray α)
  | tensor (t : TensorId)
  | var (v : VariableId)

namespace Session

variable {α : Type} [Scalar α]

def record (c : ContextId) (r : TapeRecord α) : Session α Unit :=
  modify fun w => w.modifyContext c fun k => k.record r

def requiresGrad (v : VariableId) : Session α Bool := return (← var v).requiresGrad

/-- Takes the context in use, checks, reads, computes; then the output, its gradient and the saved
arrays take their places in the arena, in this order. -/
def apply (op : Operation α VariableId) : Session α VariableId := do
  let c ← current
  let shapes ← op.mapM shapeOf
  ofShape shapes.check
  let arrays ← op.mapM value
  let needed ← op.operands.anyM requiresGrad
  let y := arrays.value
  let output ← variableOn (← make y (some c)) needed false "" (some c)
  if needed then
    let saved ← (arrays.saved y).mapM fun x => wrap x (some c)
    record c ⟨op, output, saved⟩
  return output

def readTarget : Target α → Session α (NDArray α)
  | .numbers x => return x
  | .tensor t => readTensor t
  | .var v => value v

/-- The mean squared error against fixed numbers. The prediction must be there before shapes are
compared. -/
def mseLoss (prediction : VariableId) (target : Target α) : Session α VariableId := do
  let _ ← current
  let x ← readTarget target
  let _ ← value prediction
  apply (.mse x prediction)

/-- A contribution reaches only operands that ask for it. -/
def send (v : VariableId) (x : NDArray α) : Session α Unit := do
  if ← requiresGrad v then accumulate v x

/-- Sends one record's contributions, if its output has a gradient. -/
def sweep (r : TapeRecord α) : Session α Unit := do
  match ← readGrad? r.output with
  | none => return ()
  | some g =>
    let saved ← r.saved.mapM read
    let shaped ← r.operation.mapM fun v => return (v, ← shapeOf v)
    (shaped.reverse saved g).forM fun (v, x) => send v x
    match r.operation.deferred? saved g with
    | none => return ()
    | some d => send d.target (d.contribution (← value d.reads))

/-- With a loss given, the sweep starts from a gradient of ones for it, and else from the
gradients as they are. -/
def backward (loss? : Option VariableId) : Session α Unit := do
  if let some loss := loss? then
    match (← var loss).grad with
    | some grad => fillGrad loss grad 1
    | none => throw .noGradient
  let c ← context (← current)
  c.tape.toList.reverse.forM sweep

def resetArena (c : ContextId) : Session α Unit :=
  modifyArena c Arena.reset fun _ _ => none

def resetArenaAggressive (c : ContextId) : Session α Unit :=
  modifyArena c Arena.resetAggressive Arena.releaseText?

def destroyArena (c : ContextId) : Session α Unit :=
  modifyArena c Arena.destroy fun _ _ => none

/-- Ends an iteration: the tape is cleared and the arena reset. -/
def resetIteration : Session α Unit := do
  let c ← current
  modify fun w => w.modifyContext c fun k => { k.clearTape with iterations := k.iterations + 1 }
  let k ← context c
  if k.period == 0 then throw (.fault .divisionByZero)
  if (k.iterations : Int) % k.period == 0 then resetArenaAggressive c else resetArena c

/-- Makes a context the one in use; gives the one before. -/
def enter (c : Option ContextId) : Session α (Option ContextId) :=
  modifyGet fun w => (w.current, { w with current := c })

end Session

end DerivativeEngine
