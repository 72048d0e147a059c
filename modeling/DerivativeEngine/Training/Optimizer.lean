import DerivativeEngine.Workspace.Variables

/-!
Optimizers at work: they keep track of the parameters that ask for a gradient, and a step moves
each one whose gradient is there. A step that fails keeps what it did before.
-/

namespace DerivativeEngine

namespace Workspace

variable {α : Type} [Scalar α]

def optimizer (w : Workspace α) (o : OptimizerId) : Optimizer α :=
  w.optimizers.getD o.index ⟨[], 0, .none⟩

def modifyOptimizer (w : Workspace α) (o : OptimizerId) (f : Optimizer α → Optimizer α) :
    Workspace α :=
  { w with optimizers := w.optimizers.modify o.index f }

end Workspace

/-- The state of an optimizer that follows the Adam rule. -/
def Optimizer.adam? {α : Type} (o : Optimizer α) : Option (Adam α) :=
  match o.rule with
  | .adam a => some a
  | _ => none

def Optimizer.mapAdam {α : Type} (f : Adam α → Adam α) (o : Optimizer α) : Optimizer α :=
  match o.rule with
  | .adam a => { o with rule := .adam (f a) }
  | _ => o

/-- How an optimizer is to move parameters. -/
inductive RuleChoice (α : Type) where
  | none
  | descent
  | adam (beta₁ beta₂ eps : α)

namespace RuleChoice

variable {α : Type} [Scalar α]

/-- The usual learning rate. -/
def defaultRate : RuleChoice α → α
  | none => 0.001
  | descent => 0.01
  | adam .. => Adam.defaultRate

end RuleChoice

namespace Session

variable {α : Type} [Scalar α]

def optimizer (o : OptimizerId) : Session α (Optimizer α) := return (← get).optimizer o

def modifyOptimizer (o : OptimizerId) (f : Optimizer α → Optimizer α) : Session α Unit :=
  modify fun w => w.modifyOptimizer o f

/-- Adam looks at the data of what it tracks. -/
def ruleFor (tracked : List VariableId) : RuleChoice α → Session α (UpdateRule α)
  | .none => return .none
  | .descent => return .descent
  | .adam beta₁ beta₂ eps => do
    let arrays ← tracked.mapM value
    return .adam (.start beta₁ beta₂ eps (arrays.map NDArray.shape))

def newOptimizer (parameters : List VariableId) (choice : RuleChoice α) (rate : α) :
    Session α OptimizerId := do
  let w ← get
  let tracked := parameters.filter fun p => (w.var p).requiresGrad
  let rule ← ruleFor tracked choice
  modifyGet fun w => (⟨w.optimizers.size⟩,
    { w with optimizers := w.optimizers.push ⟨tracked, rate, rule⟩ })

/-- Sets every tracked gradient to zero. -/
def zeroGrads (o : OptimizerId) : Session α Unit := do
  (← optimizer o).tracked.forM zeroGrad

def descend (rate : α) (p : VariableId) : Session α Unit := do
  let v ← var p
  match v.grad with
  | none => return ()
  | some grad =>
    let x ← value p
    let g ← read grad
    assign v.data (x.sub (g.map (rate * ·)))

/-- A gradient is learnt before the parameter moves. -/
def adapt (o : OptimizerId) (corrections : α × α) (p : VariableId) (i : Nat) : Session α Unit := do
  match ← readGrad? p with
  | none => return ()
  | some g =>
    modifyOptimizer o (Optimizer.mapAdam fun a => a.learn i g)
    let s ← optimizer o
    match s.adam? with
    | none => return ()
    | some a =>
      let x ← value p
      assign (← var p).data (x.sub (a.displacement s.rate corrections i g.shape))

def step (o : OptimizerId) : Session α Unit := do
  let s ← optimizer o
  match s.rule with
  | .none => throw .noRule
  | .descent => s.tracked.forM (descend s.rate)
  | .adam a =>
    modifyOptimizer o (Optimizer.mapAdam Adam.tick)
    let corrections ← ofExcept (failAs .fault a.tick.corrections)
    s.tracked.zipIdx.forM fun (p, i) => adapt o corrections p i

end Session

end DerivativeEngine
