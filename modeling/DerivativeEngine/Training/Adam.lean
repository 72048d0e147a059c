import DerivativeEngine.Optimize.Step
import DerivativeEngine.Tensor.NDArray

/-!
The Adam rule on arrays: running means of the gradients and of their squares, corrected for
having started at zero. Each array keeps its own pair of means; the number of steps is common.
-/

namespace DerivativeEngine

structure Adam (α : Type) where
  beta₁ : α
  beta₂ : α
  eps : α
  steps : Int
  first : List (NDArray α)
  second : List (NDArray α)

namespace Adam

variable {α : Type} [Scalar α]

def defaultRate : α := 0.001

def defaultBeta₁ : α := 0.9

def defaultBeta₂ : α := 0.999

def defaultEps : α := 1e-8

/-- Before the first step, for arrays of these shapes. -/
def start (beta₁ beta₂ eps : α) (shapes : List Shape) : Adam α :=
  ⟨beta₁, beta₂, eps, 0, shapes.map fun s => .fill s 0, shapes.map fun s => .fill s 0⟩

def tick (a : Adam α) : Adam α := { a with steps := a.steps + 1 }

/-- `1 - βᵗ`. -/
def correction (beta : α) (t : Int) : Except ArithmeticFault α := return 1 - (← powInt beta t)

/-- The corrections of both means at the present step. -/
def corrections (a : Adam α) : Except ArithmeticFault (α × α) :=
  return (← correction a.beta₁ a.steps, ← correction a.beta₂ a.steps)

def nextFirst (a : Adam α) (m g : NDArray α) : NDArray α :=
  NDArray.zipWith (fun m g => a.beta₁ * m + (1 - a.beta₁) * g) m g

def nextSecond (a : Adam α) (v g : NDArray α) : NDArray α :=
  NDArray.zipWith (fun v g => a.beta₂ * v + (1 - a.beta₂) * g * g) v g

/-- The means of the array at index `i` after a gradient. -/
def learn (a : Adam α) (i : Nat) (g : NDArray α) : Adam α :=
  let m := a.nextFirst (a.first.getD i (.fill g.shape 0)) g
  let v := a.nextSecond (a.second.getD i (.fill g.shape 0)) g
  { a with first := a.first.set i m, second := a.second.set i v }

/-- Against the corrected mean, in units of the root of the corrected mean of squares. -/
def displacement (a : Adam α) (rate : α) (corrections : α × α) (i : Nat) (shape : Shape) :
    NDArray α :=
  let m := (a.first.getD i (.fill shape 0)).map (· / corrections.1)
  let v := (a.second.getD i (.fill shape 0)).map (· / corrections.2)
  NDArray.zipWith (fun m v => rate * m / (Scalar.sqrt v + a.eps)) m v

end Adam

end DerivativeEngine
