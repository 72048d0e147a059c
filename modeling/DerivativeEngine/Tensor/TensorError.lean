import DerivativeEngine.Arena.Basic
import DerivativeEngine.ModelFile.FormatError
import DerivativeEngine.Scalar.Basic

/-!
How work on tensors can fail.
-/

namespace DerivativeEngine

/-- A tensor used when it was not there to be used. -/
inductive LifetimeError where
  | stale (block : StaleBlock)
  | freed
  /-- A tensor of an arena was to be freed alone. -/
  | arenaOwned
  | overReleased
  deriving DecidableEq, Repr

def LifetimeError.message : LifetimeError → String
  | stale b => b.message
  | freed => "tensor was freed"
  | arenaOwned => "arena tensors are released by resetting their arena"
  | overReleased => "tensor handle released more times than retained"

inductive TensorError where
  | shape (e : ShapeError)
  | lifetime (e : LifetimeError)
  | fault (e : ArithmeticFault)
  | format (e : FormatError)
  /-- A reverse sweep from a variable without a gradient. -/
  | noGradient
  /-- A step of an optimizer that has no rule. -/
  | noRule
  deriving DecidableEq, Repr

/-- A fault of arithmetic has no words. -/
def TensorError.message : TensorError → String
  | shape e => e.message
  | lifetime e => e.message
  | fault _ => ""
  | format e => e.message
  | noGradient => "backward() needs a loss that requires grad"
  | noRule => ""

/-- The failure of a part, in the words of the whole. -/
def failAs {ε ε' β : Type} (f : ε → ε') (x : Except ε β) : Except ε' β := x.mapError f

end DerivativeEngine
