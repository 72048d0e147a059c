import DerivativeEngine.Engine
import DerivativeEngine.Rewrite.Derivative

/-!
Gradients: the simplified derivatives by a row of names, with their values at a point. A point is
given by bindings, or by a plain row of numbers in the order of the names.
-/

namespace DerivativeEngine

structure Gradient (α : Type) where
  components : List (Expr α)
  names : List String

namespace Gradient

variable {α : Type} [Scalar α]

def derivatives (e : Expr α) : List String → Retaining (List (Expr α))
  | [] => pure []
  | x :: xs => do return (← e.partialDerivative x) :: (← derivatives e xs)

def ofExpr (e : Expr α) (names : List String) : Retaining (Gradient α) := do
  let names := names.map canonicalName
  return ⟨← derivatives e names, names⟩

variable [NumberText α]

def run (g : Gradient α) (b : Bindings α) : Run (List α) :=
  g.components.mapM fun e => e.run (some b)

def runAt (g : Gradient α) (point : List α) : Run (Except BindingError (List α)) := do
  match Bindings.ofNames g.names point with
  | .ok b => return .ok (← g.run b)
  | .error e => return .error e

end Gradient

end DerivativeEngine
