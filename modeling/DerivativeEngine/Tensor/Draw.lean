import DerivativeEngine.Tensor.NDArray

/-!
Arrays of random numbers. Where they come from is left open: the draws to come are any row of
numbers of 53 bits, and are taken in the order of the flat indices.
-/

namespace DerivativeEngine

/-- The draws to come, each a multiple of `2 ^ -53`. -/
abbrev Draws := Nat → Nat

namespace NDArray

variable {α : Type} [Scalar α]

/-- Uniform on `[0, 1)`. -/
def uniform (shape : Shape) (draws : Draws) : NDArray α × Draws :=
  (ofFn shape fun i => Scalar.ofDraw (draws i), fun i => draws (shape.size + i))

/-- Stands for a draw of zero under the logarithm. -/
def leastDraw : α := 2.2250738585072014e-308

/-- A normal number from two uniform ones. -/
def boxMuller (u v : α) : α :=
  Scalar.sqrt (-2.0 * Scalar.log (Scalar.max u leastDraw)) * Scalar.cos (2.0 * Scalar.pi * v)

/-- Normal around zero with the given deviation. -/
def normal (deviation : α) (shape : Shape) (draws : Draws) : NDArray α × Draws :=
  let (u, draws) := uniform shape draws
  let (v, draws) := uniform shape draws
  (zipWith (fun a b => deviation * boxMuller a b) u v, draws)

end NDArray

end DerivativeEngine
