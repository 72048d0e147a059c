import DerivativeEngine.Tensor.NDArray

/-!
Sums of arrays whose shapes differ. Shapes are aligned at their last dimension; a dimension of
one, or one that is missing, is repeated to match the other.
-/

namespace DerivativeEngine

namespace Shape

/-- Two dimensions that agree or of which one is one. -/
def joinDims (m n : Nat) : Option Nat :=
  if m == n || n == 1 then some m else if m == 1 then some n else none

/-- Last dimension first. -/
def joinReversed : Shape → Shape → Option Shape
  | [], s => some s
  | s, [] => some s
  | m :: s, n :: t => do return (← joinDims m n) :: (← joinReversed s t)

def join? (s t : Shape) : Option Shape := (joinReversed s.reverse t.reverse).map List.reverse

/-- The flat index in an array of the second shape that is repeated at flat index `i` of the
first; both are given last dimension first. -/
def sourceIndex : Shape → Shape → Nat → Nat
  | n :: s, m :: t, i => (if m == 1 then 0 else i % n) + m * sourceIndex s t (i / n)
  | _, _, _ => 0

end Shape

namespace NDArray

variable {α : Type} [Zero α]

def expand (a : NDArray α) (shape : Shape) : NDArray α :=
  let s := shape.reverse
  let t := a.shape.reverse
  ofFn shape fun i => a.get (Shape.sourceIndex s t i)

/-- None if the shapes cannot be aligned. -/
def addAligned? [Add α] [Mul α] (a b : NDArray α) : Option (NDArray α) := do
  let s ← Shape.join? a.shape b.shape
  return add (a.expand s) (b.expand s)

end NDArray

end DerivativeEngine
