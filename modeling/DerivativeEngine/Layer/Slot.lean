import DerivativeEngine.Scalar.Basic
import DerivativeEngine.Tensor.TensorError

/-!
Plans of parameters. A layer is first planned, with a slot for each parameter: its name, its shape
and what fills it at the start. All that can be wrong with the sizes of a layer shows here.
-/

namespace DerivativeEngine

inductive Filling (α : Type) where
  | zeros
  | ones
  /-- Normal around zero. -/
  | normal (deviation : α)

def Filling.name {α : Type} : Filling α → String
  | zeros => "zeros"
  | ones => "ones"
  | normal _ => "random"

structure Slot (α : Type) where
  name : String
  shape : Shape
  filling : Filling α

namespace Slot

variable {α : Type} [Scalar α]

def ofSizes (name : String) (sizes : List Int) (filling : Filling α) :
    Except TensorError (Slot α) := do
  return ⟨name, ← failAs .shape (Shape.check sizes), filling⟩

/-- One over a number that is not zero, in the scalars. -/
def quotient (x : α) (n : Int) : Except TensorError α :=
  if n == 0 then .error (.fault .divisionByZero) else .ok (x / Scalar.ofInt n)

def root (x : α) : Except TensorError α :=
  if x < 0 then .error (.fault .negativeRoot) else .ok (Scalar.sqrt x)

end Slot

end DerivativeEngine
