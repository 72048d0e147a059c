import DerivativeEngine.Workspace.Tensors

/-!
Functions of tensors by name.
-/

namespace DerivativeEngine.Session

variable {α : Type} [Scalar α]

/-- Of one tensor; some take a number as well. -/
def unaryNamed? (name : String) (number : α) :
    Option (TensorId → Option ContextId → Session α TensorId) :=
  match name with
  | "negate" => some (unary .neg)
  | "transpose" => some transpose
  | "relu" => some (unary .relu)
  | "sigmoid" => some (unary .sigmoid)
  | "tanh" => some (unary .tanh)
  | "softmax" => some (unary .softmax)
  | "clone" => some clone
  | "add_scalar" => some (unary fun x => x.addScalar number)
  | "mul_scalar" => some (unary fun x => x.scale number)
  | _ => none

def binaryNamed? (name : String) :
    Option (TensorId → TensorId → Option ContextId → Session α TensorId) :=
  match name with
  | "add" => some add
  | "sub" => some sub
  | "mul" => some mul
  | "div" => some div
  | "matmul" => some matmul
  | _ => none

/-- From an array to a single number. -/
def reductionNamed? (name : String) : Option (NDArray α → α) :=
  match name with
  | "reduce_sum" => some NDArray.sum
  | "reduce_mean" => some NDArray.mean
  | "reduce_max" => some NDArray.maximum
  | "reduce_min" => some NDArray.minimum
  | _ => none

end DerivativeEngine.Session
