import DerivativeEngine.Optimize.Config
import DerivativeEngine.Scalar.Basic

/-!
One step of a first-order method: from the gradient and what the method remembers to the new
position. A gradient may have more entries than the position, since names that agree share one;
the step then uses the first of them.
-/

namespace DerivativeEngine

structure Moments (α : Type) where
  velocity : List α
  first : List α
  second : List α
  deriving Repr

namespace Moments

variable {α : Type} [Scalar α]

def zero (n : Nat) : Moments α :=
  ⟨List.replicate n 0, List.replicate n 0, List.replicate n 0⟩

end Moments

section Rules

variable {α : Type} [Scalar α]

def norm (v : List α) : α := Scalar.sqrt (Scalar.sum (v.map fun x => x * x))

def dot (v w : List α) : α := Scalar.sum (v.zipWith (· * ·) w)

def weigh (weight : α) (mean x : List α) : List α :=
  mean.zipWith (fun m g => weight * m + (1 - weight) * g) x

def weighSquares (weight : α) (mean x : List α) : List α :=
  mean.zipWith (fun m g => weight * m + (1 - weight) * g * g) x

/-- A power of a finite number that is not finite has left the range. -/
def power (base exponent : α) : Except ArithmeticFault α :=
  let p := Scalar.pow base exponent
  if Scalar.isInfinite p && Scalar.isFinite base then .error .overflow else .ok p

def powNat (base : α) (n : Nat) : Except ArithmeticFault α := power base (Scalar.ofNat n)

/-- Zero has no negative powers. -/
def powInt (base : α) (n : Int) : Except ArithmeticFault α :=
  if base == 0 && n < 0 then .error .divisionByZero else power base (Scalar.ofInt n)

def divide (x y : α) : Except ArithmeticFault α :=
  if y == 0 then .error .divisionByZero else .ok (x / y)

def root (x : α) : Except ArithmeticFault α :=
  if x < 0 then .error .negativeRoot else .ok (Scalar.sqrt x)

/-- The correction `1 - βᵗ` for moments that started at zero. -/
def biasCorrection (beta : α) (t : Nat) : Except ArithmeticFault α := do
  return 1 - (← powNat beta t)

/-- A coordinate moved against its corrected first moment, in units of the root of the second. -/
def adamCoordinate (rate epsilon bias₁ bias₂ x m v : α) : Except ArithmeticFault α := do
  let mHat ← divide m bias₁
  let vHat ← divide v bias₂
  return x - (← divide (rate * mHat) ((← root vHat) + epsilon))

def adamPosition (rate epsilon bias₁ bias₂ : α) :
    List α → List α → List α → Except ArithmeticFault (List α)
  | x :: xs, m :: ms, v :: vs => do
    return (← adamCoordinate rate epsilon bias₁ bias₂ x m v) ::
      (← adamPosition rate epsilon bias₁ bias₂ xs ms vs)
  | _, _, _ => return []

/-- The step number `t`, counted from one. -/
def DescentMethod.step (method : DescentMethod) (c : DescentConfig α) (t : Nat) (s : Moments α)
    (g x : List α) : Except ArithmeticFault (Moments α × List α) :=
  match method with
  | .momentum =>
    let velocity := s.velocity.zipWith (fun v d => c.momentum * v + c.learningRate * d) g
    .ok ({ s with velocity }, x.zipWith (· - ·) velocity)
  | .adam => do
    let bias₁ ← biasCorrection c.beta1 t
    let bias₂ ← biasCorrection c.beta2 t
    let first := weigh c.beta1 s.first g
    let second := weighSquares c.beta2 s.second g
    return ({ s with first, second },
      ← adamPosition c.learningRate c.epsilon bias₁ bias₂ x first second)
  | _ => .ok (s, x.zipWith (fun a d => a - c.learningRate * d) g)

end Rules

end DerivativeEngine
