import DerivativeEngine.Engine

/-!
Composite quadrature over equal panels. Simpson's rule needs an even number of them and takes one
more when given an odd one.
-/

namespace DerivativeEngine

structure NoPanels where
  panels : Int
  deriving DecidableEq, Repr

def NoPanels.message (e : NoPanels) : String :=
  s!"Step count must be positive, got {e.panels}"

namespace Expr

variable {α : Type} [Scalar α] [NumberText α]

/-- The values at `a + i h` added up from the left, for the given `i`. -/
def sumAt (e : Expr α) (x : String) (a h : α) (points : List Nat) : Run α :=
  points.foldlM (fun total i => do return total + (← e.valueAt x (a + Scalar.ofNat i * h))) 0

def trapezoidal (e : Expr α) (x : String) (a b : α) (n : Nat) : Run α := do
  let h := (b - a) / Scalar.ofNat n
  let interior ← e.sumAt x a h (List.range' 1 (n - 1))
  let atA ← e.valueAt x a
  let atB ← e.valueAt x b
  return (h / 2.0) * (atA + 2.0 * interior + atB)

/-- Simpson's rule on an even number of panels. -/
def simpson (e : Expr α) (x : String) (a b : α) (n : Nat) : Run α := do
  let h := (b - a) / Scalar.ofNat n
  let odd ← e.sumAt x a h (List.range' 1 (n / 2) 2)
  let even ← e.sumAt x a h (List.range' 2 (n / 2 - 1) 2)
  let atA ← e.valueAt x a
  let atB ← e.valueAt x b
  return (h / 3.0) * (atA + 4.0 * odd + 2.0 * even + atB)

def integrateTrapezoidal (e : Expr α) (name : String) (a b : α) (n : Int) :
    Run (Except NoPanels α) := do
  if n ≤ 0 then return .error ⟨n⟩
  else return .ok (← e.trapezoidal (canonicalName name) a b n.toNat)

def integrateSimpson (e : Expr α) (name : String) (a b : α) (n : Int) :
    Run (Except NoPanels α) := do
  if n ≤ 0 then return .error ⟨n⟩
  else return .ok (← e.simpson (canonicalName name) a b (n.toNat + n.toNat % 2))

end Expr

end DerivativeEngine
