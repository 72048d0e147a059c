import DerivativeEngine.Equation.Closed
import DerivativeEngine.Rewrite.Derivative

/-!
Newton's method with the symbolic derivative. The iteration ends at a small value, at a flat
derivative, when a step leaves the finite range, when a late step no longer moves, or at the
limit of iterations.
-/

namespace DerivativeEngine

inductive NewtonExit where
  | smallValue
  | flatDerivative
  | diverged
  | smallStep
  | exhausted
  deriving DecidableEq, Repr

structure NewtonResult (α : Type) where
  solution : α
  exit : NewtonExit
  iterations : Int
  /-- The magnitude of the last value taken; none before the first. -/
  finalError : Option α

namespace NewtonResult

variable {α : Type}

def converged (r : NewtonResult α) : Bool := r.exit == .smallValue || r.exit == .smallStep

def errorText [NumberText α] (r : NewtonResult α) : String :=
  match r.finalError with
  | some x => NumberText.scientific 6 x
  | none => "inf"

def message [NumberText α] (r : NewtonResult α) : String :=
  match r.exit with
  | .smallValue | .smallStep => ""
  | .flatDerivative =>
    s!"Derivative is zero at x={NumberText.fixedPoint 6 r.solution}, cannot continue"
  | .diverged => "Solution diverged (x -> infinity)"
  | .exhausted => s!"Max iterations ({r.iterations}) reached, error={r.errorText}"

end NewtonResult

namespace Expr

variable {α : Type} [Scalar α]

def flatTolerance : α := 1e-15

def divergenceLimit : α := 1e10

variable [NumberText α]

/-- At most `left` iterations from `x` on, after `done` of them; `limit` is the number allowed. -/
def newtonSteps (f df : Expr α) (name : String) (tolerance : α) (limit : Int) :
    (left done : Nat) → α → Option α → Run (NewtonResult α)
  | 0, _, x, finalError => return ⟨x, .exhausted, limit, finalError⟩
  | left + 1, done, x, _ => do
    let iteration := done + 1
    let fx ← f.valueAt name x
    let dfx ← df.valueAt name x
    let finalError := Scalar.abs fx
    if finalError < tolerance then
      Run.record .solve .debug
        s!"Newton converged to {NumberText.general 12 x} after {iteration} iterations"
      return ⟨x, .smallValue, iteration, some finalError⟩
    else if Scalar.abs dfx < flatTolerance then
      return ⟨x, .flatDerivative, iteration, some finalError⟩
    else
      let next := x - fx / dfx
      if !Scalar.isFinite next || divergenceLimit < Scalar.abs next then
        return ⟨x, .diverged, iteration, some finalError⟩
      else if 11 < iteration && Scalar.abs (next - x) < flatTolerance then
        return ⟨next, .smallStep, iteration, some finalError⟩
      else newtonSteps f df name tolerance limit left iteration next (some finalError)

def solveNumerically (equation : Expr α) (name : String) (guess tolerance : α)
    (maxIterations : Int) : Run (NewtonResult α) :=
  let x := canonicalName name
  let f := equation.zeroForm
  newtonSteps f (f.partialDerivative x).value x tolerance maxIterations maxIterations.toNat 0
    guess none

end Expr

end DerivativeEngine
