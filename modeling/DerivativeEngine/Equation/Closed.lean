import DerivativeEngine.Engine
import DerivativeEngine.Scalar.Basic

/-!
Equations solved in closed form. The left side is sampled: if the values at `0`, `1` and `2` lie
on a line it is solved as linear, and if those at `0` to `3` lie on a parabola, by the quadratic
formula. The tolerances decide what counts as lying on it and as zero.
-/

namespace DerivativeEngine

inductive Unsolved where
  | everyNumber
  | noNumber
  | notQuadratic
  | noRealRoot
  | unsupported
  deriving DecidableEq, Repr

def Unsolved.message : Unsolved → String
  | everyNumber => "Infinite solutions"
  | noNumber => "No solution"
  | notQuadratic => "Equation is linear, not quadratic"
  | noRealRoot => "No real solutions (discriminant < 0)"
  | unsupported => "Equation type not supported (only linear and quadratic)"

structure SolveResult (α : Type) where
  roots : List α
  unsolved : Option Unsolved
  deriving Repr

namespace SolveResult

variable {α : Type}

def found (roots : List α) : SolveResult α := ⟨roots, none⟩

def none (reason : Unsolved) : SolveResult α := ⟨[], some reason⟩

def hasSolution (r : SolveResult α) : Bool := r.unsolved.isNone

def message (r : SolveResult α) : String :=
  match r.unsolved with
  | some reason => reason.message
  | .none => ""

def solutions (r : SolveResult α) : List (Expr α) := r.roots.map .num

/-- The roots as the values of the solutions. -/
def values [Scalar α] [NumberText α] (r : SolveResult α) : Run (List α) :=
  r.solutions.mapM fun e => e.run .none

end SolveResult

namespace Expr

variable {α : Type} [Scalar α]

def linearTolerance : α := 1e-10

def quadraticTolerance : α := 1e-9

def zeroTolerance : α := 1e-12

def vanishes (x : α) : Bool := decide (Scalar.abs x < zeroTolerance)

/-- An equation is solved as the difference of its sides, and any other tree as itself. -/
def zeroForm : Expr α → Expr α
  | bin .eq l r => bin .sub l r
  | e => e

/-- The roots of `a x + b`. -/
def solveLinear (a b : α) : SolveResult α :=
  if vanishes a then .none (if vanishes b then .everyNumber else .noNumber)
  else .found [-b / a]

/-- The roots of `a x² + b x + c`. -/
def solveQuadratic (a b c : α) : Except ArithmeticFault (SolveResult α) :=
  if vanishes a then .ok (.none .notQuadratic)
  else
    let discriminant := b * b - 4.0 * a * c
    if discriminant < -zeroTolerance then .ok (.none .noRealRoot)
    else if vanishes discriminant then .ok (.found [-b / (2.0 * a)])
    else if discriminant < 0 then .error .negativeRoot
    else
      let root := Scalar.sqrt discriminant
      .ok (.found [(-b + root) / (2.0 * a), (-b - root) / (2.0 * a)])

variable [NumberText α]

def linearFit (e : Expr α) (x : String) : Run (Option (α × α)) := do
  let atZero ← e.valueAt x 0
  let slope := (← e.valueAt x 1) - atZero
  let atTwo ← e.valueAt x 2.0
  return if Scalar.abs (atTwo - (2.0 * slope + atZero)) < linearTolerance then
    some (slope, atZero) else none

def quadraticFit (e : Expr α) (x : String) : Run (Option (α × α × α)) := do
  let y₀ ← e.valueAt x 0
  let y₁ ← e.valueAt x 1
  let y₂ ← e.valueAt x 2.0
  let a := (y₂ - 2.0 * y₁ + y₀) / 2.0
  let b := y₁ - y₀ - a
  let atThree ← e.valueAt x 3.0
  return if Scalar.abs (atThree - (9.0 * a + 3.0 * b + y₀)) < quadraticTolerance then
    some (a, b, y₀) else none

def solve (equation : Expr α) (name : String) :
    Run (Except ArithmeticFault (SolveResult α)) := do
  let e := equation.zeroForm
  let x := canonicalName name
  match ← e.linearFit x with
  | some (a, b) => return .ok (solveLinear a b)
  | none =>
    match ← e.quadraticFit x with
    | some (a, b, c) => return solveQuadratic a b c
    | none => return .ok (.none .unsupported)

end Expr

end DerivativeEngine
