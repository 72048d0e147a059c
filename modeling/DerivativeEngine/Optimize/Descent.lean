import DerivativeEngine.Optimize.Step
import DerivativeEngine.Rewrite.Gradient
import DerivativeEngine.Source.Reading

/-!
Minimising an expression by descent along its symbolic gradient. The gradient is derived once;
each iteration takes its value at the position, stops if it is small or not finite, and moves.
Conjugate gradient looks for a step that lowers the objective by halving, first along its own
direction and then straight downhill.
-/

namespace DerivativeEngine

structure DescentProblem (α : Type) where
  objective : Expr α
  gradient : Gradient α

inductive DescentExit where
  | converged
  | notFinite
  | noDecrease
  | exhausted (limit : Int)
  deriving DecidableEq, Repr

def DescentExit.message : DescentExit → String
  | converged => ""
  | notFinite => "Gradient is not finite"
  | noDecrease => "Line search failed to decrease the objective"
  | exhausted limit => s!"Max iterations ({limit}) reached"

structure DescentResult (α : Type) where
  solution : List α
  finalValue : α
  iterations : Nat
  exit : DescentExit
  history : List α
  names : List String

namespace DescentResult

variable {α : Type}

def converged (r : DescentResult α) : Bool := r.exit == .converged

/-- The solution by names; of names that agree the last value counts. -/
def byName (r : DescentResult α) : List (String × α) := lastValues (r.names.zip r.solution)

end DescentResult

/-- A run of iterations: where it ended and why, and the values on the way if they were wanted. -/
structure Descent (α : Type) where
  position : Bindings α
  iterations : Nat
  exit : DescentExit
  history : List α

namespace DescentProblem

variable {α : Type} [Scalar α] [NumberText α]

def value (p : DescentProblem α) (b : Bindings α) : Run α := p.objective.run (some b)

/-- An iteration as the debug level shows it. The objective is evaluated for the message, which
draws from the stream if the objective does. -/
def sayIteration (p : DescentProblem α) (method : DescentMethod) (iteration : Nat)
    (b : Bindings α) (size : α) : Run Unit := do
  if ← Run.debugEnabled .optimize false then
    let f ← p.value b
    let x := ", ".intercalate (b.values.map (NumberText.general 6))
    Run.debug .optimize fun _ =>
      s!"{method.name} iter {iteration}: f={NumberText.scientific 6 f} " ++
        s!"|g|={NumberText.scientific 3 size} x={x}"

/-- Why no step is taken from a position with a gradient of this size. -/
def exitAt (c : DescentConfig α) (size : α) : Option DescentExit :=
  if size < c.tolerance then some .converged
  else if !Scalar.isFinite size then some .notFinite
  else none

/-- The history, newest first, with the value at a new position if it is wanted. -/
def noted (p : DescentProblem α) (c : DescentConfig α) (b : Bindings α) (seen : List α) :
    Run (List α) := do
  if c.verbose then return (← p.value b) :: seen else return seen

/-- First-order iterations, at most `left` after `done` of them. -/
def firstOrder (p : DescentProblem α) (method : DescentMethod) (c : DescentConfig α) :
    (left done : Nat) → Moments α → Bindings α → (seen : List α) →
    Run (Except ArithmeticFault (Descent α))
  | 0, done, _, b, seen => return .ok ⟨b, done, .exhausted c.maxIterations, seen.reverse⟩
  | left + 1, done, s, b, seen => do
    let g ← p.gradient.run b
    let size := norm g
    p.sayIteration method done b size
    match exitAt c size with
    | some exit => return .ok ⟨b, done, exit, seen.reverse⟩
    | none =>
      match method.step c (done + 1) s g b.values with
      | .error e => return .error e
      | .ok (s, values) =>
        let b := { b with values }
        let seen ← p.noted c b seen
        p.firstOrder method c left (done + 1) s b seen

def halvings : Nat := 20

def advanced (x d : List α) (step : α) : List α := x.zipWith (fun a b => a + step * b) d

/-- The first of the steps `step, step / 2, …` that brings the objective below `bound`. -/
def searchFrom (p : DescentProblem α) (b : Bindings α) (d : List α) (bound : α) :
    Nat → α → Run (Option α)
  | 0, _ => return none
  | n + 1, step => do
    if (← p.value { b with values := advanced b.values d step }) < bound then return some step
    else p.searchFrom b d bound n (step * 0.5)

def lineSearch (p : DescentProblem α) (b : Bindings α) (d : List α) : Run (Option α) := do
  let fx ← p.value b
  p.searchFrom b d fx halvings 1

/-- The weight of the last direction in the next, never negative. -/
def conjugateWeight (g previous : List α) : α :=
  let size := dot previous previous
  if 0 < size then Scalar.max 0 (dot g (g.zipWith (· - ·) previous) / size) else 0

/-- The direction of an iteration from the last gradient and direction, where there are some to
be used, and whether it is the steepest one by construction. -/
def nextDirection (g : List α) (last : Option (List α × List α)) : List α × Bool :=
  let steepest := g.map (- ·)
  match last with
  | none => (steepest, true)
  | some (previous, direction) =>
    let beta := conjugateWeight g previous
    (steepest.zipWith (fun s d => s + beta * d) direction, false)

/-- A step along the direction, or else along the steepest one. -/
def descend (p : DescentProblem α) (b : Bindings α) (g : List α)
    (last : Option (List α × List α)) : Run (Option (List α × α)) := do
  let steepest := g.map (- ·)
  let (direction, isSteepest) := nextDirection g last
  match ← p.lineSearch b direction with
  | some step => return some (direction, step)
  | none =>
    if isSteepest || direction == steepest then return none
    else return (← p.lineSearch b steepest).map fun step => (steepest, step)

def restartPeriod (c : DescentConfig α) (n : Nat) : Nat :=
  if 0 < c.restart then c.restart.toNat else n

/-- Conjugate-gradient iterations, at most `left` after `done` of them. -/
def conjugateGradient (p : DescentProblem α) (c : DescentConfig α) (period : Nat) :
    (left done : Nat) → Option (List α × List α) → Bindings α → (seen : List α) →
    Run (Descent α)
  | 0, done, _, b, seen => return ⟨b, done, .exhausted c.maxIterations, seen.reverse⟩
  | left + 1, done, last, b, seen => do
    let g ← p.gradient.run b
    let size := norm g
    p.sayIteration .conjugateGradient done b size
    match exitAt c size with
    | some exit => return ⟨b, done, exit, seen.reverse⟩
    | none =>
      match ← p.descend b g (if done % period == 0 then none else last) with
      | none => return ⟨b, done, .noDecrease, seen.reverse⟩
      | some (direction, step) =>
        let b := { b with values := advanced b.values direction step }
        let seen ← p.noted c b seen
        p.conjugateGradient c period left (done + 1) (some (g, direction)) b seen

def descent (p : DescentProblem α) (method : DescentMethod) (c : DescentConfig α)
    (b : Bindings α) : Run (Except ArithmeticFault (Descent α)) := do
  let n := b.values.length
  if method == .conjugateGradient then
    return .ok (← p.conjugateGradient c (restartPeriod c n) c.maxIterations.toNat 0 none b [])
  else p.firstOrder method c c.maxIterations.toNat 0 (.zero n) b []

end DescentProblem

inductive MinimizeError where
  | unknownMethod (name : String)
  | read (e : ReadFailure)
  | lengthMismatch (names values : Nat)
  | noVariables
  | fault (e : ArithmeticFault)
  deriving DecidableEq, Repr

/-- What is said where no part of the engine has words of its own. -/
def MinimizeError.message : MinimizeError → String
  | unknownMethod name => s!"{Text.quoted name} is not a valid OptimizerType"
  | lengthMismatch names values => s!"Expected {names} initial values, got {values}"
  | noVariables => "At least one variable is required"
  | read _ | fault _ => ""

/-- An objective is a tree, or a source to be read first. -/
inductive Objective (α : Type) where
  | tree (e : Expr α)
  | source (s : String)

section Minimize

variable {α : Type} [Scalar α] [NumberText α]

def Objective.read : Objective α → Run (Except MinimizeError (Expr α))
  | .tree e => return .ok e
  | .source s => return (← Source.parse s none {}).mapError .read

def minimizeTree (e : Expr α) (names : List String) (initial : List α) (method : DescentMethod)
    (c : DescentConfig α) : Run (Except MinimizeError (DescentResult α)) := do
  if names.length != initial.length then
    return .error (.lengthMismatch names.length initial.length)
  else if names.isEmpty then return .error .noVariables
  else
    let p : DescentProblem α := ⟨e, (Gradient.ofExpr e names).value⟩
    let start := Bindings.ofPairs (lastValues (p.gradient.names.zip initial))
    match ← p.descent method c start with
    | .error fault => return .error (.fault fault)
    | .ok d =>
      let finalValue ← p.value d.position
      unless d.exit == .converged do
        Run.record .optimize .debug
          s!"{method.name} stopped without converging: {d.exit.message}"
      return .ok ⟨d.position.values, finalValue, d.iterations, d.exit, d.history,
        p.gradient.names⟩

/-- Minimises by the method of the given name. `configure` makes the settings from the method. -/
def minimize (objective : Objective α) (names : List String) (initial : List α) (method : String)
    (configure : DescentMethod → DescentConfig α) :
    Run (Except MinimizeError (DescentResult α)) := do
  match DescentMethod.ofName? method with
  | none => return .error (.unknownMethod method)
  | some m =>
    match ← objective.read with
    | .error e => return .error e
    | .ok e => minimizeTree e names initial m (configure m)

/-- Maximises by minimising the negative; the values reported are those of the objective. -/
def maximize (objective : Objective α) (names : List String) (initial : List α) (method : String)
    (configure : DescentMethod → DescentConfig α) :
    Run (Except MinimizeError (DescentResult α)) := do
  match ← objective.read with
  | .error e => return .error e
  | .ok e =>
    let r ← minimize (.tree (.un .neg e)) names initial method configure
    return r.map fun r =>
      { r with finalValue := -r.finalValue, history := r.history.map (- ·) }

end Minimize

end DerivativeEngine
