import DerivativeEngine.Engine
import DerivativeEngine.Rewrite.Derivative

/-!
Taylor polynomials. Each term is a value of a symbolic derivative at the centre over a factorial;
terms too small to matter are left out, and the series ends where a derivative has no finite
value.
-/

namespace DerivativeEngine.Expr

variable {α : Type} [Scalar α] [NumberText α]

def taylorCutoff : α := 1e-12

def taylorTerm (base : Expr α) (k : Nat) (coefficient : α) : Expr α :=
  match k with
  | 0 => num coefficient
  | 1 => bin .mul (num coefficient) base
  | k => bin .mul (num coefficient) (bin .pow base (num (Scalar.ofNat k)))

/-- The terms from degree `k` on, `left` degrees beyond it, from the derivative of order `k` and
the factorial of `k`. -/
def taylorTerms (x : String) (center : α) (base : Expr α) :
    (left k : Nat) → (factorial : α) → Expr α → Run (Retaining (List (Expr α)))
  | left, k, factorial, e => do
    let value ← e.valueAt x center
    if !Scalar.isFinite value then return pure []
    let coefficient := value / factorial
    let terms := if taylorCutoff ≤ Scalar.abs coefficient then [taylorTerm base k coefficient]
      else []
    match left with
    | 0 => return pure terms
    | left + 1 =>
      let next := e.partialDerivative x
      let others ← taylorTerms x center base left (k + 1) (factorial * Scalar.ofNat (k + 1))
        next.value
      return do
        let _ ← next
        return terms ++ (← others)

def sumOfTerms : List (Expr α) → Expr α
  | [] => num 0
  | t :: ts => ts.foldl (bin .add) t

/-- The variable's distance from the centre. -/
def taylorBase (x : String) (center : α) : Expr α :=
  if center == 0 then var x else bin .sub (var x) (num center)

def taylor (e : Expr α) (name : String) (center : α) (order : Nat) :
    Run (Retaining (Expr α)) := do
  let x := canonicalName name
  let terms ← taylorTerms x center (taylorBase x center) order 0 1 e
  return do return sumOfTerms (← terms)

/-- A Taylor polynomial has no negative order. -/
structure NegativeOrder where
  order : Int
  deriving DecidableEq, Repr

def NegativeOrder.message (e : NegativeOrder) : String :=
  s!"Taylor order must be non-negative, got {e.order}"

def taylor? (e : Expr α) (name : String) (center : α) (order : Int) :
    Run (Except NegativeOrder (Retaining (Expr α))) := do
  if order < 0 then return .error ⟨order⟩
  else return .ok (← e.taylor name center order.toNat)

end DerivativeEngine.Expr
