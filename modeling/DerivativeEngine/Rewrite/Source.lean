import DerivativeEngine.Equation.Closed
import DerivativeEngine.Rewrite.Antiderivative
import DerivativeEngine.Rewrite.Factor
import DerivativeEngine.Rewrite.Taylor
import DerivativeEngine.Source.Reading

/-!
Rewriting from source to source: the text is read, the tree rewritten, and the result printed.
-/

namespace DerivativeEngine

inductive SourceRewrite (α : Type) where
  | differentiate
  | simplify
  /-- The antiderivative is simplified. -/
  | integrate
  | factor
  | taylor (center : α) (order : Int)

inductive SourceFailure where
  | read (e : ReadFailure)
  | fault (e : ArithmeticFault)
  | order (e : Expr.NegativeOrder)
  deriving DecidableEq, Repr

namespace SourceRewrite

variable {α : Type} [Scalar α] [NumberText α]

/-- The centre and the order count for Taylor polynomials alone. -/
def ofName? (name : String) (center : α) (order : Int) : Option (SourceRewrite α) :=
  match name with
  | "differentiate" => some differentiate
  | "simplify" => some simplify
  | "integrate" => some integrate
  | "factor" => some factor
  | "taylor" => some (taylor center order)
  | _ => none

def onTree (f : SourceRewrite α) (e : Expr α) (name : String) :
    Run (Except SourceFailure (Retaining (Expr α))) := do
  match f with
  | differentiate => return .ok (e.partialDerivative name)
  | simplify => return .ok e.simplify
  | integrate => return .ok (do (← e.integrate name).simplify)
  | factor => return (← e.factor name).mapError .fault
  | taylor center order => return (← e.taylor? name center order).mapError .order

def onSource (f : SourceRewrite α) (source name : String) :
    Run (Except SourceFailure String) := do
  match ← Source.parse source none {} with
  | .error e => return .error (.read e)
  | .ok e => return (← f.onTree e name).map fun r => r.value.toSource

end SourceRewrite

namespace Source

variable {α : Type} [Scalar α] [NumberText α]

/-- The solutions of an equation that is given as text. -/
def solve (source name : String) : Run (Except SourceFailure (SolveResult α)) := do
  match ← parse source none {} with
  | .error e => return .error (.read e)
  | .ok (e : Expr α) => return (← e.solve name).mapError .fault

end Source

end DerivativeEngine
