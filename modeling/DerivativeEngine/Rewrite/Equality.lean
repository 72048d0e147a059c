import DerivativeEngine.Expr.Basic
import DerivativeEngine.Scalar.Basic

/-!
Structural equality of trees. Numbers are equal when they differ by less than a small tolerance,
so an infinity equals nothing; tensors are equal when they are the same one.
-/

namespace DerivativeEngine.Expr

variable {α : Type} [Scalar α]

def numberTolerance : α := 1e-12

def near (x y : α) : Bool := decide (Scalar.abs (x - y) < numberTolerance)

mutual
def equal : Expr α → Expr α → Bool
  | num x, num y => near x y
  | var x, var y => x == y
  | bin op l r, bin op' l' r' => op == op' && equal l l' && equal r r'
  | un op e, un op' e' => op == op' && equal e e'
  | call f args, call f' args' => f == f' && equalAll args args'
  | tensor t, tensor t' => t.handle == t'.handle
  | _, _ => false
def equalAll : List (Expr α) → List (Expr α) → Bool
  | [], [] => true
  | e :: es, e' :: es' => equal e e' && equalAll es es'
  | _, _ => false
end

end DerivativeEngine.Expr
