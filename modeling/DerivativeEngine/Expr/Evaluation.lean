import DerivativeEngine.Expr.Bindings
import DerivativeEngine.Expr.Builtin

/-!
The value of an expression under bindings. Operands are evaluated from left to right, which only
the random stream can tell; unbound variables are zero.
-/

namespace DerivativeEngine.Expr

variable {α : Type} [Scalar α]

def valueOf (b : Option (Bindings α)) (name : String) : α :=
  ((b.bind fun b => b.lookup? name)).getD 0

mutual
def evaluate (b : Option (Bindings α)) : Expr α → RandomStream → α × RandomStream
  | num x, s => (x, s)
  | var name, s => (valueOf b name, s)
  | bin op l r, s =>
    let (x, s) := evaluate b l s
    let (y, s) := evaluate b r s
    (op.apply x y, s)
  | un op e, s =>
    let (x, s) := evaluate b e s
    (op.apply x, s)
  | call name args, s =>
    let (xs, s) := evaluateAll b args s
    callFunction name xs s
  | tensor t, s => (t.mean, s)
def evaluateAll (b : Option (Bindings α)) : List (Expr α) → RandomStream → List α × RandomStream
  | [], s => ([], s)
  | e :: es, s =>
    let (x, s) := evaluate b e s
    let (xs, s) := evaluateAll b es s
    (x :: xs, s)
end

end DerivativeEngine.Expr
