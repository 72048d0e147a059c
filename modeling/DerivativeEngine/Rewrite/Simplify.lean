import DerivativeEngine.Expr.Builtin
import DerivativeEngine.Rewrite.Copy
import DerivativeEngine.Rewrite.Equality

/-!
Simplification from the leaves up: constants are folded by the operators' own arithmetic, the
units and zeros of the operators are removed, and sums of like terms are added up. Calls are
never folded.
-/

namespace DerivativeEngine.Expr

variable {α : Type} [Scalar α]

def isNumber (x : α) : Expr α → Bool
  | num y => y == x
  | _ => false

/-- A product with a number as that number and the rest; all else has coefficient one. -/
def splitCoefficient : Expr α → α × Expr α
  | bin .mul (num x) r => (x, r)
  | bin .mul l (num x) => (x, l)
  | e => (1, e)

/-- The sum of two terms that differ in their coefficients alone. -/
def combineLikeTerms (left right : Expr α) : Option (Retaining (Expr α)) :=
  let (a, t) := splitCoefficient left
  let (b, t') := splitCoefficient right
  if t.equal t' then
    some (
      if near (a + b) 0 then pure (num 0)
      else if near (a + b) 1 then t.clone
      else do return bin .mul (num (a + b)) (← t.clone))
  else none

/-- The operator on operands that are simple already and not both numbers. -/
def simplifyOperands (op : BinaryOp) (l r : Expr α) : Retaining (Expr α) :=
  match op with
  | .add =>
    if r.isNumber 0 then pure l
    else if l.isNumber 0 then pure r
    else (combineLikeTerms l r).getD (pure (bin .add l r))
  | .sub => if r.isNumber 0 then pure l else pure (bin .sub l r)
  | .mul =>
    if r.isNumber 0 || l.isNumber 0 then pure (num 0)
    else if r.isNumber 1 then pure l
    else if l.isNumber 1 then pure r
    else pure (bin .mul l r)
  | .div =>
    if l.isNumber 0 then pure (num 0)
    else if r.isNumber 1 then pure l
    else pure (bin .div l r)
  | .pow =>
    if r.isNumber 0 then pure (num 1)
    else if r.isNumber 1 then pure l
    else if l.isNumber 0 then pure (num 0)
    else if l.isNumber 1 then pure (num 1)
    else pure (bin .pow l r)
  | op => pure (bin op l r)

def simplifyBinary (op : BinaryOp) (l r : Expr α) : Retaining (Expr α) :=
  match l, r with
  | num x, num y => pure (num (op.apply x y))
  | l, r => simplifyOperands op l r

/-- Two minus signs cancel. -/
def simplifyUnary (op : UnaryOp) (e : Expr α) : Expr α :=
  match op, e with
  | op, num x => num (op.apply x)
  | .neg, un .neg e => e
  | op, e => un op e

mutual
def simplify : Expr α → Retaining (Expr α)
  | num x => pure (num x)
  | var name => pure (var name)
  | bin op l r => do simplifyBinary op (← simplify l) (← simplify r)
  | un op e => do return simplifyUnary op (← simplify e)
  | call name args => do return call name (← simplifyAll args)
  | tensor t => clone (tensor t)
def simplifyAll : List (Expr α) → Retaining (List (Expr α))
  | [] => pure []
  | e :: es => do return (← simplify e) :: (← simplifyAll es)
end

end DerivativeEngine.Expr
