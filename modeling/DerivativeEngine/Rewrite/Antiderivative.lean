import DerivativeEngine.Rewrite.Derivative

/-!
Antiderivatives for a fixed set of rules: sums, factors free of the variable, powers of the
variable, and the functions whose antiderivative is elementary, applied to the variable itself.
Anything else gives zero.
-/

namespace DerivativeEngine.Expr

variable {α : Type} [Scalar α]

def integralOfPower (x : String) (n : α) : Expr α :=
  if near n (-1) then apply1 "LN" (var x)
  else bin .div (bin .pow (var x) (num (n + 1))) (num (n + 1))

def integralOfCall (x : String) (name : String) : Expr α :=
  if name == "SIN" then un .neg (apply1 "COS" (var x))
  else if name == "COS" then apply1 "SIN" (var x)
  else if name == "EXP" then apply1 "EXP" (var x)
  else if name == "LN" || name == "LOG" then
    bin .sub (bin .mul (var x) (apply1 "LN" (var x))) (var x)
  else num 0

/-- The antiderivative by the variable of canonical name `x`. -/
def antiderivative (x : String) : Expr α → Retaining (Expr α)
  | num c => pure (bin .mul (num c) (var x))
  | var y =>
    pure (if y == x then bin .div (square (var x)) (num 2.0) else bin .mul (var y) (var x))
  | bin .add l r => do return bin .add (← antiderivative x l) (← antiderivative x r)
  | bin .sub l r => do return bin .sub (← antiderivative x l) (← antiderivative x r)
  | bin .mul l r =>
    if !l.mentions x then do return bin .mul (← l.clone) (← antiderivative x r)
    else if !r.mentions x then do return bin .mul (← r.clone) (← antiderivative x l)
    else pure (num 0)
  | bin .pow (var y) (num n) => pure (if y == x then integralOfPower x n else num 0)
  | un .neg e => do return un .neg (← antiderivative x e)
  | call name [var y] => pure (if y == x then integralOfCall x name else num 0)
  | _ => pure (num 0)

def integrate (e : Expr α) (name : String) : Retaining (Expr α) :=
  e.antiderivative (canonicalName name)

end DerivativeEngine.Expr
