import DerivativeEngine.Rewrite.Simplify

/-!
Derivatives by the rules of calculus, left as the rules give them. What no rule covers, such as
an exponent that holds the variable, a condition or a rounding, has derivative zero.
-/

namespace DerivativeEngine.Expr

variable {α : Type} [Scalar α]

def apply1 (name : String) (arg : Expr α) : Expr α := call name [arg]

def square (e : Expr α) : Expr α := bin .pow e (num 2.0)

/-- The derivative of a call from its argument and the derivative of that. -/
def chainRule (name : String) (arg darg : Expr α) : Retaining (Expr α) :=
  if name == "SIN" then do return bin .mul (apply1 "COS" (← arg.clone)) darg
  else if name == "COS" then do return bin .mul (un .neg (apply1 "SIN" (← arg.clone))) darg
  else if name == "TAN" then do
    return bin .mul (bin .div (num 1) (square (apply1 "COS" (← arg.clone)))) darg
  else if name == "LOG" || name == "LN" then do return bin .div darg (← arg.clone)
  else if name == "EXP" then do return bin .mul (apply1 "EXP" (← arg.clone)) darg
  else if name == "SQRT" then do
    return bin .div darg (bin .mul (num 2.0) (apply1 "SQRT" (← arg.clone)))
  else pure (num 0)

/-- The derivative by the variable of canonical name `x`. -/
def derivative (x : String) : Expr α → Retaining (Expr α)
  | num _ => pure (num 0)
  | var y => pure (num (if y == x then 1 else 0))
  | bin .add l r => do return bin .add (← derivative x l) (← derivative x r)
  | bin .sub l r => do return bin .sub (← derivative x l) (← derivative x r)
  | bin .mul l r => do
    return bin .add (bin .mul (← derivative x l) (← r.clone))
      (bin .mul (← l.clone) (← derivative x r))
  | bin .div l r => do
    let numerator := bin .sub (bin .mul (← derivative x l) (← r.clone))
      (bin .mul (← l.clone) (← derivative x r))
    return bin .div numerator (square (← r.clone))
  | bin .pow l r =>
    if r.mentions x then pure (num 0)
    else do
      let reduced := bin .pow (← l.clone) (bin .sub (← r.clone) (num 1))
      return bin .mul (bin .mul (← r.clone) reduced) (← derivative x l)
  | un .neg e => do return un .neg (← derivative x e)
  | call name [arg] => do chainRule name arg (← derivative x arg)
  | _ => pure (num 0)

def differentiate (e : Expr α) (name : String) : Retaining (Expr α) :=
  e.derivative (canonicalName name)

/-- The derivative, simplified. -/
def partialDerivative (e : Expr α) (name : String) : Retaining (Expr α) := do
  simplify (← e.differentiate name)

end DerivativeEngine.Expr
