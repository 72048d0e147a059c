import DerivativeEngine.Engine
import DerivativeEngine.Rewrite.Derivative
import DerivativeEngine.Scalar.Basic

/-!
Factoring, by three attempts in turn: a difference of squares with an integer root, a quadratic
with two integer roots, and a common integer factor of a sum. The quadratic is recognised by its
values, so its shape does not matter; the other two look at the tree.
-/

namespace DerivativeEngine.Expr

variable {α : Type} [Scalar α] [NumberText α]

def factorTolerance : α := 1e-9

/-- `(a, b, c)` when the values at `0`, `1`, `-1` and `2` are those of `a x² + b x + c`. -/
def quadraticCoefficients (e : Expr α) (x : String) : Run (Option (α × α × α)) := do
  let c ← e.valueAt x 0
  let total := (← e.valueAt x 1) - c
  let alternating := (← e.valueAt x (-1)) - c
  let a := (total + alternating) / 2.0
  let b := (total - alternating) / 2.0
  let atTwo ← e.valueAt x 2.0
  return if Scalar.abs (atTwo - (4.0 * a + 2.0 * b + c)) < factorTolerance then some (a, b, c)
    else none

/-- The integer that a number is meant to be. -/
def nearInteger? (x : α) : Option α :=
  match Scalar.nearestInt? x with
  | some n =>
    if Scalar.abs (x - Scalar.ofInt n) < factorTolerance then some (Scalar.ofInt n) else none
  | none => none

def linearFactor (op : BinaryOp) (x : String) (k : α) : Expr α := bin op (var x) (num k)

def factorSquares (x : String) : Expr α → Option (Expr α)
  | bin .sub (bin .pow (var y) (num n)) (num c) =>
    if y == x && near n 2.0 && decide (0 < c) then
      (nearInteger? (Scalar.sqrt c)).map fun k =>
        bin .mul (linearFactor .sub x k) (linearFactor .add x k)
    else none
  | _ => none

def factorQuadratic (x : String) (a b c : α) : Option (Expr α) :=
  if Scalar.abs a ≤ factorTolerance then none
  else
    let discriminant := b * b - 4.0 * a * c
    if discriminant < 0 then none
    else
      let root := Scalar.sqrt discriminant
      match nearInteger? ((-b + root) / (2.0 * a)), nearInteger? ((-b - root) / (2.0 * a)) with
      | some r₁, some r₂ =>
        let product := bin .mul (linearFactor .sub x r₁) (linearFactor .sub x r₂)
        some (if Scalar.abs (a - 1) < factorTolerance then product else bin .mul (num a) product)
      | _, _ => none

def integerMagnitude (x : α) : Except ArithmeticFault Nat :=
  match Scalar.nearestInt? (Scalar.abs x) with
  | some n => .ok n.natAbs
  | none => .error (if Scalar.isNaN x then .notANumber else .overflow)

/-- The common divisor of a coefficient and a constant; a vanishing constant has any. -/
def commonDivisor (coefficient constant : α) : Except ArithmeticFault α :=
  if factorTolerance < Scalar.abs constant then do
    let a ← integerMagnitude coefficient
    let b ← integerMagnitude constant
    return Scalar.ofNat (Nat.gcd a b)
  else return Scalar.abs coefficient

def factorCommon (e : Expr α) : Except ArithmeticFault (Option (Retaining (Expr α))) :=
  match e with
  | bin .add (bin .mul (num k) t) (num c) => do
    let d ← commonDivisor k c
    if d ≤ 1 + factorTolerance then return none
    else return some do
      return bin .mul (num d) (bin .add (bin .mul (num (k / d)) (← t.clone)) (num (c / d)))
  | _ => return none

def factor (e : Expr α) (name : String) : Run (Except ArithmeticFault (Retaining (Expr α))) := do
  let x := canonicalName name
  match e.factorSquares x with
  | some product => return .ok (pure product)
  | none =>
    let coefficients ← e.quadraticCoefficients x
    match coefficients.bind fun (a, b, c) => factorQuadratic x a b c with
    | some product => return .ok (pure product)
    | none => return e.factorCommon.map fun product? => product?.getD e.clone

theorem factor_result (e : Expr α) (name : String) (engine : Engine) :
    (e.factor name engine).1 =
      match e.factorSquares (canonicalName name) with
      | some p => .ok (pure p)
      | none =>
        match (e.quadraticCoefficients (canonicalName name) engine).1.bind fun (a, b, c) =>
            factorQuadratic (canonicalName name) a b c with
        | some p => .ok (pure p)
        | none => e.factorCommon.map fun p? => p?.getD e.clone := by
  cases squared : e.factorSquares (canonicalName name) with
  | some p =>
    simp only [factor, squared]
    rfl
  | none =>
    simp only [factor, squared, bind, StateT.bind]
    rcases e.quadraticCoefficients (canonicalName name) engine with ⟨sampled, engine'⟩
    dsimp only
    cases Option.bind sampled fun (a, b, c) => factorQuadratic (canonicalName name) a b c with
    | some p => rfl
    | none => rfl

end DerivativeEngine.Expr
