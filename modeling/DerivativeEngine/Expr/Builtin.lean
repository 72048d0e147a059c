import DerivativeEngine.Expr.Basic
import DerivativeEngine.RandomStream
import DerivativeEngine.Scalar.Basic

/-!
The operators and functions of expressions. They are total and permissive: outside its domain a
function is zero, and so are a quotient by zero, an unknown function and a call with the wrong
number of arguments. Truth is any number but zero, and a condition is one or zero.
-/

namespace DerivativeEngine

inductive UnaryFunction where
  | abs | round | floor | ceil | sqrt | sin | cos | tan | asin | acos | atan
  | log | log10 | exp | sgn
  deriving DecidableEq, Repr

inductive BinaryFunction where
  | min | max | pow | atan2 | mod
  deriving DecidableEq, Repr

inductive Builtin where
  | random
  | unary (f : UnaryFunction)
  | binary (f : BinaryFunction)
  deriving DecidableEq, Repr

namespace Builtin

def arity : Builtin → Nat
  | random => 0
  | unary _ => 1
  | binary _ => 2

/-- The functions by their names in upper case; some have two. -/
def table : List (String × Builtin) :=
  [("RANDOM", random), ("RND", random),
    ("ABS", unary .abs), ("ROUND", unary .round), ("FLOOR", unary .floor),
    ("CEIL", unary .ceil), ("INT", unary .floor), ("SQRT", unary .sqrt),
    ("SIN", unary .sin), ("COS", unary .cos), ("TAN", unary .tan),
    ("ASIN", unary .asin), ("ACOS", unary .acos), ("ATAN", unary .atan),
    ("LOG", unary .log), ("LN", unary .log), ("LOG10", unary .log10),
    ("EXP", unary .exp), ("SGN", unary .sgn),
    ("MIN", binary .min), ("MAX", binary .max), ("POW", binary .pow),
    ("ATAN2", binary .atan2), ("MOD", binary .mod)]

def ofName? (name : String) : Option Builtin := table.lookup name

end Builtin

section Semantics

variable {α : Type} [Scalar α]

open Scalar (ofBool)

def equalityTolerance : α := 1e-12

def truth (x : α) : Bool := !(x == 0)

/-- Halves go away from zero. -/
def roundHalfAway (x : α) : α :=
  if !Scalar.isFinite x then x
  else if 0 ≤ x then Scalar.floor (x + 0.5)
  else -Scalar.floor (-x + 0.5)

def UnaryFunction.apply : UnaryFunction → α → α
  | abs, x => Scalar.abs x
  | round, x => roundHalfAway x
  | floor, x => if Scalar.isFinite x then Scalar.floor x else x
  | ceil, x => if Scalar.isFinite x then Scalar.ceil x else x
  | sqrt, x => if 0 ≤ x then Scalar.sqrt x else 0
  | sin, x => if Scalar.isInfinite x then 0 else Scalar.sin x
  | cos, x => if Scalar.isInfinite x then 0 else Scalar.cos x
  | tan, x => if Scalar.isInfinite x then 0 else Scalar.tan x
  | asin, x => if x < -1 || 1 < x then 0 else Scalar.asin x
  | acos, x => if x < -1 || 1 < x then 0 else Scalar.acos x
  | atan, x => Scalar.atan x
  | log, x => if 0 < x then Scalar.log x else 0
  | log10, x => if 0 < x then Scalar.log10 x else 0
  | exp, x => Scalar.exp x
  | sgn, x => if 0 < x then 1 else if x < 0 then -1 else 0

/-- Of a number and a nan, `MIN` and `MAX` take the number. -/
def BinaryFunction.apply : BinaryFunction → α → α → α
  | min, x, y => if Scalar.isNaN x then y else if Scalar.isNaN y then x else Scalar.min x y
  | max, x, y => if Scalar.isNaN x then y else if Scalar.isNaN y then x else Scalar.max x y
  | pow, x, y => Scalar.pow x y
  | atan2, x, y => Scalar.atan2 x y
  | mod, x, y => if y == 0 || Scalar.isInfinite x then 0 else Scalar.remainder x y

def BinaryOp.apply : BinaryOp → α → α → α
  | add, a, b => a + b
  | sub, a, b => a - b
  | mul, a, b => a * b
  | div, a, b => if b == 0 then 0 else a / b
  | pow, a, b => Scalar.pow a b
  | and, a, b => ofBool (truth a && truth b)
  | or, a, b => ofBool (truth a || truth b)
  | gt, a, b => ofBool (decide (b < a))
  | lt, a, b => ofBool (decide (a < b))
  | ge, a, b => ofBool (decide (b ≤ a))
  | le, a, b => ofBool (decide (a ≤ b))
  | eq, a, b => ofBool (decide (Scalar.abs (a - b) < equalityTolerance))
  | ne, a, b => ofBool (!decide (Scalar.abs (a - b) < equalityTolerance))
  | unknown _, _, _ => 0

def UnaryOp.apply : UnaryOp → α → α
  | neg, a => -a
  | not, a => ofBool (a == 0)
  | unknown _, _ => 0

/-- Only `RANDOM` touches the stream. -/
def callFunction (name : String) (args : List α) (s : RandomStream) : α × RandomStream :=
  match Builtin.ofName? (Text.upper name), args with
  | some .random, [] => let (n, s) := s.draw; (Scalar.ofDraw n, s)
  | some (.unary f), [x] => (f.apply x, s)
  | some (.binary f), [x, y] => (f.apply x y, s)
  | _, _ => (0, s)

end Semantics

end DerivativeEngine
