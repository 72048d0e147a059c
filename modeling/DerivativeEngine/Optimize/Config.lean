import DerivativeEngine.Scalar.Basic

/-!
The descent methods and their settings.
-/

namespace DerivativeEngine

inductive DescentMethod where
  | gradientDescent | momentum | adam | conjugateGradient
  deriving DecidableEq, Repr

namespace DescentMethod

def all : List DescentMethod := [gradientDescent, momentum, adam, conjugateGradient]

def name : DescentMethod → String
  | gradientDescent => "gradient_descent"
  | momentum => "momentum"
  | adam => "adam"
  | conjugateGradient => "conjugate_gradient"

def ofName? (name : String) : Option DescentMethod := all.find? fun m => m.name == name

end DescentMethod

/-- The line search of conjugate gradient always starts from a unit step, so that method ignores
the learning rate. A restart of zero stands for one every as many iterations as there are
variables. -/
structure DescentConfig (α : Type) where
  learningRate : α
  momentum : α
  beta1 : α
  beta2 : α
  epsilon : α
  tolerance : α
  maxIterations : Int
  restart : Int
  verbose : Bool
  deriving Repr

namespace DescentConfig

variable {α : Type} [Scalar α]

def standard : DescentConfig α := ⟨0.01, 0.9, 0.9, 0.999, 1e-8, 1e-6, 1000, 0, false⟩

def default (method : DescentMethod) : DescentConfig α :=
  if method == .adam then { standard with learningRate := 0.001 } else standard

/-- The settings that are scalars, by name. -/
def numbers (c : DescentConfig α) : List (String × α) :=
  [("learning_rate", c.learningRate), ("momentum", c.momentum), ("beta1", c.beta1),
    ("beta2", c.beta2), ("epsilon", c.epsilon), ("tolerance", c.tolerance)]

/-- A name that none of them has changes nothing. -/
def setNumber (c : DescentConfig α) (name : String) (x : α) : DescentConfig α :=
  match name with
  | "learning_rate" => { c with learningRate := x }
  | "momentum" => { c with momentum := x }
  | "beta1" => { c with beta1 := x }
  | "beta2" => { c with beta2 := x }
  | "epsilon" => { c with epsilon := x }
  | "tolerance" => { c with tolerance := x }
  | _ => c

end DescentConfig

end DerivativeEngine
