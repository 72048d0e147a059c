import DerivativeEngine.Text.Uppercase

/-!
Expression trees: numbers, variables, operators, calls and tensors used as numbers. A tree may
hold operators and function names that mean nothing; evaluation gives them the value zero and
rewriting leaves them alone. Names are compared as they stand, so a tree is built with names in
canonical form: upper case, and no longer than the lexer keeps them.
-/

namespace DerivativeEngine

inductive BinaryOp where
  | add | sub | mul | div | pow | and | or | gt | lt | ge | le | eq | ne
  | unknown (text : String)
  deriving DecidableEq, Repr

inductive UnaryOp where
  | neg | not
  | unknown (text : String)
  deriving DecidableEq, Repr

namespace BinaryOp

def text : BinaryOp → String
  | add => "+" | sub => "-" | mul => "*" | div => "/" | pow => "^"
  | and => "&&" | or => "||"
  | gt => ">" | lt => "<" | ge => ">=" | le => "<=" | eq => "==" | ne => "!="
  | unknown t => t

def known : List BinaryOp := [add, sub, mul, div, pow, and, or, gt, lt, ge, le, eq, ne]

def ofText (t : String) : BinaryOp :=
  (known.find? fun op => op.text == t).getD (unknown t)

def isComparison : BinaryOp → Bool
  | gt | lt | ge | le | eq | ne => true
  | _ => false

def isLogical : BinaryOp → Bool
  | and | or => true
  | _ => false

end BinaryOp

namespace UnaryOp

def text : UnaryOp → String
  | neg => "-" | not => "!"
  | unknown t => t

def ofText (t : String) : UnaryOp :=
  if t == "-" then neg else if t == "!" then not else unknown t

end UnaryOp

/-- A shared tensor as an expression sees it: its identity, its shape, and the mean of its
elements, which is its value. -/
structure TensorLiteral (α : Type) where
  handle : Nat
  shape : List Nat
  mean : α
  deriving Repr

inductive Expr (α : Type) where
  | num (value : α)
  | var (name : String)
  | bin (op : BinaryOp) (left right : Expr α)
  | un (op : UnaryOp) (operand : Expr α)
  | call (name : String) (args : List (Expr α))
  | tensor (literal : TensorLiteral α)
  deriving Repr

/-- Identifiers keep at most this many characters. -/
def maxNameLength : Nat := 31

def canonicalName (name : String) : String :=
  String.ofList ((Text.upper name).toList.take maxNameLength)

namespace Expr

variable {α : Type}

instance [Inhabited α] : Inhabited (Expr α) := ⟨.num default⟩

mutual
/-- Operators and calls in the tree. -/
def countOperations : Expr α → Nat
  | num _ => 0
  | var _ => 0
  | bin _ l r => 1 + countOperations l + countOperations r
  | un _ e => 1 + countOperations e
  | call _ args => 1 + countOperationsAll args
  | tensor _ => 0
def countOperationsAll : List (Expr α) → Nat
  | [] => 0
  | e :: es => countOperations e + countOperationsAll es
end

mutual
def mentions (name : String) : Expr α → Bool
  | num _ => false
  | var x => x == name
  | bin _ l r => mentions name l || mentions name r
  | un _ e => mentions name e
  | call _ args => mentionsAny name args
  | tensor _ => false
def mentionsAny (name : String) : List (Expr α) → Bool
  | [] => false
  | e :: es => mentions name e || mentionsAny name es
end

def containsVariable (e : Expr α) (name : String) : Bool := e.mentions (canonicalName name)

mutual
/-- The tensors of the tree, from left to right and as often as they stand in it. -/
def handles : Expr α → List Nat
  | num _ => []
  | var _ => []
  | bin _ l r => handles l ++ handles r
  | un _ e => handles e
  | call _ args => handlesAll args
  | tensor t => [t.handle]
def handlesAll : List (Expr α) → List Nat
  | [] => []
  | e :: es => handles e ++ handlesAll es
end

end Expr

end DerivativeEngine
