import DerivativeEngine.Expr.Basic
import DerivativeEngine.Scalar.Basic
import DerivativeEngine.Text.Quoted

/-!
Expressions as text: infix source that reads back, and an indented outline with a line for each
node.
-/

namespace DerivativeEngine

namespace Expr

variable {α : Type} [Scalar α] [NumberText α]

/-- Source that is read as exactly this number; a nan is written as a quotient. -/
def numberSource (x : α) : String :=
  if Scalar.isNaN x then "(0/0)"
  else if Scalar.isFinite x then NumberText.shortest x
  else if 0 < x then "1e999"
  else "-1e999"

mutual
/-- Every operator with two operands is in brackets. An operand that is a number is too, since
a minus and a number would be read as one number. -/
def toSource : Expr α → String
  | num x => numberSource x
  | var name => name
  | bin op l r => "(" ++ toSource l ++ " " ++ op.text ++ " " ++ toSource r ++ ")"
  | un op (num x) => op.text ++ "(" ++ numberSource x ++ ")"
  | un op e => op.text ++ toSource e
  | call name args => name ++ "(" ++ ", ".intercalate (toSources args) ++ ")"
  | tensor t => "TENSOR" ++ Text.tuple t.shape
def toSources : List (Expr α) → List String
  | [] => []
  | e :: es => toSource e :: toSources es
end

/-- Two blanks for each level; a level below zero has none. -/
def pad (indent : Int) : String := String.ofList (List.replicate (2 * indent.toNat) ' ')

mutual
/-- The lines of the outline; `refcount` tells how often a tensor is held. -/
def outlineLines (refcount : Nat → Nat) (indent : Int) : Expr α → List String
  | num x => [pad indent ++ "NUMBER: " ++ NumberText.general 6 x]
  | var name => [pad indent ++ "VARIABLE: " ++ name]
  | bin op l r =>
    (pad indent ++ "BINARY_OP: " ++ op.text) ::
      (outlineLines refcount (indent + 1) l ++ outlineLines refcount (indent + 1) r)
  | un op e => (pad indent ++ "UNARY_OP: " ++ op.text) :: outlineLines refcount (indent + 1) e
  | call name args =>
    (pad indent ++ "FUNCTION: " ++ name ++ "(" ++ toString args.length ++ " args)") ::
      outlineAll refcount (indent + 1) args
  | tensor t =>
    [pad indent ++ "TENSOR: shape=" ++ Text.tuple t.shape ++ " refcount="
      ++ toString (refcount t.handle)]
def outlineAll (refcount : Nat → Nat) (indent : Int) : List (Expr α) → List String
  | [] => []
  | e :: es => outlineLines refcount indent e ++ outlineAll refcount indent es
end

def outline (refcount : Nat → Nat) (indent : Int) (e : Expr α) : String :=
  "\n".intercalate (e.outlineLines refcount indent)

end Expr

end DerivativeEngine
