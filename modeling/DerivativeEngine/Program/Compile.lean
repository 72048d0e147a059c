import DerivativeEngine.Program.Basic

/-!
Expressions as programs, in post-order. Only an operator without an opcode cannot be compiled. A
tensor becomes the constant it stands for.
-/

namespace DerivativeEngine

structure NoOpcode where
  operator : String
  deriving DecidableEq, Repr

namespace Expr

variable {α : Type}

def letterSlot (name : String) : Int :=
  match Bindings.letterIndex? name with
  | some i => i
  | none => -1

def binaryCode (op : BinaryOp) : Except NoOpcode (Instruction α) :=
  match op with
  | .unknown t => .error ⟨t⟩
  | op => .ok (.binary op)

def unaryCode (op : UnaryOp) : Except NoOpcode (Instruction α) :=
  match op with
  | .unknown t => .error ⟨t⟩
  | op => .ok (.unary op)

mutual
def code : Expr α → Except NoOpcode (Program α)
  | num x => return [.const x]
  | var name => return [.load (letterSlot name) name]
  | bin op l r => do return (← code l) ++ (← code r) ++ [← binaryCode op]
  | un op e => do return (← code e) ++ [← unaryCode op]
  | call name args => do return (← codeAll args) ++ [.call name args.length]
  | tensor t => return [.const t.mean]
def codeAll : List (Expr α) → Except NoOpcode (Program α)
  | [] => return []
  | e :: es => do return (← code e) ++ (← codeAll es)
end

def compile (e : Expr α) : Except NoOpcode (Program α) := do return (← e.code) ++ [.halt]

end Expr

end DerivativeEngine
