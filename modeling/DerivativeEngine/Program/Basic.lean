import DerivativeEngine.Expr.Builtin
import DerivativeEngine.Expr.Bindings

/-!
Programs for a stack machine. An instruction pushes a constant or a variable, or takes its
operands from the stack, the last one on top, and pushes the result. A variable carries both of
its addresses, the name and the letter slot, since the bindings decide which one counts.
-/

namespace DerivativeEngine

inductive Instruction (α : Type) where
  | const (value : α)
  | load (slot : Int) (name : String)
  | binary (op : BinaryOp)
  | unary (op : UnaryOp)
  | call (name : String) (argc : Int)
  | halt
  deriving Repr

def BinaryOp.opcode : BinaryOp → String
  | add => "ADD" | sub => "SUBTRACT" | mul => "MULTIPLY" | div => "DIVIDE" | pow => "POWER"
  | and => "AND" | or => "OR"
  | gt => "GREATER" | lt => "LESS" | ge => "GREATER_EQ" | le => "LESS_EQ"
  | eq => "EQUAL" | ne => "NOT_EQUAL"
  | unknown t => t

def UnaryOp.opcode : UnaryOp → String
  | neg => "NEGATE" | not => "NOT"
  | unknown t => t

namespace Instruction

variable {α : Type}

/-- The instruction of a bare opcode, with no constant, name or arguments. -/
def ofOpcode? [Zero α] (t : String) : Option (Instruction α) :=
  if t == "PUSH_CONST" then some (const 0)
  else if t == "PUSH_VAR" then some (load (-1) "")
  else if t == "CALL" then some (call "" 0)
  else if t == "HALT" then some halt
  else if t == "NEGATE" then some (unary .neg)
  else if t == "NOT" then some (unary .not)
  else (BinaryOp.known.find? fun op => op.opcode == t).map binary

def text [NumberText α] : Instruction α → String
  | const x => "PUSH_CONST " ++ NumberText.general 17 x
  | load slot name => s!"PUSH_VAR {slot} ({name})"
  | binary op => op.opcode
  | unary op => op.opcode
  | call name argc => s!"CALL {name}({argc})"
  | halt => "HALT"

end Instruction

abbrev Program (α : Type) := List (Instruction α)

namespace Program

variable {α : Type}

/-- Numbered lines under a title; the numbers take at least three columns. -/
def listing [NumberText α] (p : Program α) : String :=
  let number (i : Nat) : String :=
    let ds := (toString i).toList
    String.ofList (List.replicate (3 - ds.length) ' ' ++ ds)
  let lines := p.zipIdx.map fun (inst, i) => "  " ++ number i ++ ": " ++ inst.text
  "\n".intercalate (s!"Bytecode ({p.length} instructions):" :: lines)

end Program

end DerivativeEngine
