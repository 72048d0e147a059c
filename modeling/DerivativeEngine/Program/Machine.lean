import DerivativeEngine.Program.Basic

/-!
The stack machine. It halts at the first halt or at the end of the program, and its result is
the top of the stack. An empty stack yields zeros.
-/

namespace DerivativeEngine

structure Machine (α : Type) where
  /-- The top first. -/
  stack : List α
  stream : RandomStream

namespace Machine

variable {α : Type} [Scalar α]

def pop : List α → α × List α
  | [] => (0, [])
  | x :: xs => (x, xs)

/-- The top `n` entries, in the order in which they were pushed. -/
def popMany : Nat → List α → List α → List α × List α
  | 0, taken, stack => (taken, stack)
  | n + 1, taken, stack =>
    let (x, stack) := pop stack
    popMany n (x :: taken) stack

def load (b : Option (Bindings α)) (slot : Int) (name : String) : α :=
  match b with
  | none => 0
  | some b =>
    if b.names.isSome then (b.lookup? name).getD 0
    else if slot < 0 then 0
    else b.valueAt slot

def step (b : Option (Bindings α)) (inst : Instruction α) (m : Machine α) : Machine α :=
  match inst with
  | .const x => { m with stack := x :: m.stack }
  | .load slot name => { m with stack := load b slot name :: m.stack }
  | .binary op =>
    let (right, rest) := pop m.stack
    let (left, rest) := pop rest
    { m with stack := op.apply left right :: rest }
  | .unary op =>
    let (x, rest) := pop m.stack
    { m with stack := op.apply x :: rest }
  | .call name argc =>
    let (args, rest) := popMany argc.toNat [] m.stack
    let (x, stream) := callFunction name args m.stream
    ⟨x :: rest, stream⟩
  | .halt => m

def run (b : Option (Bindings α)) : Program α → Machine α → Machine α
  | [], m => m
  | .halt :: _, m => m
  | inst :: rest, m => run b rest (step b inst m)

def result (m : Machine α) : α := m.stack.headD 0

end Machine

namespace Program

variable {α : Type} [Scalar α]

def execute (p : Program α) (b : Option (Bindings α)) (s : RandomStream) : α × RandomStream :=
  let m := Machine.run b p ⟨[], s⟩
  (m.result, m.stream)

end Program

end DerivativeEngine
