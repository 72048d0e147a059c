import DerivativeEngine.Diagnostics
import DerivativeEngine.Expr.Evaluation
import DerivativeEngine.Expr.Printer
import DerivativeEngine.Source.Parser

/-!
The engine around the expression language: the debug levels, the random stream, and everything
that was said so far. A computation that draws random numbers or speaks is a `Run`; what it
returns and what it draws never depend on the debug levels unless its own comment says so.
-/

namespace DerivativeEngine

structure Engine where
  level : DebugFlags
  /-- Overrides the level in computations that ask for it. -/
  threadLevel : Option DebugFlags
  /-- Is a listener for debug messages installed? -/
  listening : Bool
  stream : RandomStream
  log : Array LogRecord
  /-- Debug messages handed to the listener. -/
  heard : Array (DebugFlags × String)
  /-- Parse errors handed to the error listener, with the source they are about. -/
  reported : Array (ErrorInfo × String)

def Engine.start : Engine := ⟨⟨0⟩, none, false, .ofSeed 0, #[], #[], #[]⟩

abbrev Run (β : Type) := StateM Engine β

namespace Run

def record (channel : LogChannel) (severity : Severity) (text : String) : Run Unit :=
  modify fun s => { s with log := s.log.push ⟨channel, severity, text⟩ }

def effectiveLevel (threadSafe : Bool) : Run DebugFlags := do
  let s ← get
  return if threadSafe then s.threadLevel.getD s.level else s.level

def debugEnabled (flag : DebugFlags) (threadSafe : Bool) : Run Bool :=
  return (← effectiveLevel threadSafe).meets flag

def debug (flag : DebugFlags) (message : Unit → String) (threadSafe : Bool := false) :
    Run Unit := do
  if ← debugEnabled flag threadSafe then
    let text := message ()
    record .debug .debug ("[" ++ flag.name ++ "] " ++ text)
    modify fun s => if s.listening then { s with heard := s.heard.push (flag, text) } else s

def reportError (e : ErrorInfo) (source : String) : Run Unit :=
  modify fun s => { s with reported := s.reported.push (e, source) }

/-- The next number in `[0, 1)`. -/
def uniform {α : Type} [Scalar α] : Run α :=
  modifyGet fun s =>
    let (n, stream) := s.stream.draw
    (Scalar.ofDraw n, { s with stream })

def seed (n : Nat) : Run Unit := modify fun s => { s with stream := .ofSeed n }

/-- The value of a function by its name, with the draws it makes. -/
def call {α : Type} [Scalar α] (name : String) (args : List α) : Run α :=
  modifyGet fun s =>
    let (x, stream) := callFunction name args s.stream
    (x, { s with stream })

end Run

namespace Expr

variable {α : Type}

def kindName : Expr α → String
  | num _ => "Number"
  | var _ => "Variable"
  | bin .. => "Binary"
  | un .. => "Unary"
  | call .. => "FunctionCall"
  | tensor _ => "TensorLiteral"

/-- The value of the expression, with the draws it makes taken from the engine's stream. -/
def run [Scalar α] [NumberText α] (e : Expr α) (b : Option (Bindings α)) : Run α := do
  let s ← get
  let (x, stream) := e.evaluate b s.stream
  set { s with stream }
  Run.debug .eval fun _ => e.kindName ++ " -> " ++ NumberText.general 17 x
  return x

/-- The value where one variable, of canonical name `x`, is bound. -/
def valueAt [Scalar α] [NumberText α] (e : Expr α) (x : String) (value : α) : Run α :=
  e.run (some (Bindings.single x value))

end Expr

end DerivativeEngine
