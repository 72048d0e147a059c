/-!
What the engine says about its work: records of a log, and debug messages that are written only
where the level in force has their flag. A level is a set of flags held in eight bits.
-/

namespace DerivativeEngine

inductive LogChannel where
  | parser | debug | solve | optimize | arena
  deriving DecidableEq, Repr

def LogChannel.name : LogChannel → String
  | parser => "parser" | debug => "debug" | solve => "solve" | optimize => "optimize"
  | arena => "arena"

inductive Severity where
  | debug | warning | error
  deriving DecidableEq, Repr

def Severity.name : Severity → String
  | debug => "DEBUG" | warning => "WARNING" | error => "ERROR"

structure LogRecord where
  channel : LogChannel
  severity : Severity
  text : String
  deriving DecidableEq, Repr

structure DebugFlags where
  bits : Nat
  deriving DecidableEq, Repr

namespace DebugFlags

def tokens : DebugFlags := ⟨1⟩
def ast : DebugFlags := ⟨2⟩
def eval : DebugFlags := ⟨4⟩
def vars : DebugFlags := ⟨8⟩
def funcs : DebugFlags := ⟨16⟩
def optimize : DebugFlags := ⟨32⟩
def timing : DebugFlags := ⟨64⟩

def names : List (DebugFlags × String) :=
  [(tokens, "TOKENS"), (ast, "AST"), (eval, "EVAL"), (vars, "VARS"), (funcs, "FUNCS"),
    (optimize, "OPTIMIZE"), (timing, "TIMING")]

def empty : DebugFlags := ⟨0⟩
def all : DebugFlags := ⟨255⟩

/-- A single flag by its name, none of them, or all bits. -/
def ofName? (name : String) : Option DebugFlags :=
  (((empty, "NONE") :: (all, "ALL") :: names).find? fun p => p.2 == name).map Prod.fst

/-- Only the low eight bits of a level count. -/
def ofLevel (n : Int) : DebugFlags := ⟨(n % 256).toNat⟩

/-- The flags of a number. A number below zero is taken against eight bits down to `-256`, and
further down against the bits that its magnitude fills. -/
def ofInt (n : Int) : DebugFlags :=
  let m := n.natAbs
  if 0 ≤ n then ⟨m⟩
  else if m ≤ 256 then ⟨256 - m⟩
  else ⟨Nat.pow 2 (m.log2 + 1) - m⟩

def meets (a b : DebugFlags) : Bool := a.bits &&& b.bits != 0

/-- Single flags joined by bars; the bits from the eighth on have no name and follow as a number. -/
def name? (f : DebugFlags) : Option String :=
  if f == empty then some "NONE"
  else if f == all then some "ALL"
  else
    let found := names.filter fun p => f.meets p.1
    let other := f.bits - f.bits % 128
    if found.isEmpty then none
    else some ("|".intercalate
      (found.map (·.2) ++ if other == 0 then [] else [toString other]))

def name (f : DebugFlags) : String := f.name?.getD "None"

end DebugFlags

end DerivativeEngine
