import DerivativeEngine.Program.Compile
import DerivativeEngine.Program.Machine
import DerivativeEngine.Source.Reading

/-!
Compiled expressions, and the cache of those compiled from source. The cache holds the most
recently used sources, the last one first, up to its capacity; a source that does not compile
counts as a miss and changes nothing else.
-/

namespace DerivativeEngine

structure Compiled (α : Type) where
  source : Option String
  tree : Expr α
  program : Program α

inductive CompileFailure where
  | read (e : ReadFailure)
  | noOpcode (e : NoOpcode)
  deriving DecidableEq, Repr

namespace Compiled

variable {α : Type}

def ofTree (e : Expr α) (source : Option String) : Except NoOpcode (Compiled α) := do
  return ⟨source, e, ← e.compile⟩

variable [Scalar α] [NumberText α]

/-- The machine after the program, started on an empty stack. -/
def machine (p : Program α) (b : Option (Bindings α)) : Run (Machine α) :=
  modifyGet fun s =>
    let m := Machine.run b p ⟨[], s.stream⟩
    (m, { s with stream := m.stream })

/-- The value of the program alone. -/
def execute (p : Program α) (b : Option (Bindings α)) : Run α :=
  modifyGet fun s =>
    let (x, stream) := p.execute b s.stream
    (x, { s with stream })

def run (c : Compiled α) (b : Option (Bindings α)) : Run α := do
  let x ← execute c.program b
  Run.debug .eval fun _ =>
    let title := match c.source with
      | some s => if s.isEmpty then "<tree>" else s
      | none => "<tree>"
    "vm " ++ title ++ " -> " ++ NumberText.general 17 x
  return x

end Compiled

structure CompileCache (α : Type) where
  /-- The last used first. -/
  entries : List (String × Compiled α)
  hits : Nat
  misses : Nat

structure CacheStats where
  hits : Nat
  misses : Nat
  size : Nat
  capacity : Nat
  deriving DecidableEq, Repr

def CacheStats.counts (s : CacheStats) : List (String × Nat) :=
  [("hits", s.hits), ("misses", s.misses), ("size", s.size), ("max_size", s.capacity)]

namespace CompileCache

variable {α : Type}

def capacity : Nat := 256

def empty : CompileCache α := ⟨[], 0, 0⟩

def without (source : String) (entries : List (String × Compiled α)) :
    List (String × Compiled α) :=
  entries.filter fun p => !(p.1 == source)

/-- The source becomes the last used one, and what exceeds the capacity is dropped. -/
def hold (c : CompileCache α) (source : String) (compiled : Compiled α) : CompileCache α :=
  { c with entries := ((source, compiled) :: without source c.entries).take capacity }

def stats (c : CompileCache α) : CacheStats := ⟨c.hits, c.misses, c.entries.length, capacity⟩

/-- The share of hits; zero before the first call. -/
def hitRate [Scalar α] (s : CacheStats) : α :=
  if s.hits + s.misses == 0 then 0
  else Scalar.ofNat s.hits / Scalar.ofNat (s.hits + s.misses)

variable [Scalar α] [NumberText α]

def fresh (source : String) : Run (Except CompileFailure (Compiled α)) := do
  match ← Source.parse (α := α) source none {} with
  | .error e => return .error (.read e)
  | .ok tree =>
    match Compiled.ofTree tree (some source) with
    | .error e => return .error (.noOpcode e)
    | .ok compiled =>
      Run.debug .ast fun _ => "\n" ++ compiled.program.listing
      return .ok compiled

def compile (c : CompileCache α) (source : String) :
    Run (Except CompileFailure (Compiled α) × CompileCache α) := do
  match c.entries.lookup source with
  | some compiled => return (.ok compiled, { c.hold source compiled with hits := c.hits + 1 })
  | none =>
    let c := { c with misses := c.misses + 1 }
    match ← fresh source with
    | .error e => return (.error e, c)
    | .ok compiled => return (.ok compiled, c.hold source compiled)

end CompileCache

end DerivativeEngine
