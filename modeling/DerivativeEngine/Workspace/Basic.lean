import DerivativeEngine.Tape.Operation
import DerivativeEngine.Tensor.Draw
import DerivativeEngine.Tensor.TensorError
import DerivativeEngine.Training.Adam

/-!
Where tensors live. A workspace holds every tensor, variable, handle and optimizer that was ever
made, each under a number of its own, and the contexts: an arena each, with the tape of what was
recorded. A tensor is either persistent, and there until it is freed, or it has a place in an
arena, and is gone with the next reset of that arena.
-/

namespace DerivativeEngine

structure TensorId where
  index : Nat
  deriving DecidableEq, Repr

structure VariableId where
  index : Nat
  deriving DecidableEq, Repr

structure HandleId where
  index : Nat
  deriving DecidableEq, Repr

structure ContextId where
  index : Nat
  deriving DecidableEq, Repr

structure OptimizerId where
  index : Nat
  deriving DecidableEq, Repr

/-- A block in the arena of a context. -/
structure Place where
  context : ContextId
  block : Block
  deriving DecidableEq, Repr

structure Tensor (α : Type) where
  shape : Shape
  /-- None once it is freed. -/
  value : Option (NDArray α)
  /-- None for a persistent tensor. -/
  place : Option Place

/-- A tensor that may have a gradient. -/
structure Variable (α : Type) where
  data : TensorId
  grad : Option (Tensor α)
  requiresGrad : Bool
  isParameter : Bool
  name : String

/-- An operation as it was applied: what it was applied to, the variable it gave, and what was
saved for its reverse. -/
structure TapeRecord (α : Type) where
  operation : Operation α VariableId
  output : VariableId
  saved : List (Tensor α)

structure Context (α : Type) where
  arena : Arena
  tape : Array (TapeRecord α)
  /-- A statistic: the number of records there is said to be room for. -/
  capacity : Nat
  iterations : Nat
  /-- Every so many iterations the arena gives memory back. -/
  period : Int

/-- A tensor in expression trees, held by as many as it was given to. -/
structure TensorHandle where
  tensor : TensorId
  refcount : Nat
  deriving DecidableEq, Repr

inductive UpdateRule (α : Type) where
  /-- No rule: such an optimizer cannot step. -/
  | none
  | descent
  | adam (state : Adam α)

/-- A rule at work on the parameters it keeps track of. -/
structure Optimizer (α : Type) where
  tracked : List VariableId
  rate : α
  rule : UpdateRule α

structure Workspace (α : Type) where
  tensors : Array (Tensor α)
  vars : Array (Variable α)
  handles : Array TensorHandle
  contexts : Array (Context α)
  optimizers : Array (Optimizer α)
  current : Option ContextId
  draws : Draws
  /-- What arenas said, oldest first. -/
  said : Array String

namespace Tensor

variable {α : Type}

def isPersistent (t : Tensor α) : Bool := t.place.isNone

def storage (t : Tensor α) : String := if t.isPersistent then "persistent" else "arena"

def text (t : Tensor α) : String := s!"Tensor(shape={Text.tuple t.shape}, storage={t.storage})"

/-- Stands for a tensor that was never made. -/
def missing : Tensor α := ⟨[], none, none⟩

end Tensor

namespace Context

variable {α : Type}

def initialCapacity : Nat := 256

def shrinkThreshold : Nat := 10000

def defaultPeriod : Int := 10

def ofArena (arena : Arena) (period : Int) : Context α := ⟨arena, #[], initialCapacity, 0, period⟩

def default : Context α := ofArena (.ofChunkSize Arena.defaultChunkSize) defaultPeriod

/-- The capacity doubles when it is used up. -/
def record (c : Context α) (r : TapeRecord α) : Context α :=
  { c with
    tape := c.tape.push r
    capacity := if c.capacity ≤ c.tape.size then c.capacity * 2 else c.capacity }

def clearTape (c : Context α) : Context α :=
  { c with
    tape := #[]
    capacity := if shrinkThreshold < c.capacity then initialCapacity else c.capacity }

/-- What is known of a context, by name. -/
def stats (c : Context α) : List (String × Nat) :=
  [("tape_count", c.tape.size), ("tape_capacity", c.capacity), ("iterations", c.iterations)] ++
    c.arena.stats.map fun s => ("arena_" ++ s.1, s.2)

end Context

namespace Workspace

variable {α : Type}

def empty (draws : Draws) : Workspace α := ⟨#[], #[], #[], #[], #[], none, draws, #[]⟩

/-- With nothing in it but the context in use. -/
def ofContext (c : Context α) (draws : Draws) : Workspace α :=
  { empty draws with contexts := #[c], current := some ⟨0⟩ }

def tensor (w : Workspace α) (t : TensorId) : Tensor α := w.tensors.getD t.index .missing

def var (w : Workspace α) (v : VariableId) : Variable α :=
  w.vars.getD v.index ⟨⟨0⟩, none, false, false, ""⟩

def handle (w : Workspace α) (h : HandleId) : TensorHandle := w.handles.getD h.index ⟨⟨0⟩, 0⟩

def context (w : Workspace α) (c : ContextId) : Context α := w.contexts.getD c.index .default

def setTensor (w : Workspace α) (t : TensorId) (x : Tensor α) : Workspace α :=
  { w with tensors := w.tensors.setIfInBounds t.index x }

def setVariable (w : Workspace α) (v : VariableId) (x : Variable α) : Workspace α :=
  { w with vars := w.vars.setIfInBounds v.index x }

def setHandle (w : Workspace α) (h : HandleId) (x : TensorHandle) : Workspace α :=
  { w with handles := w.handles.setIfInBounds h.index x }

def modifyContext (w : Workspace α) (c : ContextId) (f : Context α → Context α) : Workspace α :=
  { w with contexts := w.contexts.modify c.index f }

def isValid (w : Workspace α) (t : Tensor α) : Bool :=
  t.value.isSome && t.place.all fun p => (w.context p.context).arena.isValid p.block

/-- A tensor with a place must be used in the generation it was made in. -/
def checkPlace (w : Workspace α) (t : Tensor α) : Except LifetimeError Unit :=
  match t.place with
  | none => .ok ()
  | some p => failAs .stale ((w.context p.context).arena.check p.block)

def read (w : Workspace α) (t : Tensor α) : Except LifetimeError (NDArray α) := do
  w.checkPlace t
  match t.value with
  | some x => return x
  | none => throw .freed

/-- The tensor with other contents of the same shape. -/
def assigned (w : Workspace α) (t : Tensor α) (x : NDArray α) : Except TensorError (Tensor α) :=
  if x.shape != t.shape then .error (.shape (.assignment x.shape t.shape))
  else do
    failAs .lifetime (w.checkPlace t)
    return { t with value := some x }

end Workspace

/-- A computation on a workspace. One that fails keeps what it changed before. -/
abbrev Session (α β : Type) := ExceptT TensorError (StateM (Workspace α)) β

namespace Session

variable {α β : Type}

def ofExcept (x : Except TensorError β) : Session α β := ExceptT.mk (pure x)

def failShape (e : ShapeError) : Session α β := throw (.shape e)

def ofShape (x : Except ShapeError β) : Session α β := ofExcept (failAs .shape x)

def ofLifetime (x : Except LifetimeError β) : Session α β := ofExcept (failAs .lifetime x)

def tensor (t : TensorId) : Session α (Tensor α) := return (← get).tensor t

def var (v : VariableId) : Session α (Variable α) := return (← get).var v

def context (c : ContextId) : Session α (Context α) := return (← get).context c

def newTensor (t : Tensor α) : Session α TensorId :=
  modifyGet fun w => (⟨w.tensors.size⟩, { w with tensors := w.tensors.push t })

def newVariable (v : Variable α) : Session α VariableId :=
  modifyGet fun w => (⟨w.vars.size⟩, { w with vars := w.vars.push v })

def newContext (c : Context α) : Session α ContextId :=
  modifyGet fun w => (⟨w.contexts.size⟩, { w with contexts := w.contexts.push c })

/-- The context in use; a default one is made where there is none. -/
def current : Session α ContextId := do
  match (← get).current with
  | some c => return c
  | none =>
    let c ← newContext .default
    modify fun w => { w with current := some c }
    return c

def read (t : Tensor α) : Session α (NDArray α) := do ofLifetime ((← get).read t)

def readTensor (t : TensorId) : Session α (NDArray α) := do read (← tensor t)

def shapeOf (v : VariableId) : Session α Shape := do return (← tensor (← var v).data).shape

/-- The data of a variable. -/
def value (v : VariableId) : Session α (NDArray α) := do readTensor (← var v).data

/-- Changes the arena of a context, which may have something to say. -/
def modifyArena (c : ContextId) (f : Arena → Arena) (said? : Arena → Arena → Option String) :
    Session α Unit :=
  modify fun w =>
    let a := (w.context c).arena
    let b := f a
    { w.modifyContext c fun k => { k with arena := b } with
      said := w.said ++ (said? a b).toArray }

/-- Eight bytes for each element. -/
def reserve (c : ContextId) (elements : Nat) : Session α Block := do
  let (block, _) := (← context c).arena.reserve (8 * elements)
  modifyArena c (fun a => (a.reserve (8 * elements)).2) Arena.growthText?
  return block

/-- A tensor in the arena of a context, or a persistent one. -/
def wrap (x : NDArray α) (c : Option ContextId) : Session α (Tensor α) := do
  match c with
  | none => return ⟨x.shape, some x, none⟩
  | some c => return ⟨x.shape, some x, some ⟨c, ← reserve c x.size⟩⟩

def assign (t : TensorId) (x : NDArray α) : Session α Unit := do
  let old ← tensor t
  let new ← ofExcept ((← get).assigned old x)
  modify fun w => w.setTensor t new

end Session

end DerivativeEngine
