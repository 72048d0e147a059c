/-!
A bump allocator with bulk reset. Blocks are handed out from a row of chunks, each at the next
free offset, in multiples of eight bytes; nothing is freed alone. A reset rewinds every chunk and
starts a new generation, and a block can be read only in the generation it was handed out in.
-/

namespace DerivativeEngine

/-- A byte that was never written is zero. -/
structure Chunk where
  size : Nat
  used : Nat
  bytes : Nat → UInt8

namespace Chunk

def fresh (size : Nat) : Chunk := ⟨size, 0, fun _ => 0⟩

def remaining (c : Chunk) : Nat := c.size - c.used

/-- The bytes from `start` on, `n` of them, become those of `f`. -/
def write (c : Chunk) (start n : Nat) (f : Nat → UInt8) : Chunk :=
  { c with bytes := fun i => if start ≤ i && i < start + n then f (i - start) else c.bytes i }

def read (c : Chunk) (start n : Nat) : List UInt8 :=
  (List.range n).map fun i => c.bytes (start + i)

end Chunk

structure Block where
  chunk : Nat
  offset : Nat
  size : Nat
  generation : Nat
  deriving DecidableEq, Repr

structure Arena where
  chunkSize : Nat
  chunks : List Chunk
  /-- Chunks before this one are passed over until the next reset. -/
  current : Nat
  generation : Nat

/-- A block read after its arena was reset. -/
structure StaleBlock where
  block : Nat
  arena : Nat
  deriving DecidableEq, Repr

def StaleBlock.message (e : StaleBlock) : String :=
  s!"arena block from generation {e.block} read after reset (arena is at generation {e.arena})"

namespace Arena

def alignment : Nat := 8

def align (n : Nat) : Nat := (n + (alignment - 1)) / alignment * alignment

def defaultChunkSize : Nat := 10 * 1024 * 1024

/-- An arena of one chunk, for a positive size. -/
def ofChunkSize (n : Nat) : Arena := ⟨align n, [.fresh (align n)], 0, 0⟩

structure BadChunkSize where
  size : Int
  deriving DecidableEq, Repr

def BadChunkSize.message (e : BadChunkSize) : String :=
  s!"chunk_size must be positive, got {e.size}"

def ofSize? (n : Int) : Except BadChunkSize Arena :=
  if n ≤ 0 then .error ⟨n⟩ else .ok (ofChunkSize n.toNat)

def used (a : Arena) : Nat := a.chunks.foldr (·.used + ·) 0

def allocated (a : Arena) : Nat := a.chunks.foldr (·.size + ·) 0

/-- The first chunk from the current one on that has room, or the index of a new one. -/
def findRoom (a : Arena) (size : Nat) : Nat :=
  match (a.chunks.drop a.current).findIdx? fun c => size ≤ c.remaining with
  | some i => a.current + i
  | none => a.chunks.length

/-- A new chunk has room for twice the request. -/
def grow (a : Arena) (size : Nat) : Arena :=
  { a with chunks := a.chunks ++ [.fresh (max a.chunkSize (2 * size))] }

def bump (a : Arena) (i size : Nat) : Arena :=
  { a with
    chunks := a.chunks.modify i fun c => { c with used := c.used + size }
    current := i }

/-- A block of `n` bytes rounded up, and the arena after it. -/
def reserve (a : Arena) (n : Nat) : Block × Arena :=
  let size := align n
  let i := a.findRoom size
  let a := if i < a.chunks.length then a else a.grow size
  let offset := (a.chunks.map Chunk.used).getD i 0
  (⟨i, offset, size, a.generation⟩, a.bump i size)

/-- None for a request of nothing. -/
def alloc (a : Arena) (n : Int) : Option Block × Arena :=
  if n ≤ 0 then (none, a)
  else
    let (b, a) := a.reserve n.toNat
    (some b, a)

def writeBlock (a : Arena) (b : Block) (f : Nat → UInt8) : Arena :=
  { a with chunks := a.chunks.modify b.chunk fun c => c.write b.offset b.size f }

/-- A block of zeros. -/
def calloc (a : Arena) (count size : Int) : Option Block × Arena :=
  match a.alloc (count * size) with
  | (some b, a) => (some b, a.writeBlock b fun _ => 0)
  | (none, a) => (none, a)

def rewind (c : Chunk) : Chunk := { c with used := 0 }

/-- Memory is kept, and so are its bytes. -/
def reset (a : Arena) : Arena :=
  { a with chunks := a.chunks.map rewind, current := 0, generation := a.generation + 1 }

/-- Gives back every chunk but the first. -/
def resetAggressive (a : Arena) : Arena := reset { a with chunks := a.chunks.take 1 }

def destroy (a : Arena) : Arena :=
  { a with chunks := [], current := 0, generation := a.generation + 1 }

def isValid (a : Arena) (b : Block) : Bool := b.generation == a.generation

def check (a : Arena) (b : Block) : Except StaleBlock Unit :=
  if a.isValid b then .ok () else .error ⟨b.generation, a.generation⟩

/-- The bytes of a block that is still valid. -/
def read (a : Arena) (b : Block) : Except StaleBlock (List UInt8) := do
  a.check b
  return match a.chunks[b.chunk]? with
    | some c => c.read b.offset b.size
    | none => []

def fill (a : Arena) (b : Block) (f : Nat → UInt8) : Except StaleBlock Arena := do
  a.check b
  return a.writeBlock b f

/-- What is known of an arena, by name. -/
def stats (a : Arena) : List (String × Nat) :=
  [("used", a.used), ("allocated", a.allocated), ("chunks", a.chunks.length),
    ("generation", a.generation)]

/-- What is said of a request that made the arena grow. -/
def growthText? (before after : Arena) : Option String :=
  if before.chunks.length < after.chunks.length then
    some s!"arena grew to {after.chunks.length} chunks ({after.allocated} bytes)"
  else none

/-- What is said of the chunks an aggressive reset gives back. The count is taken against the one
chunk that stays, so an arena without chunks gives back minus one. -/
def releaseText? (before after : Arena) : Option String :=
  let released : Int := before.chunks.length - 1
  if released == 0 then none
  else some s!"arena released {released} chunks, {after.allocated} bytes remain"

end Arena

end DerivativeEngine
