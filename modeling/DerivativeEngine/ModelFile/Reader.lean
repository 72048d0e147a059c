import DerivativeEngine.ModelFile.Layout

/-!
Reading the bytes of a model file. A reader takes bytes from the front; it fails where they run
out or say something else than is expected. What follows the last parameter is ignored.
-/

namespace DerivativeEngine

abbrev Reader (β : Type) := StateT (List UInt8) (Except FormatError) β

/-- What a parameter is expected to be. -/
structure Expected where
  name : String
  shape : Shape
  deriving DecidableEq, Repr

namespace Reader

variable {α : Type}

def take (n : Nat) : Reader (List UInt8) := do
  let (front, rest) := (← get).splitAt n
  if front.length = n then
    set rest
    return front
  else throw (.truncated n front.length)

/-- The bytes in groups of a width, `n` of them. -/
def groups (width : Nat) : Nat → List UInt8 → List (List UInt8)
  | 0, _ => []
  | n + 1, bs => bs.take width :: groups width n (bs.drop width)

def int32s (n : Nat) : Reader (List Int) := do
  return (groups 4 n (← take (4 * n))).map LittleEndian.toInt32

def int32 : Reader Int := do return LittleEndian.toInt32 (← take 4)

def header : Reader Unit := do
  let bs ← take 8
  let magic := LittleEndian.toNat (bs.take 4)
  let version := LittleEndian.toNat (bs.drop 4)
  if magic != modelMagic then throw (.magic magic)
  if version != modelVersion then throw (.version version)

def config : Reader TransformerConfig := do
  match ← int32s 6 with
  | [vocabSize, dModel, nHeads, nLayers, dFf, maxSeqLen] =>
    return { vocabSize, dModel, nHeads, nLayers, dFf, maxSeqLen }
  | _ => return {}

variable [WordCoded α]

def ofWordBytes (bs : List UInt8) : α := WordCoded.ofWord (LittleEndian.toWord bs)

def training : Reader (TrainingState α) := do
  let bs ← take 20
  return ⟨LittleEndian.toInt32 (bs.take 4), ofWordBytes ((bs.drop 4).take 8),
    ofWordBytes (bs.drop 12)⟩

variable [Zero α]

def elements (shape : Shape) : Reader (NDArray α) := do
  let xs : Array α := ((groups 8 shape.size (← take (8 * shape.size))).map ofWordBytes).toArray
  return .ofFn shape fun i => xs.getD i 0

/-- The parameter at index `i`, which must be as expected. -/
def parameter (i : Nat) (e : Expected) : Reader (NDArray α) := do
  let rank ← int32
  if rank != e.shape.length then throw (.rank i e.name rank e.shape.length)
  let shape ← int32s e.shape.length
  let size ← int32
  if shape != e.shape.map Int.ofNat || size != e.shape.size then
    throw (.shape i e.name shape e.shape)
  elements e.shape

def adapted (i : Nat) (e : Expected) : Reader (Adapted α) := do
  return ⟨← parameter i e, ← elements e.shape, ← elements e.shape⟩

def count (expected : Nat) : Reader Unit := do
  let n ← int32
  if n != expected then throw (.parameterCount n expected)

/-- The parameters that could be read, and what is left or why reading stopped. -/
structure Progress (α : Type) where
  arrays : List (NDArray α)
  rest : Except FormatError (List UInt8)

/-- One parameter after the other, the first of which has index `i`. -/
def parametersFrom (i : Nat) : List Expected → List UInt8 → Progress α
  | [], bs => ⟨[], .ok bs⟩
  | e :: es, bs =>
    match (parameter i e).run bs with
    | .error err => ⟨[], .error err⟩
    | .ok (x, bs) =>
      let p := parametersFrom (i + 1) es bs
      ⟨x :: p.arrays, p.rest⟩

def parameters (es : List Expected) (bs : List UInt8) : Progress α :=
  match (count es.length).run bs with
  | .error err => ⟨[], .error err⟩
  | .ok (_, bs) => parametersFrom 0 es bs

def adaptedAll (es : List Expected) : Reader (List (Adapted α)) := do
  count es.length
  es.zipIdx.mapM fun (e, i) => adapted i e

end Reader

end DerivativeEngine
