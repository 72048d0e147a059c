import DerivativeEngine.Bytes.LittleEndian
import DerivativeEngine.ModelFile.FormatError
import DerivativeEngine.Scalar.Stored
import DerivativeEngine.Tensor.NDArray

/-!
The bytes of a model file: a magic number and a version, the sizes of the model, the number of
parameters, and for each of them its rank, shape, size and elements. A checkpoint also holds the
state of training after the version, and two moments after the elements of each parameter.
Integers take 32 bits and elements 64, the lowest byte first.
-/

namespace DerivativeEngine

/-- Where training stood when a checkpoint was written. -/
structure TrainingState (α : Type) where
  iteration : Int
  loss : α
  rate : α

/-- A parameter of a checkpoint with its moments. -/
structure Adapted (α : Type) where
  data : NDArray α
  first : NDArray α
  second : NDArray α

namespace ModelFile

variable {α : Type} [WordCoded α]

open LittleEndian (bytes word fitsInt32 int32)

def header : Written := .ofBytes (bytes 4 modelMagic ++ bytes 4 modelVersion)

def config (c : TransformerConfig) : Written := .ofInts (c.fields.map fun f => f.2)

/-- The numbers are written only if the iteration fits. -/
def training (s : TrainingState α) : Written :=
  .ofInts [s.iteration] ++
    .ofBytes (word (WordCoded.toWord s.loss) ++ word (WordCoded.toWord s.rate))

def elements (x : NDArray α) : Written :=
  .ofBytes (x.toList.flatMap fun a => word (WordCoded.toWord a))

def parameter (x : NDArray α) : Written :=
  .ofInts [x.shape.length] ++ .ofInts (x.shape.map Int.ofNat) ++ .ofInts [x.size] ++ elements x

def adapted (x : Adapted α) : Written :=
  parameter x.data ++ elements x.first ++ elements x.second

def counted {β : Type} (f : β → Written) (xs : List β) : Written :=
  .ofInts [xs.length] ++ .concat (xs.map f)

def model (c : TransformerConfig) (parameters : List (NDArray α)) : Written :=
  header ++ config c ++ counted parameter parameters

def checkpoint (s : TrainingState α) (c : TransformerConfig) (parameters : List (Adapted α)) :
    Written :=
  header ++ training s ++ config c ++ counted adapted parameters

/-- The iteration takes at least six places, its sign among them. -/
def checkpointPath (stem : String) (iteration : Int) : String :=
  let digits := toString iteration.natAbs
  let sign := if iteration < 0 then "-" else ""
  let zeros := String.ofList (List.replicate (6 - sign.length - digits.length) '0')
  stem ++ ".iter_" ++ sign ++ zeros ++ digits ++ ".ckpt"

end ModelFile

end DerivativeEngine
