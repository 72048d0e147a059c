/-!
The sizes of a transformer, and the usual ones.
-/

namespace DerivativeEngine

structure TransformerConfig where
  vocabSize : Int := 256
  dModel : Int := 256
  nHeads : Int := 8
  nLayers : Int := 4
  /-- Inside the feed-forward layers. -/
  dFf : Int := 1024
  maxSeqLen : Int := 128
  deriving DecidableEq, Repr

namespace TransformerConfig

def tiny (vocabSize : Int) : TransformerConfig :=
  { vocabSize, dModel := 64, nHeads := 2, nLayers := 1, dFf := 128 }

def small (vocabSize : Int) : TransformerConfig :=
  { vocabSize, dModel := 128, nHeads := 4, nLayers := 2, dFf := 512 }

def medium (vocabSize : Int) : TransformerConfig :=
  { vocabSize, dModel := 256, nHeads := 8, nLayers := 4, dFf := 1024 }

def large (vocabSize : Int) : TransformerConfig :=
  { vocabSize, dModel := 512, nHeads := 16, nLayers := 6, dFf := 2048 }

def preset? (name : String) : Option (Int → TransformerConfig) :=
  match name with
  | "tiny" => some tiny
  | "small" => some small
  | "medium" => some medium
  | "large" => some large
  | _ => none

/-- The sizes that are given by name, and the usual ones for the rest. -/
def ofSizes (size? : String → Option Int) : TransformerConfig :=
  let d : TransformerConfig := {}
  let size (name : String) (usual : Int) := (size? name).getD usual
  ⟨size "vocab_size" d.vocabSize, size "d_model" d.dModel, size "n_heads" d.nHeads,
    size "n_layers" d.nLayers, size "d_ff" d.dFf, size "max_seq_len" d.maxSeqLen⟩

/-- The sizes by name, in the order in which files hold them. -/
def fields (c : TransformerConfig) : List (String × Int) :=
  [("vocab_size", c.vocabSize), ("d_model", c.dModel), ("n_heads", c.nHeads),
    ("n_layers", c.nLayers), ("d_ff", c.dFf), ("max_seq_len", c.maxSeqLen)]

def text (c : TransformerConfig) : String :=
  "TransformerConfig(" ++ ", ".intercalate (c.fields.map fun (n, x) => s!"{n}={x}") ++ ")"

end TransformerConfig

end DerivativeEngine
