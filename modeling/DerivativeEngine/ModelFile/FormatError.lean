import DerivativeEngine.Layer.Config
import DerivativeEngine.Tensor.Shape
import DerivativeEngine.Text.Quoted

/-!
How a model file can fail to be read, or a model to be written.
-/

namespace DerivativeEngine

inductive FormatError where
  | truncated (wanted got : Nat)
  | magic (found : Nat)
  | version (found : Nat)
  | architecture (file model : TransformerConfig)
  | parameterCount (file : Int) (model : Nat)
  | rank (index : Nat) (name : String) (found : Int) (expected : Nat)
  | shape (index : Nat) (name : String) (found : List Int) (expected : Shape)
  | untracked
  deriving DecidableEq, Repr

def modelMagic : Nat := 0x464C5558

def modelVersion : Nat := 2

namespace FormatError

open Text (tuple)

def hexWord (n : Nat) : String := String.ofList ((Text.hexDigits 8 n).map Char.toUpper)

def message : FormatError → String
  | truncated wanted got => s!"unexpected end of file: wanted {wanted} bytes, got {got}"
  | magic found => s!"bad magic 0x{hexWord found}, expected 0x{hexWord modelMagic}"
  | version found => s!"unsupported version {found}, expected {modelVersion}"
  | architecture file model =>
    s!"architecture mismatch: file has {file.text}, model has {model.text}"
  | parameterCount file model => s!"file has {file} parameters, model has {model}"
  | rank i name found expected => s!"parameter {i} ({name}): rank {found}, expected {expected}"
  | shape i name found expected =>
    s!"parameter {i} ({name}): shape {tuple found}, expected {tuple expected}"
  | untracked => "optimizer does not track every model parameter"

end FormatError

end DerivativeEngine
