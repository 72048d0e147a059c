import DerivativeEngine.Rewrite.Copy
import DerivativeEngine.Workspace.Tensors

/-!
Tensors in expression trees. A handle owns a persistent tensor and counts who holds it; the last
release frees the tensor.
-/

namespace DerivativeEngine

def TensorHandle.text (h : TensorHandle) (shape : Shape) : String :=
  s!"TensorHandle(shape={Text.tuple shape}, refcount={h.refcount})"

namespace Session

variable {α : Type} [Scalar α]

def handle (h : HandleId) : Session α TensorHandle := return (← get).handle h

/-- A new handle, held once, on the tensor or on a persistent copy of it. -/
def newHandle (t : TensorId) : Session α HandleId := do
  let t ← persistent t
  modifyGet fun w => (⟨w.handles.size⟩, { w with handles := w.handles.push ⟨t, 1⟩ })

def retain (h : HandleId) : Session α Unit := do
  let x ← handle h
  modify fun w => w.setHandle h { x with refcount := x.refcount + 1 }

def release (h : HandleId) : Session α Unit := do
  let x ← handle h
  if x.refcount == 0 then throw (.lifetime .overReleased)
  modify fun w => w.setHandle h { x with refcount := x.refcount - 1 }
  if x.refcount == 1 then free x.tensor

/-- Holds every handle that a rewriter took. -/
def retainAll {β : Type} (x : Retaining β) : Session α β := do
  x.retained.forM fun i => retain ⟨i⟩
  return x.value

/-- The mean of the elements, which is the value of the tensor in an expression. -/
def handleMean (h : HandleId) : Session α α := do
  return (← readTensor (← handle h).tensor).mean

def handleText (h : HandleId) : Session α String := do
  let x ← handle h
  return x.text (← tensor x.tensor).shape

def addHandles (a b : HandleId) : Session α HandleId := do
  newHandle (← add (← handle a).tensor (← handle b).tensor none)

def matmulHandles (a b : HandleId) : Session α HandleId := do
  newHandle (← matmul (← handle a).tensor (← handle b).tensor none)

end Session

end DerivativeEngine
