import DerivativeEngine.Workspace.Basic

/-!
Tensors of a workspace: made, read, combined, assigned and freed. An operation looks at shapes
first, then reads its operands from left to right, and then makes its result, persistent or in
the arena of a context.
-/

namespace DerivativeEngine.Session

variable {α : Type} [Scalar α]

def make (x : NDArray α) (home : Option ContextId) : Session α TensorId := do
  newTensor (← wrap x home)

/-- Every element the same. -/
def filled (x : α) (shape : List Int) (home : Option ContextId) : Session α TensorId := do
  make (.fill (← ofShape (Shape.check shape)) x) home

/-- Random numbers from the draws to come. -/
def drawn (f : Shape → Draws → NDArray α × Draws) (shape : Shape)
    (home : Option ContextId) : Session α TensorId := do
  let x ← modifyGet fun w =>
    let (x, draws) := f shape w.draws
    (x, { w with draws })
  make x home

def uniform (shape : List Int) (home : Option ContextId) : Session α TensorId := do
  drawn NDArray.uniform (← ofShape (Shape.check shape)) home

def normal (deviation : α) (shape : List Int) (home : Option ContextId) : Session α TensorId := do
  drawn (NDArray.normal deviation) (← ofShape (Shape.check shape)) home

/-- The data in a given shape, which they must fill, or in their own. -/
def arrange (data : NDArray α) (shape? : Option (List Int)) : Except ShapeError (NDArray α) := do
  match shape? with
  | none =>
    let _ ← Shape.check (data.shape.map Int.ofNat)
    return data
  | some shape =>
    let shape ← Shape.check shape
    if data.size != shape.size then throw (.doesNotFill data.size shape)
    return data.reshape shape

def fromData (data : NDArray α) (shape? : Option (List Int)) (home : Option ContextId) :
    Session α TensorId := do
  make (← ofShape (arrange data shape?)) home

def clone (t : TensorId) (home : Option ContextId) : Session α TensorId := do
  make (← readTensor t) home

def unary (f : NDArray α → NDArray α) (t : TensorId) (home : Option ContextId) :
    Session α TensorId := do
  make (f (← readTensor t)) home

def binary (f : NDArray α → NDArray α → NDArray α)
    (check : Shape → Shape → Except ShapeError Unit) (a b : TensorId) (home : Option ContextId) :
    Session α TensorId := do
  ofShape (check (← tensor a).shape (← tensor b).shape)
  let x ← readTensor a
  let y ← readTensor b
  make (f x y) home

def sameShape (op : String) (a b : Shape) : Except ShapeError Unit :=
  if a == b then .ok () else .error (.mismatch op a b)

def add : TensorId → TensorId → Option ContextId → Session α TensorId :=
  binary .add (sameShape "add")

def sub : TensorId → TensorId → Option ContextId → Session α TensorId :=
  binary .sub (sameShape "sub")

def mul : TensorId → TensorId → Option ContextId → Session α TensorId :=
  binary .mul (sameShape "mul")

def div : TensorId → TensorId → Option ContextId → Session α TensorId :=
  binary .div (sameShape "div")

def matmulFits (a b : Shape) : Except ShapeError Unit :=
  if a.length != 2 || b.length != 2 then .error (.tensorMatmulRanks a.length b.length)
  else if a.dim 1 != b.dim 0 then .error (.matmulInner a b)
  else .ok ()

def matmul : TensorId → TensorId → Option ContextId → Session α TensorId :=
  binary .matmul matmulFits

def transpose (t : TensorId) (home : Option ContextId) : Session α TensorId := do
  let s := (← tensor t).shape
  if s.length != 2 then failShape (.tensorTransposeRank s.length)
  unary .transpose t home

def dot (a b : TensorId) : Session α α := do
  let s := (← tensor a).shape
  let r := (← tensor b).shape
  if s.length != 1 || r.length != 1 then failShape (.dotRanks s.length r.length)
  ofShape (sameShape "dot" s r)
  let x ← readTensor a
  let y ← readTensor b
  return x.dot y

/-- The only element. -/
def item (t : TensorId) : Session α α := do
  let s := (← tensor t).shape
  if s.size != 1 then failShape (.notSingle s)
  return (← readTensor t).get 0

def free (t : TensorId) : Session α Unit := do
  let x ← tensor t
  if x.isPersistent then modify fun w => w.setTensor t { x with value := none }
  else throw (.lifetime .arenaOwned)

/-- The tensor itself if it is persistent, and else a copy that is. -/
def persistent (t : TensorId) : Session α TensorId := do
  if (← tensor t).isPersistent then return t else clone t none

end DerivativeEngine.Session
