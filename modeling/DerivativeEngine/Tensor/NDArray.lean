import DerivativeEngine.Scalar.Basic
import DerivativeEngine.Tensor.Shape

/-!
Dense arrays in row-major order. An array is a function on flat indices that was written down
once, so every operation is given by the element it puts at an index; elements beyond the end are
zero. Sums run from the lowest index up.
-/

namespace DerivativeEngine

structure NDArray (α : Type) where
  shape : Shape
  data : Array α
  size_data : data.size = shape.size

namespace NDArray

variable {α β : Type}

def ofFn (shape : Shape) (f : Nat → α) : NDArray α where
  shape
  data := Array.ofFn fun i : Fin shape.size => f i
  size_data := by simp

/-- The data in a shape that it fills. -/
def ofArray? (shape : Shape) (data : Array α) : Option (NDArray α) :=
  if h : data.size = shape.size then some ⟨shape, data, h⟩ else none

def get [Zero α] (a : NDArray α) (i : Nat) : α := a.data.getD i 0

def size (a : NDArray α) : Nat := a.shape.size

def toList (a : NDArray α) : List α := a.data.toList

def fill (shape : Shape) (x : α) : NDArray α := ofFn shape fun _ => x

def map [Zero α] (f : α → β) (a : NDArray α) : NDArray β := ofFn a.shape fun i => f (a.get i)

/-- Elementwise, in the shape of the first operand. -/
def zipWith [Zero α] (f : α → α → β) (a b : NDArray α) : NDArray β :=
  ofFn a.shape fun i => f (a.get i) (b.get i)

/-- The same elements in a shape of the same size. -/
def reshape [Zero α] (a : NDArray α) (shape : Shape) : NDArray α := ofFn shape a.get

end NDArray

/-- `f 0 + … + f (n - 1)`, added from the left and starting at zero. -/
def sumTo {α : Type} [Zero α] [Add α] (f : Nat → α) : Nat → α
  | 0 => 0
  | n + 1 => sumTo f n + f n

/-- `f 0` combined with `f 1`, …, `f n` from the left. -/
def foldTo {α : Type} (g : α → α → α) (f : Nat → α) : Nat → α
  | 0 => f 0
  | n + 1 => g (foldTo g f n) (f (n + 1))

namespace NDArray

section Ring

variable {α : Type} [Zero α] [Add α] [Mul α]

def add (a b : NDArray α) : NDArray α := zipWith (· + ·) a b

def mul (a b : NDArray α) : NDArray α := zipWith (· * ·) a b

def scale (a : NDArray α) (c : α) : NDArray α := a.map (· * c)

/-- A row added to every row of a matrix. -/
def addRow (a v : NDArray α) : NDArray α :=
  let n := a.shape.last
  ofFn a.shape fun i => a.get i + v.get (i % n)

/-- The sum of the rows: an array in the shape of one. -/
def sumRows (a : NDArray α) : NDArray α :=
  let n := a.shape.last
  ofFn [n] fun j => sumTo (fun r => a.get (r * n + j)) (a.size / n)

def transpose (a : NDArray α) : NDArray α :=
  let m := a.shape.dim 0
  let n := a.shape.dim 1
  ofFn [n, m] fun i => a.get (i % m * n + i / m)

/-- `(m, k)` by `(k, n)`. -/
def matmul (a b : NDArray α) : NDArray α :=
  let m := a.shape.dim 0
  let k := a.shape.dim 1
  let n := b.shape.dim 1
  ofFn [m, n] fun i => sumTo (fun l => a.get (i / n * k + l) * b.get (l * n + i % n)) k

def sum (a : NDArray α) : α := sumTo a.get a.size

def dot (a b : NDArray α) : α := sumTo (fun i => a.get i * b.get i) a.size

/-- The rows of a table at the given indices. -/
def gather (table : NDArray α) (indices : List Nat) : NDArray α :=
  let n := table.shape.dim 1
  ofFn [indices.length, n] fun i => table.get (indices.getD (i / n) 0 * n + i % n)

/-- The rows of `g` added up at the given indices of a table of this shape. -/
def scatter (shape : Shape) (indices : List Nat) (g : NDArray α) : NDArray α :=
  let n := shape.dim 1
  ofFn shape fun i =>
    sumTo (fun r => if indices.getD r 0 = i / n then g.get (r * n + i % n) else 0)
      indices.length

/-- Entry `(i, h, d)` of an array whose last two dimensions are `heads` and `width`. -/
def entry (a : NDArray α) (heads width i h d : Nat) : α := a.get ((i * heads + h) * width + d)

/-- The products of queries and keys, head by head: `(seq, heads, width)` twice gives
`(heads, seq, seq)`. Under a causal mask, keys after the query get `masked`. -/
def attentionScores (masked c : α) (causal : Bool) (q k : NDArray α) : NDArray α :=
  let seq := q.shape.dim 0
  let heads := q.shape.dim 1
  let width := q.shape.dim 2
  ofFn [heads, seq, seq] fun n =>
    let h := n / (seq * seq)
    let i := n / seq % seq
    let j := n % seq
    if causal && i < j then masked
    else sumTo (fun d => entry q heads width i h d * entry k heads width j h d) width * c

/-- The gradient where the mask let the scores through. -/
def unmasked (causal : Bool) (g : NDArray α) : NDArray α :=
  let seq := g.shape.last
  if causal then ofFn g.shape fun n => if n / seq % seq < n % seq then 0 else g.get n else g

/-- Sums over the keys `j` of `g (h, i, j) * x (j, h, d)`. -/
def overKeys (g x : NDArray α) : NDArray α :=
  let seq := x.shape.dim 0
  let heads := x.shape.dim 1
  let width := x.shape.dim 2
  ofFn [seq, heads, width] fun n =>
    let i := n / (heads * width)
    let h := n / width % heads
    let d := n % width
    sumTo (fun j => g.get ((h * seq + i) * seq + j) * entry x heads width j h d) seq

/-- Sums over the queries `i` of `g (h, i, j) * x (i, h, d)`. -/
def overQueries (g x : NDArray α) : NDArray α :=
  let seq := x.shape.dim 0
  let heads := x.shape.dim 1
  let width := x.shape.dim 2
  ofFn [seq, heads, width] fun n =>
    let j := n / (heads * width)
    let h := n / width % heads
    let d := n % width
    sumTo (fun i => g.get ((h * seq + i) * seq + j) * entry x heads width i h d) seq

/-- Sums over the columns `d` of `g (i, h, d) * v (j, h, d)`. -/
def overWidth (g v : NDArray α) : NDArray α :=
  let seq := v.shape.dim 0
  let heads := v.shape.dim 1
  let width := v.shape.dim 2
  ofFn [heads, seq, seq] fun n =>
    let h := n / (seq * seq)
    let i := n / seq % seq
    let j := n % seq
    sumTo (fun d => entry g heads width i h d * entry v heads width j h d) width

end Ring

section Rows

variable {α : Type} [Zero α] [Add α]

/-- One number for each row, kept as a last dimension of one. -/
def rowShape (s : Shape) : Shape := s.dropLast ++ [1]

def perRow (a : NDArray α) (f : (Nat → α) → Nat → α) : NDArray α :=
  let n := a.shape.last
  ofFn (rowShape a.shape) fun r => f (fun j => a.get (r * n + j)) n

/-- Elementwise against one number for each row. -/
def withRows (f : α → α → α) (a rows : NDArray α) : NDArray α :=
  let n := a.shape.last
  ofFn a.shape fun i => f (a.get i) (rows.get (i / n))

def rowSums (a : NDArray α) : NDArray α := a.perRow sumTo

end Rows

section Scalar

variable {α : Type} [Scalar α]

/-- A nan wins. -/
def larger (x y : α) : α :=
  if Scalar.isNaN x then x else if Scalar.isNaN y then y else Scalar.max x y

def smaller (x y : α) : α :=
  if Scalar.isNaN x then x else if Scalar.isNaN y then y else Scalar.min x y

def sub (a b : NDArray α) : NDArray α := zipWith (· - ·) a b

def div (a b : NDArray α) : NDArray α := zipWith (· / ·) a b

def addScalar (a : NDArray α) (c : α) : NDArray α := a.map (· + c)

def neg (a : NDArray α) : NDArray α := a.map (- ·)

def relu (a : NDArray α) : NDArray α := a.map fun x => larger x 0

def sigmoid (a : NDArray α) : NDArray α := a.map fun x => 1 / (1 + Scalar.exp (-x))

def tanh (a : NDArray α) : NDArray α := a.map Scalar.tanh

def mean (a : NDArray α) : α := a.sum / Scalar.ofNat a.size

def maximum (a : NDArray α) : α := foldTo larger a.get (a.size - 1)

def minimum (a : NDArray α) : α := foldTo smaller a.get (a.size - 1)

def rowMaxima (a : NDArray α) : NDArray α := a.perRow fun f n => foldTo larger f (n - 1)

def rowMeans (a : NDArray α) : NDArray α := a.perRow fun f n => sumTo f n / Scalar.ofNat n

/-- Row by row, shifted by the maximum. -/
def softmax (a : NDArray α) : NDArray α :=
  let e := withRows (fun x m => Scalar.exp (x - m)) a a.rowMaxima
  withRows (· / ·) e e.rowSums

/-- The logarithm of the row sums of exponentials; a maximum that is not finite does not shift. -/
def logSumExp (a : NDArray α) : NDArray α :=
  let m := a.rowMaxima.map fun x => if Scalar.isFinite x then x else 0
  let e := withRows (fun x m => Scalar.exp (x - m)) a m
  zipWith (fun s m => Scalar.log s + m) e.rowSums m

end Scalar

end NDArray

end DerivativeEngine
