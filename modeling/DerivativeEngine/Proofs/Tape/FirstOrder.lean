import Mathlib.Algebra.DualNumber
import DerivativeEngine.Proofs.Tape.Contributions
import DerivativeEngine.Proofs.Tensor.Sums

/-! How the result of an operation changes, to first order, when its operands change. A dual number
`x + ε d` with `ε ^ 2 = 0` is a number with a change; sums and products carry the change along. So
an operation that only adds and multiplies gives, over dual numbers, its value together with the
change of its value. This needs no limits: it can be said over every commutative ring. -/

namespace DerivativeEngine

open scoped DualNumber

/-- A commutative ring with whatever else a scalar type has. -/
class RingScalar (R : Type) extends Scalar R, CommRing R

open Classical in
@[reducible] noncomputable def RingScalar.ofCommRing (R : Type) [CommRing R] : RingScalar R where
  toCommRing := inferInstance
  div _ _ := 0
  ofScientific _ _ _ := 0
  lt _ _ := False
  le _ _ := False
  beq a b := a = b
  decidableLt _ _ := instDecidableFalse
  decidableLe _ _ := instDecidableFalse
  ofNat n := n
  ofLiteral? _ := none
  isFinite _ := true
  isNaN _ := false
  nearestInt? _ := none
  pi := 0
  e := 0
  negInf := 0
  abs _ := 0
  sqrt _ := 0
  exp _ := 0
  log _ := 0
  log10 _ := 0
  sin _ := 0
  cos _ := 0
  tan _ := 0
  asin _ := 0
  acos _ := 0
  atan _ := 0
  tanh _ := 0
  floor _ := 0
  ceil _ := 0
  pow _ _ := 0
  atan2 _ _ := 0
  remainder _ _ := 0

noncomputable instance (R : Type) [CommRing R] : RingScalar R[ε] := .ofCommRing R[ε]

namespace NDArray

theorem shape_addBroadcast {α : Type} [Zero α] [Add α] [Mul α] (a b : NDArray α) :
    (a.addBroadcast b).shape =
      if a.shape = b.shape ∨ a.shape.length = 2 then a.shape else b.shape := by
  unfold addBroadcast
  by_cases same : a.shape = b.shape
  · rw [if_pos same, if_pos (.inl same)]
    rfl
  · rw [if_neg same]
    by_cases two : a.shape.length = 2
    · rw [if_pos two, if_pos (.inr two)]
      rfl
    · rw [if_neg two, if_neg (not_or.2 ⟨same, two⟩)]
      rfl

variable {R : Type} [CommRing R]

def moved (x d : NDArray R) : NDArray R[ε] :=
  ofFn x.shape fun i => .inl (x.get i) + .inr (d.get i)

@[simp] theorem shape_moved (x d : NDArray R) : (x.moved d).shape = x.shape := rfl

@[simp] theorem fst_get_moved (x d : NDArray R) (i : ℕ) : ((x.moved d).get i).fst = x.get i := by
  by_cases h : i < x.size
  · rw [moved, get_ofFn h]
    simp
  · have outside : (x.moved d).size ≤ i := Nat.le_of_not_lt h
    rw [get_of_size_le outside, get_of_size_le (Nat.le_of_not_lt h), TrivSqZeroExt.fst_zero]

theorem snd_get_moved {x d : NDArray R} (same : d.shape = x.shape) (i : ℕ) :
    ((x.moved d).get i).snd = d.get i := by
  by_cases h : i < x.size
  · rw [moved, get_ofFn h]
    simp
  · have outside : (x.moved d).size ≤ i := Nat.le_of_not_lt h
    have outside' : d.size ≤ i := by
      rw [size, same]
      exact Nat.le_of_not_lt h
    rw [get_of_size_le outside, get_of_size_le outside', TrivSqZeroExt.snd_zero]

end NDArray

namespace Operation

variable {α β ν R : Type}

def mapScalars [Zero α] (f : α → β) : Operation α ν → Operation β ν
  | add a b => add a b
  | multiply a b => multiply a b
  | scale c x => scale (f c) x
  | matmul a b => matmul a b
  | transpose x => transpose x
  | reshape s x => reshape s x
  | relu x => relu x
  | softmax x => softmax x
  | layerNorm eps x gamma beta => layerNorm (f eps) x gamma beta
  | embedding is table => embedding is table
  | attentionScores c causal q k => attentionScores (f c) causal q k
  | attentionApply w v => attentionApply w v
  | crossEntropy ts x => crossEntropy ts x
  | mse t x => mse (t.map f) x

/-- The first-order change of the result where each operand `v` changes from `x v` by `d v`. -/
noncomputable def change [RingScalar R] (op : Operation R ν) (x d : ν → NDArray R) : NDArray R :=
  ((op.mapScalars TrivSqZeroExt.inl).result fun v => (x v).moved (d v)).map TrivSqZeroExt.snd

theorem shape_change [RingScalar R] (op : Operation R ν) (x d : ν → NDArray R) :
    (op.change x d).shape = (op.result x).shape := by
  cases op with
  | add a b =>
    exact (NDArray.shape_addBroadcast ((x a).moved (d a)) ((x b).moved (d b))).trans
      (NDArray.shape_addBroadcast (x a) (x b)).symm
  | _ => rfl

theorem get_change [RingScalar R] (op : Operation R ν) (x d : ν → NDArray R) {n : ℕ}
    (h : n < (op.result x).size) : (op.change x d).get n =
      (((op.mapScalars .inl).result fun v => (x v).moved (d v)).get n).snd := by
  have inside : n < (op.change x d).size := by rwa [NDArray.size, shape_change]
  exact NDArray.get_ofFn inside

/-- The operations that take sums and products only. -/
def Arithmetic : Operation α ν → Prop
  | add .. | multiply .. | scale .. | matmul .. | transpose _ | reshape .. | embedding ..
  | attentionScores .. | attentionApply .. => True
  | relu _ | softmax _ | layerNorm .. | crossEntropy .. | mse .. => False

def hides (op : Operation α ν) (shape : ν → Shape) (n : ℕ) : Bool :=
  match op with
  | attentionScores _ causal q _ =>
    let seq := (shape q).dim 0
    causal && decide (n / seq % seq < n % seq)
  | _ => false

end Operation

end DerivativeEngine
