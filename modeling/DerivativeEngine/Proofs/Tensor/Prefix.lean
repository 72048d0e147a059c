import DerivativeEngine.Proofs.Tensor.Arrays
import DerivativeEngine.Tape.Operation

/-! Arrays of different lengths that agree on their first rows. What works on each row by itself,
elementwise or with numbers computed from the row, keeps the agreement. -/

namespace DerivativeEngine

variable {α : Type}

theorem sumTo_congr [Zero α] [Add α] {f g : Nat → α} : ∀ {n : Nat}, (∀ j < n, f j = g j) →
    sumTo f n = sumTo g n
  | 0, _ => rfl
  | n + 1, same => by
    rw [sumTo, sumTo, same n (Nat.lt_succ_self n),
      sumTo_congr fun j hj => same j (Nat.lt_succ_of_lt hj)]

theorem foldTo_congr {op : α → α → α} {f g : Nat → α} : ∀ {n : Nat}, (∀ j ≤ n, f j = g j) →
    foldTo op f n = foldTo op g n
  | 0, same => same 0 (Nat.le_refl 0)
  | n + 1, same => by
    rw [foldTo, foldTo, same (n + 1) (Nat.le_refl _),
      foldTo_congr fun j hj => same j (Nat.le_succ_of_le hj)]

namespace Shape

theorem index_lt {r p j d : Nat} (hr : r < p) (hj : j < d) : r * d + j < p * d :=
  calc r * d + j < r * d + d := Nat.add_lt_add_left hj _
    _ = (r + 1) * d := (Nat.succ_mul r d).symm
    _ ≤ p * d := Nat.mul_le_mul_right d hr

theorem row_lt {i p d : Nat} (h : i < p * d) : i / d < p :=
  Nat.div_lt_of_lt_mul (Nat.mul_comm p d ▸ h)

theorem index_div {r j d : Nat} (hj : j < d) : (r * d + j) / d = r := by
  rw [Nat.mul_comm, Nat.mul_add_div (Nat.zero_lt_of_lt hj), Nat.div_eq_of_lt hj, Nat.add_zero]

theorem index_mod {r j d : Nat} (hj : j < d) : (r * d + j) % d = j := by
  rw [Nat.mul_comm, Nat.mul_add_mod, Nat.mod_eq_of_lt hj]

end Shape

namespace NDArray

structure Agree [Zero α] (p : Nat) (s : Shape) (x x' : NDArray α) : Prop where
  shapes : ∃ n n', x.shape = n :: s ∧ x'.shape = n' :: s ∧ p ≤ n ∧ p ≤ n'
  entries : ∀ i < p * Shape.size s, x.get i = x'.get i

section

variable [Zero α] {p n n' d : Nat} {s t : Shape} {x x' y y' : NDArray α}

theorem Agree.ofFn {f f' : Nat → α} (first : p ≤ n) (second : p ≤ n')
    (same : ∀ i < p * Shape.size s, f i = f' i) :
    Agree p s (.ofFn (n :: s) f) (.ofFn (n' :: s) f') where
  shapes := ⟨n, n', rfl, rfl, first, second⟩
  entries i hi := by
    have inside : i < Shape.size (n :: s) :=
      Nat.lt_of_lt_of_le hi (Nat.mul_le_mul_right _ first)
    have inside' : i < Shape.size (n' :: s) :=
      Nat.lt_of_lt_of_le hi (Nat.mul_le_mul_right _ second)
    rw [get_ofFn inside, get_ofFn inside', same i hi]

theorem Agree.of_shape {f f' : Nat → α} (h : Agree p s x x')
    (same : ∀ i < p * Shape.size s, f i = f' i) :
    Agree p s (.ofFn x.shape f) (.ofFn x'.shape f') := by
  obtain ⟨n, n', shape, shape', first, second⟩ := h.shapes
  rw [shape, shape']
  exact .ofFn first second same

theorem Agree.map (f : α → α) (h : Agree p s x x') : Agree p s (x.map f) (x'.map f) :=
  h.of_shape fun i hi => congrArg f (h.entries i hi)

theorem Agree.zipWith (f : α → α → α) (h : Agree p s x x') (h' : Agree p s y y') :
    Agree p s (NDArray.zipWith f x y) (NDArray.zipWith f x' y') := by
  refine h.of_shape fun i hi => ?_
  rw [h.entries i hi, h'.entries i hi]

theorem Agree.reshape (h : Agree p s x x') (size : Shape.size t = Shape.size s) (first : p ≤ n)
    (second : p ≤ n') : Agree p t (x.reshape (n :: t)) (x'.reshape (n' :: t)) :=
  .ofFn first second fun i hi => h.entries i (size ▸ hi)

theorem Agree.row (h : Agree p [d] x x') {r j : Nat} (hr : r < p) (hj : j < d) :
    x.get (r * d + j) = x'.get (r * d + j) := by
  refine h.entries _ ?_
  rw [Shape.size, List.foldr_cons, List.foldr_nil, Nat.mul_one]
  exact Shape.index_lt hr hj

theorem Agree.last (h : Agree p [d] x x') : x.shape.last = d ∧ x'.shape.last = d := by
  obtain ⟨n, n', shape, shape', -⟩ := h.shapes
  rw [shape, shape']
  exact ⟨rfl, rfl⟩

theorem Agree.row_lt {i : Nat} (hi : i < p * Shape.size [d]) : i / d < p := by
  rw [Shape.size, List.foldr_cons, List.foldr_nil, Nat.mul_one] at hi
  exact Shape.row_lt hi

theorem Agree.addRow [Add α] [Mul α] (h : Agree p [d] x x') (v : NDArray α) :
    Agree p [d] (x.addRow v) (x'.addRow v) := by
  obtain ⟨last, last'⟩ := h.last
  simp only [NDArray.addRow, last, last']
  refine h.of_shape fun i hi => ?_
  rw [h.entries i hi]

theorem Agree.mulRow [Add α] [Mul α] (h : Agree p [d] x x') (v : NDArray α) :
    Agree p [d] (x.mulRow v) (x'.mulRow v) := by
  obtain ⟨last, last'⟩ := h.last
  simp only [NDArray.mulRow, last, last']
  refine h.of_shape fun i hi => ?_
  rw [h.entries i hi]

theorem Agree.matmul [Add α] [Mul α] {e : Nat} {w : NDArray α} (shape : w.shape = [d, e])
    (h : Agree p [d] x x') : Agree p [e] (x.matmul w) (x'.matmul w) := by
  obtain ⟨n, n', rows, rows', first, second⟩ := h.shapes
  simp only [NDArray.matmul, rows, rows', shape, Shape.dim, List.getD_cons_zero,
    List.getD_cons_succ]
  refine .ofFn first second fun i hi => sumTo_congr fun l hl => ?_
  rw [h.row (row_lt hi) hl]

theorem Agree.perRow [Add α] {f : (Nat → α) → Nat → α}
    (rowwise : ∀ {g g' : Nat → α} {n : Nat}, (∀ j < n, g j = g' j) → f g n = f g' n)
    (h : Agree p [d] x x') : Agree p [1] (x.perRow f) (x'.perRow f) := by
  obtain ⟨last, last'⟩ := h.last
  obtain ⟨n, n', rows, rows', first, second⟩ := h.shapes
  simp only [NDArray.perRow, last, last']
  rw [rows, rows']
  refine .ofFn first second fun r hr => rowwise fun j hj => ?_
  have row : r < p := by simpa [Shape.size] using hr
  exact h.row row hj

theorem Agree.withRows [Add α] (f : α → α → α) (h : Agree p [d] x x') (h' : Agree p [1] y y') :
    Agree p [d] (x.withRows f y) (x'.withRows f y') := by
  obtain ⟨last, last'⟩ := h.last
  simp only [NDArray.withRows, last, last']
  refine h.of_shape fun i hi => ?_
  have row : y.get (i / d) = y'.get (i / d) := by
    refine h'.entries _ ?_
    simpa [Shape.size] using row_lt hi
  rw [h.entries i hi, row]

theorem Agree.gather [Add α] [Mul α] {table : NDArray α} {m : Nat} {is is' : List Nat}
    (shape : table.shape = [m, d]) (first : p ≤ is.length) (second : p ≤ is'.length)
    (same : ∀ r < p, is.getD r 0 = is'.getD r 0) :
    Agree p [d] (table.gather is) (table.gather is') := by
  simp only [NDArray.gather, shape, Shape.dim, List.getD_cons_zero, List.getD_cons_succ]
  refine .ofFn first second fun i hi => ?_
  rw [same (i / d) (row_lt hi)]

end

section

variable [Scalar α] {p d : Nat} {x x' : NDArray α}

theorem Agree.rowMeans (h : Agree p [d] x x') : Agree p [1] x.rowMeans x'.rowMeans :=
  h.perRow fun same => by rw [sumTo_congr same]

theorem Agree.centred (h : Agree p [d] x x') : Agree p [d] x.centred x'.centred :=
  h.withRows (· - ·) h.rowMeans

theorem Agree.rowVariances (h : Agree p [d] x x') :
    Agree p [1] x.rowVariances x'.rowVariances :=
  (h.centred.zipWith (· * ·) h.centred).rowMeans

theorem Agree.layerNorm (h : Agree p [d] x x') (eps : α) (gamma beta : NDArray α) :
    Agree p [d] (x.layerNorm eps gamma beta) (x'.layerNorm eps gamma beta) :=
  ((h.centred.mulRow gamma).withRows (· / ·) (h.rowVariances.map _)).addRow beta

theorem Agree.relu (h : Agree p [d] x x') : Agree p [d] x.relu x'.relu := h.map _

end

end NDArray

end DerivativeEngine
