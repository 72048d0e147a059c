import DerivativeEngine.Proofs.Tensor.Prefix

/-! Rows of arrays of any rank. A shape lines up as many rows as its leading dimensions have places,
each as long as the last dimension; what is computed row by row is read here at a row and a place in
it. -/

namespace DerivativeEngine

namespace Shape

def rows (s : Shape) : Nat := Shape.size (NDArray.rowShape s)

theorem size_append (s t : Shape) : Shape.size (s ++ t) = s.size * t.size := by
  induction s with
  | nil => simp [size]
  | cons n s ih =>
    rw [size, size] at *
    rw [List.cons_append, List.foldr_cons, List.foldr_cons, ih, Nat.mul_assoc]

theorem size_eq_rows (s : Shape) : s.size = s.rows * s.last := by
  rcases List.eq_nil_or_concat s with rfl | ⟨s, n, rfl⟩
  · rfl
  · have final : Shape.last (s ++ [n]) = n := by simp [last]
    have lead : NDArray.rowShape (s ++ [n]) = s ++ [1] := by simp [NDArray.rowShape]
    rw [List.concat_eq_append, rows, lead, final, size_append, size_append]
    simp [size]

theorem rows_two (m n : Nat) : rows [m, n] = m := by simp [rows, NDArray.rowShape, size]

theorem place_lt {s : Shape} {r j : Nat} (hr : r < s.rows) (hj : j < s.last) :
    r * s.last + j < s.size :=
  s.size_eq_rows ▸ index_lt hr hj

theorem exists_place {s : Shape} {i : Nat} (h : i < s.size) :
    ∃ r < s.rows, ∃ j < s.last, i = r * s.last + j := by
  rw [size_eq_rows] at h
  have wide : 0 < s.last := Nat.pos_of_mul_pos_left (Nat.zero_lt_of_lt h)
  exact ⟨i / s.last, row_lt h, i % s.last, Nat.mod_lt _ wide, (Nat.div_add_mod' i s.last).symm⟩

end Shape

namespace NDArray

variable {α : Type} {s : Shape} {r j : Nat}

section

variable [Zero α] {a v : NDArray α}

theorem get_product [Mul α] {i : Nat} (h : i < a.size) : (a.mul v).get i = a.get i * v.get i :=
  get_ofFn h

theorem get_perRow {f : (Nat → α) → Nat → α} (shape : a.shape = s) (hr : r < s.rows) :
    (a.perRow f).get r = f (fun j => a.get (r * s.last + j)) s.last := by
  subst shape
  exact get_ofFn hr

theorem get_withRows {f : α → α → α} (shape : a.shape = s) (hr : r < s.rows) (hj : j < s.last) :
    (a.withRows f v).get (r * s.last + j) = f (a.get (r * s.last + j)) (v.get r) := by
  subst shape
  rw [withRows, get_ofFn (Shape.place_lt hr hj), Shape.index_div hj]

theorem get_rowSums [Add α] (shape : a.shape = s) (hr : r < s.rows) :
    a.rowSums.get r = sumTo (fun j => a.get (r * s.last + j)) s.last :=
  get_perRow shape hr

theorem get_addRow [Add α] (shape : a.shape = s) (hr : r < s.rows) (hj : j < s.last) :
    (a.addRow v).get (r * s.last + j) = a.get (r * s.last + j) + v.get j := by
  subst shape
  rw [addRow, get_ofFn (Shape.place_lt hr hj), Shape.index_mod hj]

theorem get_mulRow [Mul α] (shape : a.shape = s) (hr : r < s.rows) (hj : j < s.last) :
    (a.mulRow v).get (r * s.last + j) = v.get j * a.get (r * s.last + j) := by
  subst shape
  rw [mulRow, get_ofFn (Shape.place_lt hr hj), Shape.index_mod hj]

theorem get_mul [Mul α] (shape : a.shape = s) (hr : r < s.rows) (hj : j < s.last) :
    (a.mul v).get (r * s.last + j) = a.get (r * s.last + j) * v.get (r * s.last + j) := by
  subst shape
  exact get_product (Shape.place_lt hr hj)

theorem get_sumRows [Add α] (shape : a.shape = s) (hj : j < s.last) :
    a.sumRows.get j = sumTo (fun r => a.get (r * s.last + j)) s.rows := by
  subst shape
  have inside : j < Shape.size [a.shape.last] := by simpa [Shape.size] using hj
  have rows : a.size / a.shape.last = a.shape.rows := by
    rw [size, Shape.size_eq_rows, Nat.mul_div_cancel _ (Nat.zero_lt_of_lt hj)]
  rw [sumRows, get_ofFn inside, rows]

end

section

variable [Scalar α] {a b : NDArray α}

theorem get_sub {i : Nat} (h : i < a.size) : (a.sub b).get i = a.get i - b.get i :=
  get_ofFn h

theorem get_rowMaxima (shape : a.shape = s) (hr : r < s.rows) :
    a.rowMaxima.get r = foldTo larger (fun j => a.get (r * s.last + j)) (s.last - 1) :=
  get_perRow shape hr

theorem get_rowMeans (shape : a.shape = s) (hr : r < s.rows) : a.rowMeans.get r =
    sumTo (fun j => a.get (r * s.last + j)) s.last / Scalar.ofNat s.last :=
  get_perRow shape hr

theorem get_softmax_row (shape : a.shape = s) (hr : r < s.rows) (hj : j < s.last) :
    a.softmax.get (r * s.last + j) =
      Scalar.exp (a.get (r * s.last + j) - a.rowMaxima.get r) /
        sumTo (fun l => Scalar.exp (a.get (r * s.last + l) - a.rowMaxima.get r)) s.last := by
  let e := withRows (fun x m => Scalar.exp (x - m)) a a.rowMaxima
  have shape' : e.shape = s := shape
  have shifted : ∀ l < s.last, e.get (r * s.last + l) =
      Scalar.exp (a.get (r * s.last + l) - a.rowMaxima.get r) :=
    fun l hl => get_withRows shape hr hl
  have quotient : a.softmax.get (r * s.last + j) = e.get (r * s.last + j) / e.rowSums.get r :=
    get_withRows shape' hr hj
  rw [quotient, get_rowSums shape' hr, shifted j hj, sumTo_congr shifted]

end

end NDArray

end DerivativeEngine
