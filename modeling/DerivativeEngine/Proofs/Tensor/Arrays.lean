import DerivativeEngine.Tensor.Broadcast

/-! Arrays as functions on flat indices. Two arrays of one shape with the same elements are the same
array, and shapes that are equal are aligned without repeating anything, so a sum that aligns its
operands is then the plain sum. -/

namespace DerivativeEngine

deriving instance DecidableEq for NDArray

namespace Shape

theorem join?_self (s : Shape) : join? s s = some s := by
  have reversed : ∀ s : Shape, joinReversed s s = some s := by
    intro s
    induction s with
    | nil => rfl
    | cons n s ih => simp [joinReversed, joinDims, ih]
  simp [join?, reversed]

theorem sourceIndex_self {s : Shape} {i : Nat} (h : i < s.foldr (· * ·) 1) :
    sourceIndex s s i = i := by
  induction s generalizing i with
  | nil =>
    have zero : i = 0 := by simpa using h
    rw [zero]
    rfl
  | cons n s ih =>
    have quotient : i / n < s.foldr (· * ·) 1 := by
      apply Nat.div_lt_of_lt_mul
      simpa using h
    simp only [sourceIndex, ih quotient]
    split
    · next one =>
      have one : n = 1 := by simpa using one
      rw [one]
      omega
    · exact Nat.mod_add_div i n

theorem size_reverse (s : Shape) : Shape.size s.reverse = s.size := by
  have push : ∀ s : List Nat, ∀ n, s.foldr (· * ·) n = s.foldr (· * ·) 1 * n := by
    intro s n
    induction s with
    | nil => simp
    | cons m s ih => simp [ih, Nat.mul_assoc]
  unfold size
  induction s with
  | nil => rfl
  | cons n s ih =>
    rw [List.reverse_cons, List.foldr_append, List.foldr_cons, List.foldr_nil, Nat.mul_one, push,
      ih, List.foldr_cons, Nat.mul_comm]

end Shape

namespace NDArray

variable {α : Type}

section

variable [Zero α]

@[simp] theorem get_ofFn {s : Shape} {f : Nat → α} {i : Nat} (h : i < s.size) :
    (ofFn s f).get i = f i := by
  simp [get, ofFn, h]

theorem ext_get {a b : NDArray α} (shape : a.shape = b.shape)
    (elements : ∀ i < a.size, a.get i = b.get i) : a = b := by
  obtain ⟨s, xs, hxs⟩ := a
  obtain ⟨t, ys, hys⟩ := b
  obtain rfl : s = t := shape
  have same : xs = ys := by
    apply Array.ext (by omega)
    intro i hi hi'
    have element := elements i (show i < s.size by omega)
    simpa [get, hi, hi'] using element
  subst same
  rfl

theorem toList_ofFn {s : Shape} {xs : List α} (length : xs.length = s.size) :
    (ofFn s fun i => xs.toArray.getD i 0).toList = xs := by
  apply List.ext_getElem
  · simp [toList, ofFn, length]
  · intro i _ hi
    simp [toList, ofFn, hi]

theorem ofFn_toList (a : NDArray α) :
    (ofFn a.shape fun i => a.toList.toArray.getD i 0) = a := by
  have shape : (ofFn a.shape fun i => a.toList.toArray.getD i 0).shape = a.shape := rfl
  apply ext_get shape
  intro i hi
  exact get_ofFn hi

theorem expand_self (a : NDArray α) : a.expand a.shape = a := by
  have shape : (a.expand a.shape).shape = a.shape := rfl
  apply ext_get shape
  intro i hi
  have inside : i < a.shape.size := hi
  have reversed : i < Shape.size a.shape.reverse := by
    rwa [Shape.size_reverse]
  rw [expand, get_ofFn inside, Shape.sourceIndex_self reversed]

end

theorem addAligned?_of_shape_eq [Zero α] [Add α] [Mul α] {a b : NDArray α}
    (shape : b.shape = a.shape) : a.addAligned? b = some (a.add b) := by
  have left := expand_self a
  have right := expand_self b
  rw [shape] at right
  simp [addAligned?, shape, Shape.join?_self, left, right]

theorem get_add [Zero α] [Add α] {a b : NDArray α} {i : Nat} (h : i < a.size) :
    (a.add b).get i = a.get i + b.get i :=
  get_ofFn h

theorem add_right_comm [Zero α] [Add α] (exact : ∀ x y z : α, x + y + z = x + z + y)
    (a b c : NDArray α) : (a.add b).add c = (a.add c).add b := by
  have shape : ((a.add b).add c).shape = ((a.add c).add b).shape := rfl
  apply ext_get shape
  intro i hi
  have inside : i < a.size := hi
  have first : i < (a.add b).size := hi
  have second : i < (a.add c).size := hi
  rw [get_add first, get_add inside, get_add second, get_add inside, exact]

theorem get_fill [Zero α] {s : Shape} {x : α} {i : Nat} (h : i < s.size) : (fill s x).get i = x :=
  get_ofFn h

theorem add_assoc [Zero α] [Add α] (exact : ∀ x y z : α, x + y + z = x + (y + z))
    {a b : NDArray α} (shape : b.shape = a.shape) (c : NDArray α) :
    (a.add b).add c = a.add (b.add c) := by
  have same : ((a.add b).add c).shape = (a.add (b.add c)).shape := rfl
  apply ext_get same
  intro i hi
  have inside : i < a.size := hi
  have first : i < (a.add b).size := hi
  have second : i < b.size := by rwa [size, shape]
  rw [get_add first, get_add inside, get_add inside, get_add second, exact]

theorem add_zeros [Zero α] [Add α] (exact : ∀ x : α, x + 0 = x) (a : NDArray α) :
    a.add (.fill a.shape 0) = a := by
  have same : (a.add (.fill a.shape 0)).shape = a.shape := rfl
  apply ext_get same
  intro i hi
  have inside : i < a.size := hi
  rw [get_add inside, get_fill inside, exact]

theorem foldl_add [Zero α] [Add α] (assoc : ∀ x y z : α, x + y + z = x + (y + z))
    (zero : ∀ x : α, x + 0 = x) (xs : List (NDArray α)) (a : NDArray α) :
    xs.foldl .add a = a.add (xs.foldl .add (.fill a.shape 0)) := by
  have onto : ∀ b : NDArray α, b.shape = a.shape →
      xs.foldl .add (a.add b) = a.add (xs.foldl .add b) := by
    induction xs with
    | nil => exact fun b _ => rfl
    | cons x xs ih =>
      intro b shape
      rw [List.foldl_cons, List.foldl_cons, add_assoc assoc shape]
      exact ih (b.add x) shape
  have grouped := onto (.fill a.shape 0) rfl
  rwa [add_zeros zero] at grouped

end NDArray

end DerivativeEngine
