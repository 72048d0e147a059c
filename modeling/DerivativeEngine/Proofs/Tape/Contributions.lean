import DerivativeEngine.Proofs.Tape.Operands

/-! What the reverse of an operation sends. The operation was checked on the shapes of its operands
and computed from arrays of these shapes, so its reverse finds the arrays it asks for: it sends one
contribution for each operand, and each contribution has the shape of the operand it is sent to. -/

namespace DerivativeEngine.Operation

variable {α ν : Type}

/-- The operation fits the shapes of its operands, and the values have these shapes. -/
structure Applied (op : Operation α ν) (shape : ν → Shape) (values : ν → NDArray α) : Prop where
  check : (op.map shape).check = .ok ()
  shapes : ∀ v ∈ op.operands, (values v).shape = shape v

theorem Applied.congr {op : Operation α ν} {shape shape' : ν → Shape} {values : ν → NDArray α}
    (same : ∀ v ∈ op.operands, shape' v = shape v) (h : op.Applied shape values) :
    op.Applied shape' values where
  check := by
    rw [map_congr same]
    exact h.check
  shapes v hv := (h.shapes v hv).trans (same v hv).symm

variable [Scalar α]

def result (op : Operation α ν) (values : ν → NDArray α) : NDArray α := (op.map values).value

/-- Everything sent for the gradient `g` of the result, what needs an operand as it is now last. -/
def sent (op : Operation α ν) (shape : ν → Shape) (saved : List (NDArray α)) (now : ν → NDArray α)
    (g : NDArray α) : List (ν × NDArray α) :=
  (op.map fun v => (v, shape v)).reverse saved g ++
    match op.deferred? saved g with
    | none => []
    | some d => [(d.target, d.contribution (now d.reads))]

variable {op : Operation α ν} {shape : ν → Shape} {values now : ν → NDArray α} {g : NDArray α}

section

omit [Scalar α]

theorem one_fits {v : ν} {x : NDArray α} (h : x.shape = shape v) :
    ∀ p ∈ [(v, x)], p.2.shape = shape p.1 :=
  List.forall_mem_singleton.2 h

theorem two_fit {v w : ν} {x y : NDArray α} (first : x.shape = shape v)
    (second : y.shape = shape w) :
    ∀ p ∈ [(v, x), (w, y)], p.2.shape = shape p.1 :=
  List.forall_mem_cons.2 ⟨first, one_fits second⟩

end

theorem of_ite_ok {p : Prop} [Decidable p] {e : ShapeError}
    (h : (if p then Except.ok () else Except.error e) = Except.ok ()) : p := by
  by_cases hp : p
  · exact hp
  · rw [if_neg hp] at h
    cases h

theorem of_ite_error {p : Prop} [Decidable p] {e : ShapeError} {x : Except ShapeError Unit}
    (h : (if p then Except.error e else x) = Except.ok ()) : ¬p ∧ x = .ok () := by
  by_cases hp : p
  · rw [if_pos hp] at h
    cases h
  · rw [if_neg hp] at h
    exact ⟨hp, h⟩

theorem eq_dims_two {s : Shape} (h : s.length = 2) : s = [s.dim 0, s.dim 1] := by
  match s, h with
  | [_, _], _ => rfl

theorem eq_dims_three {s : Shape} (h : s.length = 3) : s = [s.dim 0, s.dim 1, s.dim 2] := by
  match s, h with
  | [_, _, _], _ => rfl

theorem rowFits_iff {matrix row : Shape} :
    rowFits matrix row = true ↔ ∃ m n, matrix = [m, n] ∧ row = [n] := by
  constructor
  · intro h
    simp only [rowFits, Bool.and_eq_true, beq_iff_eq] at h
    obtain ⟨⟨two, one⟩, width⟩ := h
    match row, one with
    | [n], _ =>
      refine ⟨matrix.dim 0, n, ?_, rfl⟩
      rw [eq_dims_two two, width]
      rfl
  · rintro ⟨m, n, rfl, rfl⟩
    simp [rowFits, Shape.dim]

theorem checkMatmul_eq_ok {a b : Shape} (h : checkMatmul a b = .ok ()) :
    ∃ m k n, a = [m, k] ∧ b = [k, n] := by
  obtain ⟨ranks, h⟩ := of_ite_error h
  obtain ⟨inner, -⟩ := of_ite_error h
  simp only [Bool.or_eq_true, bne_iff_ne, ne_eq, not_or, Decidable.not_not] at ranks inner
  refine ⟨a.dim 0, a.dim 1, b.dim 1, eq_dims_two ranks.1, ?_⟩
  rw [inner]
  exact eq_dims_two ranks.2

theorem checkScores_eq_ok {q k : Shape} (h : checkScores q k = .ok ()) :
    ∃ s heads width, q = [s, heads, width] ∧ k = [s, heads, width] := by
  have fits := of_ite_ok h
  simp only [Bool.and_eq_true, beq_iff_eq] at fits
  refine ⟨q.dim 0, q.dim 1, q.dim 2, eq_dims_three fits.1, ?_⟩
  rw [← fits.2]
  exact eq_dims_three fits.1

theorem checkApply_eq_ok {w v : Shape} (h : checkApply w v = .ok ()) :
    ∃ s heads width, w = [heads, s, s] ∧ v = [s, heads, width] := by
  obtain ⟨ranks, h⟩ := of_ite_error h
  have fits := of_ite_ok h
  simp only [Bool.and_eq_true, beq_iff_eq] at fits
  simp only [Bool.or_eq_true, bne_iff_ne, ne_eq, not_or, Decidable.not_not] at ranks
  obtain ⟨⟨square, seq⟩, heads⟩ := fits
  refine ⟨w.dim 1, w.dim 0, v.dim 2, ?_, ?_⟩
  · have dims := eq_dims_three ranks.1
    rwa [← square] at dims
  · have dims := eq_dims_three ranks.2
    rwa [seq, heads] at dims

theorem addReverse_fits {a b : ν} (h : (add a b : Operation α ν).Applied shape values)
    (out : g.shape = ((add a b : Operation α ν).result values).shape) :
    (NDArray.addReverse (shape a) g).shape = shape a ∧
      (NDArray.addReverse (shape b) g).shape = shape b := by
  have left : (values a).shape = shape a := h.shapes a (by simp [operands])
  have right : (values b).shape = shape b := h.shapes b (by simp [operands])
  have check : checkAdd (shape a) (shape b) = .ok () := h.check
  have sum : g.shape = (NDArray.addBroadcast (values a) (values b)).shape := out
  have whole : ∀ s, s = g.shape → (NDArray.addReverse s g).shape = s := by
    intro s same
    rw [NDArray.addReverse, if_pos same, same]
  have row : ∀ n, g.shape.last = n → g.shape ≠ [n] → (NDArray.addReverse [n] g).shape = [n] := by
    intro n width other
    rw [NDArray.addReverse, if_neg (Ne.symm other), ← width]
    rfl
  simp only [NDArray.addBroadcast, left, right] at sum
  by_cases same : shape a = shape b
  · rw [if_pos same] at sum
    have sum : g.shape = shape a := sum.trans left
    exact ⟨whole _ sum.symm, whole _ (same.symm.trans sum.symm)⟩
  · rw [if_neg same] at sum
    have fits := of_ite_ok check
    rw [beq_eq_false_iff_ne.2 same, Bool.false_or] at fits
    by_cases two : (shape a).length = 2
    · rw [if_pos (by simpa using two)] at fits
      obtain ⟨m, n, matrix, vector⟩ := rowFits_iff.1 fits
      rw [if_pos two] at sum
      have sum : g.shape = [m, n] := sum.trans (left.trans matrix)
      refine ⟨whole _ (matrix.trans sum.symm), ?_⟩
      rw [vector]
      exact row n (by rw [sum]; rfl) (by simp [sum])
    · rw [if_neg (by simpa using two)] at fits
      obtain ⟨m, n, matrix, vector⟩ := rowFits_iff.1 fits
      rw [if_neg two] at sum
      have sum : g.shape = [m, n] := sum.trans (right.trans matrix)
      refine ⟨?_, whole _ (matrix.trans sum.symm)⟩
      rw [vector]
      exact row n (by rw [sum]; rfl) (by simp [sum])

theorem shape_of_mem_sent (h : op.Applied shape values)
    (out : g.shape = (op.result values).shape) :
    ∀ p ∈ op.sent shape ((op.map values).saved (op.result values)) now g,
      p.2.shape = shape p.1 := by
  cases op with
  | add a b =>
    obtain ⟨left, right⟩ := addReverse_fits h out
    exact two_fit left right
  | multiply a b =>
    have left : (values a).shape = shape a := h.shapes a (by simp [operands])
    have same : shape a = shape b := by
      have check : (shape a == shape b) = true := of_ite_ok h.check
      simpa using check
    have product : g.shape = (values a).shape := out
    exact two_fit (product.trans left) (product.trans (left.trans same))
  | scale c x =>
    have operand : (values x).shape = shape x := h.shapes x (by simp [operands])
    have result : g.shape = (values x).shape := out
    exact one_fits (result.trans operand)
  | relu x | softmax x | crossEntropy ts x | mse target x =>
    have operand : (values x).shape = shape x := h.shapes x (by simp [operands])
    exact one_fits operand
  | reshape s x | embedding is x => exact one_fits rfl
  | matmul a b =>
    have check : checkMatmul (shape a) (shape b) = .ok () := h.check
    obtain ⟨m, k, n, left, right⟩ := checkMatmul_eq_ok check
    have hleft : (values a).shape = shape a := h.shapes a (by simp [operands])
    have hright : (values b).shape = shape b := h.shapes b (by simp [operands])
    have product : g.shape = [(values a).shape.dim 0, (values b).shape.dim 1] := out
    rw [hleft, hright, left, right] at product
    refine two_fit ?_ ?_
    · show [g.shape.dim 0, (values b).shape.dim 0] = shape a
      rw [hright, product, left, right]
      rfl
    · show [(values a).shape.dim 1, g.shape.dim 1] = shape b
      rw [hleft, product, left, right]
      rfl
  | transpose x =>
    have operand : (values x).shape = shape x := h.shapes x (by simp [operands])
    have two : (shape x).length = 2 := by
      have check : ((shape x).length == 2) = true := of_ite_ok h.check
      simpa using check
    have result : g.shape = [(values x).shape.dim 1, (values x).shape.dim 0] := out
    have sent : g.transpose.shape = [g.shape.dim 1, g.shape.dim 0] := rfl
    rw [operand] at result
    refine one_fits ?_
    rw [sent, result]
    exact (eq_dims_two two).symm
  | layerNorm eps x gamma beta =>
    have operand : (values x).shape = shape x := h.shapes x (by simp [operands])
    have result : g.shape = (values x).shape := out
    have rows : shape gamma = [(shape x).last] ∧ shape beta = [(shape x).last] := by
      have check : (shape gamma == [(shape x).last] && shape beta == [(shape x).last]) = true :=
        of_ite_ok h.check
      simpa using check
    rw [operand] at result
    have gain : ([g.shape.last] : Shape) = shape gamma := by rw [result, rows.1]
    have shift : ([g.shape.last] : Shape) = shape beta := by rw [result, rows.2]
    exact List.forall_mem_cons.2 ⟨gain, two_fit shift result⟩
  | attentionScores c causal q k =>
    have check : checkScores (shape q) (shape k) = .ok () := h.check
    obtain ⟨s, heads, width, query, key⟩ := checkScores_eq_ok check
    have hq : (values q).shape = shape q := h.shapes q (by simp [operands])
    have hk : (values k).shape = shape k := h.shapes k (by simp [operands])
    refine two_fit ?_ ?_
    · show [(values k).shape.dim 0, (values k).shape.dim 1, (values k).shape.dim 2] = shape q
      rw [hk, key, query]
      rfl
    · show [(values q).shape.dim 0, (values q).shape.dim 1, (values q).shape.dim 2] = shape k
      rw [hq, key, query]
      rfl
  | attentionApply w v =>
    have check : checkApply (shape w) (shape v) = .ok () := h.check
    obtain ⟨s, heads, width, weights, vals⟩ := checkApply_eq_ok check
    have hv : (values v).shape = shape v := h.shapes v (by simp [operands])
    have result : g.shape =
      [(values v).shape.dim 0, (values v).shape.dim 1, (values v).shape.dim 2] := out
    rw [hv, vals] at result
    refine two_fit ?_ ?_
    · show [(values v).shape.dim 1, (values v).shape.dim 0, (values v).shape.dim 0] = shape w
      rw [hv, vals, weights]
      rfl
    · show [g.shape.dim 0, g.shape.dim 1, g.shape.dim 2] = shape v
      rw [result, vals]
      rfl

/-- The operand that is read again when the record is swept: the gain of a layer normalisation. -/
def gain? : Operation α ν → Option ν
  | layerNorm _ _ gamma _ => some gamma
  | _ => none

theorem gain_of_deferred {saved : List (NDArray α)} {d : Deferred α ν}
    (h : op.deferred? saved g = some d) : op.gain? = some d.reads := by
  cases op with
  | layerNorm eps x gamma beta =>
    unfold deferred? at h
    split at h
    · next same =>
      cases same
      obtain rfl := Option.some.inj h
      rfl
    · cases h
  | _ => cases h

omit [Scalar α] in
theorem mem_operands_of_gain {v : ν} (h : op.gain? = some v) : v ∈ op.operands := by
  cases op with
  | layerNorm eps x gamma beta =>
    obtain rfl := Option.some.inj h
    simp [operands]
  | _ => cases h

theorem mem_operands_of_deferred {saved : List (NDArray α)} {d : Deferred α ν}
    (h : op.deferred? saved g = some d) : d.reads ∈ op.operands :=
  mem_operands_of_gain (gain_of_deferred h)

theorem sent_congr {shape' : ν → Shape} {now' : ν → NDArray α} {saved : List (NDArray α)}
    (shapes : ∀ v ∈ op.operands, shape' v = shape v) (same : ∀ v ∈ op.operands, now' v = now v) :
    op.sent shape' saved now' g = op.sent shape saved now g := by
  have shaped : op.map (fun v => (v, shape' v)) = op.map fun v => (v, shape v) :=
    map_congr fun v hv => by rw [shapes v hv]
  unfold sent
  rw [shaped]
  cases hd : op.deferred? saved g with
  | none => rfl
  | some d =>
    dsimp only
    rw [same _ (mem_operands_of_deferred hd)]

theorem targets_sent (op : Operation α ν) :
    ((op.sent shape ((op.map values).saved (op.result values)) now g).map Prod.fst).Perm
      op.operands := by
  cases op with
  | layerNorm eps x gamma beta =>
    exact @List.perm_append_comm _ [gamma, beta] [x]
  | _ => exact .refl _

end DerivativeEngine.Operation

namespace DerivativeEngine.Operation

variable {α ν μ κ : Type}

theorem map_map (op : Operation α ν) (f : ν → μ) (g : μ → κ) :
    (op.map f).map g = op.map fun v => g (f v) := by
  cases op <;> rfl

theorem operands_map (op : Operation α ν) (f : ν → μ) :
    (op.map f).operands = op.operands.map f := by
  cases op <;> rfl

variable [Scalar α]

theorem reverse_map (op : Operation α (ν × Shape)) (f : ν → μ) (saved : List (NDArray α))
    (g : NDArray α) : (op.map (Prod.map f id)).reverse saved g =
      (op.reverse saved g).map (Prod.map f id) := by
  cases op with
  | add a b | scale c a | transpose a | reshape s a | embedding is a => rfl
  | multiply a b | matmul a b | attentionScores c causal a b | attentionApply a b =>
    match saved with
    | [x, y] => rfl
    | [] | [_] | _ :: _ :: _ :: _ => rfl
  | relu a | softmax a | crossEntropy ts a =>
    match saved with
    | [x] => rfl
    | [] | _ :: _ :: _ => rfl
  | mse target a =>
    match saved with
    | [x, y] => rfl
    | [] | [_] | _ :: _ :: _ :: _ => rfl
  | layerNorm eps x gamma beta =>
    match saved with
    | [x, mean, variance] => rfl
    | [] | [_] | [_, _] | _ :: _ :: _ :: _ :: _ => rfl

theorem deferred?_map (op : Operation α ν) (f : ν → μ) (saved : List (NDArray α))
    (g : NDArray α) : (op.map f).deferred? saved g =
      (op.deferred? saved g).map fun d => ⟨f d.reads, f d.target, d.contribution⟩ := by
  cases op with
  | layerNorm eps x gamma beta =>
    match saved with
    | [x, mean, variance] => rfl
    | [] | [_] | [_, _] | _ :: _ :: _ :: _ :: _ => rfl
  | _ => rfl

theorem sent_map (op : Operation α ν) (f : ν → μ) (shape : μ → Shape) (saved : List (NDArray α))
    (now : μ → NDArray α) (g : NDArray α) : (op.map f).sent shape saved now g =
      (op.sent (fun v => shape (f v)) saved (fun v => now (f v)) g).map (Prod.map f id) := by
  have shaped : (op.map f).map (fun v => (v, shape v)) =
      (op.map fun v => (v, shape (f v))).map (Prod.map f id) := by
    rw [map_map, map_map]
    rfl
  unfold sent
  rw [shaped, reverse_map, deferred?_map, List.map_append]
  cases op.deferred? saved g <;> rfl

end DerivativeEngine.Operation
