import DerivativeEngine.Tape.Operation

/-! The operands of an operation, visited from left to right. A visit that can fail gives the
operation on what each operand gave, or the first failure; a visit that leaves a state alone is a
visit without the state. -/

namespace DerivativeEngine.Operation

variable {α ν μ ε σ : Type} {op : Operation α ν}

section

variable {k : ν → Except ε μ} {f : ν → μ}

theorem mapM_of_ok (h : ∀ v ∈ op.operands, k v = .ok (f v)) : op.mapM k = .ok (op.map f) := by
  cases op with
  | add a b | multiply a b | matmul a b | attentionScores c causal a b | attentionApply a b =>
    have first := h a (by simp [operands])
    have second := h b (by simp [operands])
    simp only [mapM, first, second]
    rfl
  | layerNorm eps x gamma beta =>
    have first := h x (by simp [operands])
    have second := h gamma (by simp [operands])
    have third := h beta (by simp [operands])
    simp only [mapM, first, second, third]
    rfl
  | scale c x | transpose x | reshape s x | relu x | softmax x | embedding is x
  | crossEntropy ts x | mse target x =>
    have only := h x (by simp [operands])
    simp only [mapM, only]
    rfl

theorem map_congr {g : ν → μ} (h : ∀ v ∈ op.operands, f v = g v) : op.map f = op.map g := by
  have left : op.mapM (fun v => (Except.ok (g v) : Except Unit μ)) = .ok (op.map f) :=
    mapM_of_ok fun v hv => congrArg Except.ok (h v hv).symm
  have right : op.mapM (fun v => (Except.ok (g v) : Except Unit μ)) = .ok (op.map g) :=
    mapM_of_ok fun v hv => rfl
  rw [left] at right
  exact Except.ok.inj right

theorem ok_of_bind {g : μ → Except ε σ} {x : Except ε μ} {y : σ} (h : (x >>= g) = .ok y) :
    ∃ a, x = .ok a ∧ g a = .ok y := by
  cases x with
  | error e => cases h
  | ok a => exact ⟨a, rfl, h⟩

theorem ok_of_mapM {a : Operation α μ} (h : op.mapM k = .ok a) :
    ∀ v ∈ op.operands, ∃ x, k v = .ok x := by
  cases op with
  | add x y | multiply x y | matmul x y | attentionScores c causal x y | attentionApply x y =>
    obtain ⟨first, hfirst, rest⟩ := ok_of_bind h
    obtain ⟨second, hsecond, -⟩ := ok_of_bind rest
    simp [operands, hfirst, hsecond]
  | layerNorm eps x gamma beta =>
    obtain ⟨first, hfirst, rest⟩ := ok_of_bind h
    obtain ⟨second, hsecond, rest⟩ := ok_of_bind rest
    obtain ⟨third, hthird, -⟩ := ok_of_bind rest
    simp [operands, hfirst, hsecond, hthird]
  | scale c x | transpose x | reshape s x | relu x | softmax x | embedding is x
  | crossEntropy ts x | mse target x =>
    obtain ⟨only, honly, -⟩ := ok_of_bind h
    simp [operands, honly]

theorem mapM_eq_ok_iff (single : ∀ v x, k v = .ok x → x = f v) {a : Operation α μ} :
    op.mapM k = .ok a ↔ a = op.map f ∧ ∀ v ∈ op.operands, k v = .ok (f v) := by
  constructor
  · intro h
    have each : ∀ v ∈ op.operands, k v = .ok (f v) := by
      intro v hv
      obtain ⟨x, hx⟩ := ok_of_mapM h v hv
      rw [hx, single v x hx]
    rw [mapM_of_ok each] at h
    exact ⟨(Except.ok.inj h).symm, each⟩
  · rintro ⟨rfl, each⟩
    exact mapM_of_ok each

end

/-- Operations of which layers are made, the scores of attention apart. -/
def Simple (number : α → Prop) : Operation α ν → Prop
  | scale c _ => number c
  | layerNorm eps .. => number eps
  | attentionScores .. | crossEntropy .. | mse .. => False
  | _ => True

end DerivativeEngine.Operation
