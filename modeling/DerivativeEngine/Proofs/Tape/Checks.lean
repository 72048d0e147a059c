import DerivativeEngine.Proofs.Layer.Plan
import DerivativeEngine.Proofs.Tape.Contributions

/-! What operands are like when they were checked. An index that passes is one of a row that is
there, and a target one of a column. -/

namespace DerivativeEngine.Operation

theorem checkAdd_eq_ok {a b : Shape} (h : checkAdd a b = .ok ()) :
    a = b ∨ ∃ m n, (a = [m, n] ∧ b = [n]) ∨ a = [n] ∧ b = [m, n] := by
  have fits := of_ite_ok h
  simp only [Bool.or_eq_true, beq_iff_eq] at fits
  rcases fits with same | fits
  · exact .inl same
  · split at fits
    · obtain ⟨m, n, matrix, row⟩ := rowFits_iff.1 fits
      exact .inr ⟨m, n, .inl ⟨matrix, row⟩⟩
    · obtain ⟨m, n, matrix, row⟩ := rowFits_iff.1 fits
      exact .inr ⟨m, n, .inr ⟨row, matrix⟩⟩

theorem checkReshape_eq_ok {target : List Int} {s : Shape} (h : checkReshape target s = .ok ()) :
    Shape.size (target.map Int.toNat) = s.size := by
  obtain ⟨t, checked, same⟩ := ok_of_bind h
  obtain ⟨-, rfl⟩ := Shape.check_eq_ok.1 checked
  simpa using of_ite_ok (e := .view s _) same

theorem checkLayerNorm_eq_ok {x gamma beta : Shape} (h : checkLayerNorm x gamma beta = .ok ()) :
    gamma = [x.last] ∧ beta = [x.last] := by
  simpa using of_ite_ok h

theorem getD_lt_of_find? {is : List Int} {n r : Nat}
    (h : is.find? (fun i => decide (i < 0) || decide ((n : Int) ≤ i)) = none) (hr : r < is.length) :
    (is.map Int.toNat).getD r 0 < n := by
  have inside := List.find?_eq_none.1 h is[r] (List.getElem_mem hr)
  simp only [Bool.or_eq_true, decide_eq_true_eq, not_or] at inside
  have there : (is.map Int.toNat).getD r 0 = is[r].toNat := by simp [List.getD, hr]
  omega

theorem checkEmbedding_eq_ok {is : List Int} {table : Shape}
    (h : checkEmbedding is table = .ok ()) :
    ∃ m n, table = [m, n] ∧ ∀ r < is.length, (is.map Int.toNat).getD r 0 < m := by
  obtain ⟨rank, h⟩ := of_ite_error h
  obtain ⟨-, h⟩ := of_ite_error h
  have two : table.length = 2 := by simpa using rank
  refine ⟨table.dim 0, table.dim 1, eq_dims_two two, fun r hr => getD_lt_of_find? ?_ hr⟩
  split at h
  · cases h
  · assumption

theorem checkTargets_eq_ok {ts : List Int} {logits : Shape} (h : checkTargets ts logits = .ok ()) :
    ∃ n, logits = [ts.length, n] ∧ ∀ r < ts.length, (ts.map Int.toNat).getD r 0 < n := by
  obtain ⟨rank, h⟩ := of_ite_error h
  obtain ⟨count, h⟩ := of_ite_error h
  have two : logits.length = 2 := by simpa using rank
  have rows : ts.length = logits.dim 0 := by simpa using count
  refine ⟨logits.dim 1, ?_, fun r hr => getD_lt_of_find? ?_ hr⟩
  · rw [rows]
    exact eq_dims_two two
  · split at h
    · cases h
    · assumption

theorem checkTargets_of_inside {ts : List Int} {n : Nat}
    (inside : ∀ i ∈ ts, 0 ≤ i ∧ i < (n : Int)) : checkTargets ts [ts.length, n] = .ok () := by
  have none : ts.find? (fun i => i < 0 || (n : Int) ≤ i) = none := by
    rw [List.find?_eq_none]
    intro i hi
    obtain ⟨above, below⟩ := inside i hi
    simp only [Bool.or_eq_true, decide_eq_true_eq]
    omega
  unfold checkTargets
  simp only [List.length_cons, List.length_nil, Shape.dim, List.getD_cons_zero,
    List.getD_cons_succ, none, bne_self_eq_false, Bool.false_eq_true, if_false]

end DerivativeEngine.Operation
