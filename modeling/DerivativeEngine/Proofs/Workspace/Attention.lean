import DerivativeEngine.Proofs.Layer.Attention
import DerivativeEngine.Proofs.Training.Independence
import DerivativeEngine.Proofs.Workspace.Reading

/-! Attention layers in a workspace. A layer that was planned for so many heads computes, on
variables that hold real numbers, what attention is defined to be. -/

namespace DerivativeEngine

open Operation (ok_of_bind)

/-- The parameters of a projection hold those of this map. -/
structure Workspace.HoldsAffine (w : Workspace EReal) (l : Linear VariableId) {d e : ℕ}
    (A : Affine d e) : Prop where
  held : ∀ v ∈ l.parameters, w.Held v (w.valueOf v)
  affine : (l.map w.valueOf).IsAffine A

theorem Linear.IsAffine.fits {l : Linear (NDArray EReal)} {d e : ℕ} {A : Affine d e}
    (h : l.IsAffine A) : (l.map NDArray.shape).Fits d e :=
  ⟨h.weight.shape, h.bias.shape⟩

theorem MultiHeadAttention.Sized.fits {a : MultiHeadAttention EReal (NDArray EReal)}
    {heads width : ℕ} (h : a.Sized heads width) (hh : 0 < heads) (hw : 0 < width)
    {query key values output : Affine (heads * width) (heads * width)}
    (hq : a.query.IsAffine query) (hk : a.key.IsAffine key) (hv : a.values.IsAffine values)
    (ho : a.output.IsAffine output) : (a.map NDArray.shape).Fits (heads * width) where
  model := h.model
  positive := by
    change 0 < a.model ∧ 0 < a.heads ∧ 0 < a.width
    rw [h.model, h.heads, h.width]
    exact ⟨Int.natCast_pos.2 (Nat.mul_pos hh hw), Int.natCast_pos.2 hh, Int.natCast_pos.2 hw⟩
  split := by
    change a.heads * a.width = a.model
    rw [h.model, h.heads, h.width, Nat.cast_mul]
  query := hq.fits
  key := hk.fits
  values := hv.fits
  output := ho.fits

namespace Session

variable {w : Workspace EReal} {heads width n : ℕ}

/-- Over real numbers, and for any columns that can be split among the heads: a layer as it was
planned, whatever maps its projections hold, computes for any rows the attention of these maps. -/
theorem computes_multiHead (hh : 0 < heads) (hw : 0 < width) (hn : 0 < n) (causal : Bool)
    (name : String) :
    ∃ p : MultiHeadAttention EReal (Slot EReal),
      MultiHeadAttention.plan (heads * width : ℕ) heads causal name = .ok p ∧
      ∀ (w : Workspace EReal) (a : MultiHeadAttention EReal VariableId), a.frame = p.frame →
        ∀ query key values output : Affine (heads * width) (heads * width),
          w.HoldsAffine a.query query → w.HoldsAffine a.key key → w.HoldsAffine a.values values →
          w.HoldsAffine a.output output →
          ∀ (v : VariableId) (x : NDArray EReal) (X : Matrix (Fin n) (Fin (heads * width)) ℝ),
            w.Held v x → x.IsMatrix X →
              ∃ y, Computes w (a.call recording v) y ∧
                y.IsMatrix (multiHead causal query key values output X) := by
  have positive : (0 : ℤ) < (heads * width : ℕ) := Int.natCast_pos.2 (Nat.mul_pos hh hw)
  have divides : (heads : ℤ) ∣ (heads * width : ℕ) := ⟨width, Nat.cast_mul heads width⟩
  obtain ⟨p, plan⟩ := (MultiHeadAttention.decides_plan (α := EReal) positive heads causal name).ok
    ⟨Int.natCast_pos.2 hh, divides⟩
  obtain ⟨sized, masked⟩ := MultiHeadAttention.sized_of_plan plan
  refine ⟨p, plan, fun w a frame query key values output hq hk hv ho v x X held hx => ?_⟩
  have sized' : (a.map w.valueOf).Sized heads width := sized.of_frame frame
  have mask : a.causal = causal := (congrArg MultiHeadAttention.causal frame).trans masked
  have parameters : ∀ u ∈ a.parameters, w.Held u (w.valueOf u) :=
    List.forall_mem_append.2 ⟨List.forall_mem_append.2
      ⟨List.forall_mem_append.2 ⟨hq.held, hk.held⟩, hv.held⟩, ho.held⟩
  have fits := sized'.fits hh hw hq.affine hk.affine hv.affine ho.affine
  have value := sized'.value hq.affine hk.affine hv.affine ho.affine hx
  refine ⟨_, computes_attention parameters held
    (MultiHeadAttention.call_arrays fits hn hx.shape), ?_⟩
  rwa [show (a.map w.valueOf).causal = causal from mask] at value

theorem multiHead_means :
    multiHead true (⟨!![0, 0; 0, 0], 0⟩ : Affine (2 * 1) (2 * 1)) ⟨!![0, 0; 0, 0], 0⟩
      ⟨!![1, 0; 0, 1], 0⟩ ⟨!![1, 0; 0, 1], 0⟩ !![(2 : ℝ), 6; 4, 8] = !![2, 6; 3, 7] := by
  have first : Finset.Iic (0 : Fin 2) = {0} := by decide
  have both : Finset.Iic (1 : Fin 2) = {0, 1} := by decide
  have pair (f : Fin (2 * 1) → ℝ) : ∑ j, f j = f 0 + f 1 := Fin.sum_univ_two f
  ext i c
  fin_cases i <;> fin_cases c <;>
    norm_num [multiHead, Affine.apply, sideBySide, attend, columns, seen, share, Fin.divNat,
      Fin.modNat, Matrix.mul_apply, pair, first, both]

noncomputable def twoRows (r s t u : ℝ) : NDArray EReal := .ofFn [2, 2] fun i =>
  ((if i = 0 then r else if i = 1 then s else if i = 2 then t else u : ℝ) : EReal)

theorem isMatrix_twoRows (r s t u : ℝ) : (twoRows r s t u).IsMatrix !![r, s; t, u] := by
  refine ⟨rfl, fun i j => ?_⟩
  fin_cases i <;> fin_cases j <;> exact NDArray.get_ofFn (by decide)

theorem computes_multiHead_means :
    (0 < 2 ∧ 0 < 1 ∧ 0 < 2) ∧
      ∃ (p : MultiHeadAttention EReal (Slot EReal)) (w : Workspace EReal)
        (a : MultiHeadAttention EReal VariableId) (x y : NDArray EReal),
        MultiHeadAttention.plan 2 2 true "attn" = .ok p ∧ a.frame = p.frame ∧ w.Held ⟨3⟩ x ∧
          x.IsMatrix !![(2 : ℝ), 6; 4, 8] ∧ Computes w (a.call recording ⟨3⟩) y ∧
          y.IsMatrix !![(2 : ℝ), 6; 3, 7] := by
  obtain ⟨p, plan, computes⟩ := @computes_multiHead 2 1 2 (by decide) (by decide) (by decide) true
    "attn"
  let values : Fin 4 → NDArray EReal :=
    ![twoRows 0 0 0 0, .fill [2] 0, twoRows 1 0 0 1, twoRows 2 6 4 8]
  have isRow : (values 1).IsRow (0 : Fin 2 → ℝ) := by
    refine ⟨rfl, fun j => ?_⟩
    fin_cases j <;> exact NDArray.get_fill (by decide)
  obtain ⟨w, -, ready, holds⟩ :=
    Workspace.ready_parameters (.ofChunkSize 64) 10 (fun _ => 0) values
  have held (i : Fin 4) : w.Held ⟨i⟩ (values i) := by
    rw [← (holds i).1]
    exact ready.kept.sound.held (ready.known i) (ready.names.alive i)
  have projects (i : Fin 4) {M : Matrix (Fin 2) (Fin 2) ℝ} (matrix : (values i).IsMatrix M) :
      w.HoldsAffine ⟨⟨i⟩, ⟨1⟩⟩ (⟨M, 0⟩ : Affine (2 * 1) (2 * 1)) := by
    constructor
    · intro v hv
      rcases List.mem_pair.1 hv with rfl | rfl
      · exact (held i).valueOf.symm ▸ held i
      · exact (held 1).valueOf.symm ▸ held 1
    · have weight := (held i).valueOf.symm ▸ matrix
      have bias := (held 1).valueOf.symm ▸ isRow
      exact ⟨weight, bias⟩
  have nothing := projects 0 (isMatrix_twoRows 0 0 0 0)
  have itself := projects 2 (isMatrix_twoRows 1 0 0 1)
  let a : MultiHeadAttention EReal VariableId :=
    ⟨p.model, p.heads, p.width, p.scale, p.causal, ⟨⟨0⟩, ⟨1⟩⟩, ⟨⟨0⟩, ⟨1⟩⟩, ⟨⟨2⟩, ⟨1⟩⟩,
      ⟨⟨2⟩, ⟨1⟩⟩⟩
  obtain ⟨y, computed, result⟩ := computes w a rfl _ _ _ _ nothing nothing itself itself _ _ _
    (held 3) (isMatrix_twoRows 2 6 4 8)
  rw [multiHead_means] at result
  exact ⟨by decide, p, w, a, _, y, plan, rfl, held 3, isMatrix_twoRows 2 6 4 8, computed, result⟩

end Session

end DerivativeEngine
