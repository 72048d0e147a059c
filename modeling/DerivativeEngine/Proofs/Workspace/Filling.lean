import DerivativeEngine.ModelFile.Transfer
import DerivativeEngine.Proofs.Workspace.Growth

/-! Variables filled one after the other. An array goes into a variable of its shape that can still
be read; where no two variables are on one tensor, each holds its own array in the end. Nothing but
the contents of these variables changes. -/

namespace DerivativeEngine

variable {α β γ : Type}

namespace Session

variable {w w' : Workspace α}

theorem outcome_list_mapM {f : β → Session α γ} {g : β → γ} : ∀ {xs : List β},
    (∀ x ∈ xs, outcome (f x) w = (.ok (g x), w)) → outcome (xs.mapM f) w = (.ok (xs.map g), w)
  | [], _ => rfl
  | x :: xs, reads => by
    obtain ⟨first, others⟩ := List.forall_mem_cons.1 reads
    rw [List.mapM_cons, outcome_bind_ok first, outcome_bind_ok (outcome_list_mapM others)]
    rfl

end Session

namespace Workspace

/-- Variables on tensors of their own. -/
structure Separate (w : Workspace α) (vs : List VariableId) : Prop where
  known : ∀ v ∈ vs, (w.var v).data.index < w.tensors.size
  distinct : (vs.map fun v => (w.var v).data).Nodup

def Accepts (w : Workspace α) (v : VariableId) (x : NDArray α) : Prop :=
  x.shape = w.shapeOf v ∧ w.Alive v

structure Filled (w : Workspace α) (qs : List (VariableId × NDArray α)) (w' : Workspace α) :
    Prop where
  rest : w' = { w with tensors := w'.tensors }
  size : w'.tensors.size = w.tensors.size
  others : ∀ t, (∀ q ∈ qs, (w.var q.1).data ≠ t) → w'.tensor t = w.tensor t
  held : ∀ q ∈ qs, w'.tensor (w.var q.1).data =
    { w.tensor (w.var q.1).data with value := some q.2 }

variable {w w' : Workspace α} {qs : List (VariableId × NDArray α)}

def fill (w : Workspace α) (v : VariableId) (x : NDArray α) : Workspace α :=
  w.setTensor (w.var v).data { w.tensor (w.var v).data with value := some x }

theorem var_fill (v : VariableId) (x : NDArray α) (u : VariableId) :
    (w.fill v x).var u = w.var u := rfl

theorem size_fill (v : VariableId) (x : NDArray α) :
    (w.fill v x).tensors.size = w.tensors.size := by
  simp [fill, setTensor]

theorem tensor_fill (v : VariableId) (x : NDArray α) (t : TensorId) :
    (w.fill v x).tensor t = { w.tensor t with value := ((w.fill v x).tensor t).value } := by
  rw [fill, tensor_setTensor]
  split
  · next same => rw [same.1]
  · rfl

theorem accepts_fill {v u : VariableId} {x y : NDArray α} :
    (w.fill v x).Accepts u y ↔ w.Accepts u y := by
  unfold Accepts Alive Valid shapeOf
  rw [var_fill, tensor_fill]
  exact Iff.rfl

theorem Separate.fill {vs : List VariableId} (h : w.Separate vs) (v : VariableId)
    (x : NDArray α) : (w.fill v x).Separate vs where
  known u hu := by
    rw [var_fill, size_fill]
    exact h.known u hu
  distinct := h.distinct

theorem Filled.var (h : w.Filled qs w') (v : VariableId) : w'.var v = w.var v := by
  rw [h.rest]
  rfl

theorem Filled.cons {q : VariableId × NDArray α}
    (separate : w.Separate ((q :: qs).map Prod.fst)) (h : (w.fill q.1 q.2).Filled qs w') :
    w.Filled (q :: qs) w' := by
  have distinct := separate.distinct
  simp only [List.map_cons, List.map_map, List.nodup_cons] at distinct
  have apart : ∀ q' ∈ qs, (w.var q'.1).data ≠ (w.var q.1).data := fun q' hq' same =>
    distinct.1 (List.mem_map.2 ⟨q', hq', same⟩)
  have filled (t : TensorId) : (w.fill q.1 q.2).tensor t =
      if t = (w.var q.1).data then { w.tensor (w.var q.1).data with value := some q.2 }
      else w.tensor t := by
    have known := separate.known q.1 (by simp)
    rw [Workspace.fill, tensor_setTensor]
    simp [known]
  exact
    { rest := h.rest
      size := h.size.trans (size_fill q.1 q.2)
      others := by
        intro t ht
        obtain ⟨first, others⟩ := List.forall_mem_cons.1 ht
        rw [h.others t others, filled, if_neg (Ne.symm first)]
      held := by
        refine List.forall_mem_cons.2 ⟨?_, fun q' hq' => ?_⟩
        · rw [h.others _ apart, filled, if_pos rfl]
        · have held := h.held q' hq'
          rw [var_fill, filled, if_neg (apart q' hq')] at held
          exact held }

def fillAll (w : Workspace α) (qs : List (VariableId × NDArray α)) : Workspace α :=
  qs.foldl (fun w q => w.fill q.1 q.2) w

theorem fillAll_rest : ∀ (qs : List (VariableId × NDArray α)) (w : Workspace α),
    w.fillAll qs = { w with tensors := (w.fillAll qs).tensors }
  | [], _ => rfl
  | q :: qs, w => fillAll_rest qs (w.fill q.1 q.2)

theorem tensor_fillAll_of_ne {i : TensorId} : ∀ {qs : List (VariableId × NDArray α)}
    {w : Workspace α}, (∀ q ∈ qs, (w.var q.1).data ≠ i) → (w.fillAll qs).tensor i = w.tensor i
  | [], _, _ => rfl
  | q :: qs, w, apart => by
    obtain ⟨first, others⟩ := List.forall_mem_cons.1 apart
    have later : (w.fillAll (q :: qs)).tensor i = (w.fill q.1 q.2).tensor i :=
      tensor_fillAll_of_ne (w := w.fill q.1 q.2) others
    rw [later, fill, tensor_setTensor, if_neg (fun h => first h.1.symm)]

theorem tensor_fillAll (t : TensorId) : ∀ (qs : List (VariableId × NDArray α)) (w : Workspace α),
    (w.fillAll qs).tensor t = { w.tensor t with value := ((w.fillAll qs).tensor t).value }
  | [], _ => rfl
  | q :: qs, w => by
    have later := tensor_fillAll t qs (w.fill q.1 q.2)
    rw [tensor_fill] at later
    exact later

theorem filled_fillAll : ∀ {qs : List (VariableId × NDArray α)} {w : Workspace α},
    w.Separate (qs.map Prod.fst) → w.Filled qs (w.fillAll qs)
  | [], w, _ => ⟨rfl, rfl, fun _ _ => rfl, by simp⟩
  | q :: qs, w, separate => by
    have rest : w.Separate (qs.map Prod.fst) :=
      ⟨fun u hu => separate.known u (List.mem_cons_of_mem _ hu),
        (List.nodup_cons.1 separate.distinct).2⟩
    exact (filled_fillAll (rest.fill q.1 q.2)).cons separate

end Workspace

namespace Session

variable {w w' : Workspace α}

theorem outcome_setData_eq_ok {v : VariableId} {x : NDArray α} {u : Unit} :
    outcome (setData v x) w = (.ok u, w') ↔ w.Accepts v x ∧ w' = w.fill v x := by
  rw [setData, outcome_bind_ok (outcome_var v), assign, outcome_bind_ok (outcome_tensor _),
    outcome_bind_ok outcome_get, outcome_bind_eq_ok]
  constructor
  · rintro ⟨t, w₁, given, set⟩
    obtain ⟨assigned, rfl⟩ := Prod.mk.inj given
    obtain ⟨shape, valid, rfl⟩ := Workspace.assigned_eq_ok.1 assigned
    exact ⟨⟨shape, valid⟩, (Prod.mk.inj set).2.symm⟩
  · rintro ⟨⟨shape, valid⟩, rfl⟩
    have assigned := Workspace.assigned_eq_ok.2 ⟨shape, valid, rfl⟩
    refine ⟨_, w, ?_, rfl⟩
    rw [outcome_ofExcept, assigned]

theorem filled_of_setAll {w' : Workspace α} {u : Unit} : ∀ {qs : List (VariableId × NDArray α)}
    {w : Workspace α}, w.Separate (qs.map Prod.fst) →
      outcome (qs.forM fun (v, x) => setData v x) w = (.ok u, w') →
        (∀ q ∈ qs, w.Accepts q.1 q.2) ∧ w.Filled qs w'
  | [], w, _, run => by
    obtain ⟨-, rfl⟩ := Prod.mk.inj run
    exact ⟨by simp, rfl, rfl, fun _ _ => rfl, by simp⟩
  | (v, x) :: qs, w, separate, run => by
    change outcome (setData v x >>= fun _ => qs.forM fun (v, x) => setData v x) w = _ at run
    rw [outcome_bind_eq_ok] at run
    obtain ⟨u, w₁, written, others⟩ := run
    obtain ⟨first, rfl⟩ := outcome_setData_eq_ok.1 written
    have rest : w.Separate (qs.map Prod.fst) :=
      ⟨fun u hu => separate.known u (List.mem_cons_of_mem _ hu),
        (List.nodup_cons.1 separate.distinct).2⟩
    -- The rest ran on the workspace with this one filled; what it accepts it accepted before.
    obtain ⟨accepts, filled⟩ := filled_of_setAll (rest.fill v x) others
    refine ⟨List.forall_mem_cons.2 ⟨first, fun q hq => ?_⟩, filled.cons separate⟩
    exact Workspace.accepts_fill.1 (accepts q hq)

theorem outcome_setData_of_not {v : VariableId} {x : NDArray α} (refused : ¬ w.Accepts v x) :
    ∃ e, outcome (setData v x) w = (.error e, w) := by
  rw [setData, outcome_bind_ok (outcome_var v), assign, outcome_bind_ok (outcome_tensor _),
    outcome_bind_ok outcome_get]
  cases assigned : w.assigned (w.tensor (w.var v).data) x with
  | error e => exact ⟨e, outcome_bind_error (outcome_ofExcept _) _⟩
  | ok t =>
    obtain ⟨shape, valid, -⟩ := Workspace.assigned_eq_ok.1 assigned
    exact absurd ⟨shape, valid⟩ refused

theorem outcome_setAll_cases : ∀ (qs : List (VariableId × NDArray α)) (w : Workspace α),
    outcome (qs.forM fun (v, x) => setData v x) w = (.ok (), w.fillAll qs) ∨
      ∃ done q later e, qs = done ++ q :: later ∧ ¬ w.Accepts q.1 q.2 ∧
        outcome (qs.forM fun (v, x) => setData v x) w = (.error e, w.fillAll done)
  | [], w => .inl rfl
  | q :: qs, w => by
    change outcome (setData q.1 q.2 >>= fun _ => qs.forM fun (v, x) => setData v x) w = _ ∨
      ∃ done q' later e, q :: qs = done ++ q' :: later ∧ ¬ w.Accepts q'.1 q'.2 ∧
        outcome (setData q.1 q.2 >>= fun _ => qs.forM fun (v, x) => setData v x) w = _
    by_cases accepts : w.Accepts q.1 q.2
    · have written : outcome (setData q.1 q.2) w = (.ok (), w.fill q.1 q.2) :=
        outcome_setData_eq_ok.2 ⟨accepts, rfl⟩
      rw [outcome_bind_ok written]
      rcases outcome_setAll_cases qs (w.fill q.1 q.2) with
        all | ⟨done, q', later, e, split, no, run⟩
      · exact .inl all
      · refine .inr ⟨q :: done, q', later, e, congrArg (q :: ·) split, ?_, run⟩
        rwa [Workspace.accepts_fill] at no
    · obtain ⟨e, failed⟩ := outcome_setData_of_not accepts
      exact .inr ⟨[], q, qs, e, rfl, accepts, outcome_bind_error failed _⟩

theorem outcome_setAll {qs : List (VariableId × NDArray α)} {w : Workspace α}
    (accepts : ∀ q ∈ qs, w.Accepts q.1 q.2) :
    ∃ w', outcome (qs.forM fun (v, x) => setData v x) w = (.ok (), w') := by
  rcases outcome_setAll_cases qs w with all | ⟨done, q, later, e, split, refused, -⟩
  · exact ⟨_, all⟩
  · exact absurd (accepts q (by simp [split])) refused

end Session

end DerivativeEngine
