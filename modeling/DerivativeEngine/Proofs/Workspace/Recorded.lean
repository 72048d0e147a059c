import DerivativeEngine.Proofs.Layer.Shapes
import DerivativeEngine.Proofs.Workspace.Outputs
import DerivativeEngine.Proofs.Workspace.Reassignment

/-! Operations recorded in a workspace. What an operation computes on arrays, it computes on
variables that hold these arrays: the run makes new tensors and variables and a longer tape, changes
nothing that was there, and its result holds the array. -/

namespace DerivativeEngine

variable {α : Type}

namespace Workspace

variable {w w' w'' : Workspace α} {v : VariableId} {x : NDArray α}

/-- The variable is there and can be read, and this is what it holds. -/
structure Held (w : Workspace α) (v : VariableId) (x : NDArray α) : Prop where
  known : v.index < w.vars.size
  made : (w.var v).data.index < w.tensors.size
  alive : w.Alive v
  value : (w.tensor (w.var v).data).value = some x
  shape : x.shape = w.shapeOf v

/-- More may be there, but what was there is as it was. -/
structure Continues (w w' : Workspace α) : Prop where
  grown : w.Extends w'
  value : ∀ t : TensorId, t.index < w.tensors.size → (w'.tensor t).value = (w.tensor t).value

theorem Continues.trans (h : w.Continues w') (h' : w'.Continues w'') : w.Continues w'' where
  grown := h.grown.trans h'.grown
  value t ht := (h'.value t (Nat.lt_of_lt_of_le ht h.grown.tensors)).trans (h.value t ht)

theorem Held.continue (h : w.Held v x) (later : w.Continues w') : w'.Held v x where
  known := Nat.lt_of_lt_of_le h.known later.grown.vars
  made := by
    rw [later.grown.data v h.known]
    exact Nat.lt_of_lt_of_le h.made later.grown.tensors
  alive := (later.grown.alive h.known h.made).2 h.alive
  value := by rw [later.grown.data v h.known, later.value _ h.made, h.value]
  shape := by rw [later.grown.shapeOf h.known h.made, h.shape]

theorem Held.valueOf [Zero α] (h : w.Held v x) : w.valueOf v = x := by
  rw [Workspace.valueOf, h.value]
  rfl

theorem Rearranged.continues (h : w.Rearranged w') : w.Continues w' where
  grown := h.grown
  value t _ := by rw [h.tensor]

theorem Pushes.continues {c : ContextId} {ts : List (Tensor α)} {ys : List (Variable α)}
    {rs : List (TapeRecord α)} (h : w.Pushes w' c ts ys rs) : w.Continues w' where
  grown := h.grown
  value t ht := by rw [h.tensor_old ht]

theorem continues_record (w : Workspace α) (c : ContextId) (r : TapeRecord α) :
    w.Continues (w.modifyContext c fun k => k.record r) where
  grown := w.extends_record c r
  value _ _ := rfl

theorem Fresh.held [Zero α] {home : Option ContextId} (h : w.Fresh v x home) : w.Held v x where
  known := h.known
  made := h.there
  alive := h.data.valid
  value := h.data.value
  shape := h.data.shape.symm

theorem Sound.held [Scalar α] {c : ContextId} (s : w.Sound c) (known : v.index < w.vars.size)
    (alive : w.Alive v) : w.Held v (w.valueOf v) where
  known := known
  made := (s.vars v known).known
  alive := alive
  value := (s.value_valueOf known).1
  shape := (s.value_valueOf known).2

theorem continues_started (w : Workspace α) : w.Continues w.started where
  grown :=
    { generation := fun c => by
        rw [Workspace.generation, Workspace.generation, w.context_started]
      tensors := Nat.le_refl _
      vars := Nat.le_refl _
      tensor := fun _ _ => ⟨rfl, rfl⟩
      data := fun _ _ => rfl }
  value _ _ := rfl

theorem Continues.refl (w : Workspace α) : w.Continues w :=
  (Rearranged.refl w).continues

theorem Frame.continues (h : w.Frame w') : w.Continues w' where
  grown := h.grown
  value t _ := by rw [h.tensor]

variable {qs : List (VariableId × NDArray α)}

theorem Filled.tensor (h : w.Filled qs w') (t : TensorId) :
    (∃ q ∈ qs, (w.var q.1).data = t ∧ w'.tensor t = { w.tensor t with value := some q.2 }) ∨
      w'.tensor t = w.tensor t := by
  by_cases hit : ∃ q ∈ qs, (w.var q.1).data = t
  · obtain ⟨q, hq, rfl⟩ := hit
    exact .inl ⟨q, hq, rfl, h.held q hq⟩
  · simp only [not_exists, not_and] at hit
    exact .inr (h.others t hit)

theorem Filled.grown (h : w.Filled qs w') : w.Extends w' where
  generation c := by
    rw [h.rest]
    rfl
  tensors := Nat.le_of_eq h.size.symm
  vars := Nat.le_of_eq (by rw [h.rest])
  tensor t _ := by
    rcases h.tensor t with ⟨q, -, -, filled⟩ | same
    · rw [filled]
      exact ⟨rfl, rfl⟩
    · rw [same]
      exact ⟨rfl, rfl⟩
  data v _ := by rw [h.var]

theorem Held.refill [Zero α] (h : w.Held v x) (filled : w.Filled qs w')
    (accepts : ∀ q ∈ qs, w.Accepts q.1 q.2) : w'.Held v (w'.valueOf v) := by
  have grown := filled.grown
  have shape := grown.shapeOf h.known h.made
  have stays : ∀ y, (w'.tensor (w'.var v).data).value = some y → y.shape = w.shapeOf v →
      w'.Held v (w'.valueOf v) := by
    intro y value fits
    have holds : w'.valueOf v = y := by
      rw [Workspace.valueOf, value]
      rfl
    rw [holds]
    exact
      { known := Nat.lt_of_lt_of_le h.known grown.vars
        made := by
          rw [filled.var]
          exact Nat.lt_of_lt_of_le h.made grown.tensors
        alive := (grown.alive h.known h.made).2 h.alive
        value := value
        shape := fits.trans shape.symm }
  rcases filled.tensor (w.var v).data with ⟨q, hq, same, there⟩ | same
  · refine stays q.2 (by rw [filled.var, there]) ?_
    rw [(accepts q hq).1, Workspace.shapeOf, same]
    rfl
  · exact stays x (by rw [filled.var, same, h.value]) h.shape

theorem filled_fill (made : (w.var v).data.index < w.tensors.size) (x : NDArray α) :
    w.Filled [(v, x)] (w.fill v x) :=
  filled_fillAll ⟨List.forall_mem_singleton.2 made, by simp⟩

theorem valueOf_fill [Zero α] (made : (w.var v).data.index < w.tensors.size) (u : VariableId) :
    (w.fill v x).valueOf u =
      if (w.var u).data = (w.var v).data then x else w.valueOf u := by
  rw [Workspace.valueOf, var_fill, fill, tensor_setTensor]
  by_cases same : (w.var u).data = (w.var v).data
  · rw [if_pos ⟨same, made⟩, if_pos same]
    rfl
  · rw [if_neg fun h => same h.1, if_neg same]
    rfl

end Workspace

namespace Session

variable {w w' : Workspace α} {x y : NDArray α}

theorem outcome_current_continues (w : Workspace α) :
    ∃ c w', outcome current w = (.ok c, w') ∧ w.Continues w' := by
  cases here : w.current with
  | some c => exact ⟨c, w, outcome_current here, .refl w⟩
  | none => exact ⟨_, _, outcome_current_none here, w.continues_started⟩

variable [Scalar α]

/-- The session gives a variable that holds the array, and leaves what was there as it was. -/
def Computes (w : Workspace α) (p : Session α VariableId) (x : NDArray α) : Prop :=
  ∃ v w', outcome p w = (.ok v, w') ∧ w.Continues w' ∧ w'.Held v x

theorem check_held {op : Operation α VariableId} (held : ∀ v ∈ op.operands, ∃ x, w.Held v x)
    (ok : Interpretation.arrays.apply (op.map w.valueOf) = .ok y) :
    (op.map w.shapeOf).check = .ok () ∧ op.result w.valueOf = y := by
  obtain ⟨⟨⟩, check, computed⟩ := Operation.ok_of_bind ok
  have shapes : (op.map w.valueOf).map NDArray.shape = op.map w.shapeOf := by
    have composed : (op.map w.valueOf).map NDArray.shape =
        op.map fun v => (w.valueOf v).shape := by
      cases op <;> rfl
    rw [composed]
    refine Operation.map_congr fun v hv => ?_
    obtain ⟨x, h⟩ := held v hv
    rw [h.valueOf, h.shape]
  rw [shapes] at check
  exact ⟨check, Except.ok.inj computed⟩

theorem outcome_mapM_held {op : Operation α VariableId}
    (held : ∀ v ∈ op.operands, ∃ x, w.Held v x) :
    outcome (op.mapM value) w = (.ok (op.map w.valueOf), w) := by
  rw [outcome_mapM (fun v => outcome_value v) op]
  refine congrArg (·, w) (Operation.mapM_of_ok fun v hv => ?_)
  obtain ⟨x, h⟩ := held v hv
  rw [Workspace.read_eq_ok.2 ⟨h.alive, h.value⟩, h.valueOf]
  rfl

theorem computes_apply {op : Operation α VariableId}
    (held : ∀ v ∈ op.operands, ∃ x, w.Held v x)
    (ok : Interpretation.arrays.apply (op.map w.valueOf) = .ok y) : Computes w (apply op) y := by
  obtain ⟨c, w₁, found, later⟩ := outcome_current_continues w
  have same : op.map w₁.valueOf = op.map w.valueOf := Operation.map_congr fun v hv => by
    obtain ⟨x, h⟩ := held v hv
    rw [(h.continue later).valueOf, h.valueOf]
  have held : ∀ v ∈ op.operands, ∃ x, w₁.Held v x := fun v hv =>
    (held v hv).imp fun _ h => h.continue later
  rw [← same] at ok
  obtain ⟨check, computed⟩ := check_held held ok
  have computed : (op.map w₁.valueOf).value = y := computed
  have checked : outcome (ofShape (α := α) (op.map w₁.shapeOf).check) w₁ = (.ok (), w₁) := by
    rw [check]
    rfl
  have asks := outcome_anyM (fun v => (rfl : outcome (requiresGrad (α := α) v) w₁ =
    (.ok (w₁.var v).requiresGrad, w₁))) op.operands
  generalize op.operands.any (fun v => (w₁.var v).requiresGrad) = needed at asks
  obtain ⟨_, _, w₂, output, pushes, fresh, -⟩ := outcome_output y (some c) needed c w₁
  generalize (⟨w₁.vars.size⟩ : VariableId) = v at output fresh
  have recorded : ∃ w₃, outcome (do
      if needed then
        let saved ← ((op.map w₁.valueOf).saved y).mapM fun x => wrap x (some c)
        record c ⟨op, v, saved⟩
      return v) w₂ = (.ok v, w₃) ∧ w₂.Continues w₃ := by
    cases needed with
    | false => exact ⟨w₂, rfl, .refl w₂⟩
    | true =>
      obtain ⟨saved, w₃, wrapped, rearranged, -⟩ :=
        outcome_mapM_wrap ((op.map w₁.valueOf).saved y) c w₂
      refine ⟨_, ?_, rearranged.continues.trans (w₃.continues_record c ⟨op, v, saved⟩)⟩
      simp only [if_true]
      rw [outcome_bind_ok wrapped]
      rfl
  obtain ⟨w₃, last, later₃⟩ := recorded
  refine ⟨v, w₃, ?_, (later.trans pushes.continues).trans later₃, fresh.held.continue later₃⟩
  unfold apply
  rw [outcome_bind_ok found, outcome_bind_ok (outcome_mapM_ok outcome_shapeOf op),
    outcome_bind_ok checked, outcome_bind_ok (outcome_mapM_held held), outcome_bind_ok asks]
  dsimp only
  rw [computed, ← bind_assoc, outcome_bind_ok output]
  exact last

end Session

end DerivativeEngine
