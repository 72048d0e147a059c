import DerivativeEngine.Proofs.Tape.Operands
import DerivativeEngine.Workspace.Recording

/-! Sessions as functions on workspaces. An outcome is what a session gives and the workspace it
leaves behind; a session of two parts is followed part by part. Reading changes nothing: what a
tensor, a variable or its gradient holds is a matter of the workspace alone, and so is whether it
can be read. -/

namespace DerivativeEngine

@[simp]
theorem failAs_ok {ε ε' β : Type} (f : ε → ε') (y : β) : failAs f (.ok y) = .ok y := rfl

@[simp]
theorem failAs_error {ε ε' β : Type} (f : ε → ε') (e : ε) :
    failAs f (.error e : Except ε β) = .error (f e) := rfl

theorem Tensor.filterMap_value {α : Type} {ts : List (Tensor α)} {xs : List (NDArray α)}
    (h : ts.map Tensor.value = xs.map some) : ts.filterMap Tensor.value = xs := by
  have contents : (ts.map Tensor.value).filterMap id = ts.filterMap Tensor.value := by
    rw [List.filterMap_map]
    rfl
  rw [← contents, h, List.filterMap_map]
  exact List.filterMap_some

namespace Workspace

variable {α : Type}

def shapeOf (w : Workspace α) (v : VariableId) : Shape := (w.tensor (w.var v).data).shape

/-- The number of resets the arena of the context has seen. -/
def generation (w : Workspace α) (c : ContextId) : Nat := (w.context c).arena.generation

/-- The tensor is persistent, or was made since the last reset of its arena. -/
def Valid (w : Workspace α) (t : Tensor α) : Prop :=
  ∀ p ∈ t.place, p.block.generation = w.generation p.context

/-- What the variable holds, whether it can still be read or not. -/
def valueOf [Zero α] (w : Workspace α) (v : VariableId) : NDArray α :=
  (w.tensor (w.var v).data).value.getD (.fill [] 0)

def gradient? (w : Workspace α) (v : VariableId) : Option (NDArray α) :=
  (w.var v).grad.bind Tensor.value

theorem tensor_push (w : Workspace α) (x : Tensor α) (t : TensorId) :
    ({ w with tensors := w.tensors.push x } : Workspace α).tensor t =
      if t.index = w.tensors.size then x else w.tensor t := by
  simp only [Workspace.tensor, Array.getD_eq_getD_getElem?, Array.getElem?_push]
  split <;> rfl

theorem var_push (w : Workspace α) (x : Variable α) (v : VariableId) :
    ({ w with vars := w.vars.push x } : Workspace α).var v =
      if v.index = w.vars.size then x else w.var v := by
  simp only [Workspace.var, Array.getD_eq_getD_getElem?, Array.getElem?_push]
  split <;> rfl

theorem tensor_setTensor (w : Workspace α) (t : TensorId) (x : Tensor α) (u : TensorId) :
    (w.setTensor t x).tensor u =
      if u = t ∧ t.index < w.tensors.size then x else w.tensor u := by
  obtain ⟨i⟩ := t
  obtain ⟨j⟩ := u
  simp only [Workspace.tensor, setTensor, Array.getD_eq_getD_getElem?, Array.getElem?_setIfInBounds,
    TensorId.mk.injEq]
  grind

theorem var_setVariable (w : Workspace α) (v : VariableId) (x : Variable α) (u : VariableId) :
    (w.setVariable v x).var u = if u = v ∧ v.index < w.vars.size then x else w.var u := by
  obtain ⟨i⟩ := v
  obtain ⟨j⟩ := u
  simp only [Workspace.var, setVariable, Array.getD_eq_getD_getElem?, Array.getElem?_setIfInBounds,
    VariableId.mk.injEq]
  grind

theorem context_modifyContext (w : Workspace α) (c : ContextId) (f : Context α → Context α)
    (d : ContextId) : (w.modifyContext c f).context d =
      if d = c ∧ c.index < w.contexts.size then f (w.context c) else w.context d := by
  obtain ⟨i⟩ := c
  obtain ⟨j⟩ := d
  simp only [Workspace.context, modifyContext, Array.getD_eq_getD_getElem?, Array.getElem?_modify,
    ContextId.mk.injEq]
  grind

theorem gradient?_setGrad (w : Workspace α) {v : VariableId} (known : v.index < w.vars.size)
    (g : Tensor α) (x : NDArray α) (u : VariableId) :
    (w.setVariable v { w.var v with grad := some { g with value := some x } }).gradient? u =
      if u = v then some x else w.gradient? u := by
  unfold gradient?
  rw [var_setVariable]
  by_cases same : u = v
  · rw [if_pos ⟨same, known⟩, if_pos same]
    rfl
  · rw [if_neg (fun h => same h.1), if_neg same]

theorem known_of_grad {w : Workspace α} {v : VariableId} {g : Tensor α}
    (hg : (w.var v).grad = some g) :
    v.index < w.vars.size := by
  by_cases known : v.index < w.vars.size
  · exact known
  · have missing : (w.var v).grad = none := by
      simp [Workspace.var, Array.getD_eq_getD_getElem?, Nat.le_of_not_lt known]
    rw [missing] at hg
    cases hg

theorem checkPlace_eq_ok {w : Workspace α} {t : Tensor α} :
    w.checkPlace t = .ok () ↔ w.Valid t := by
  unfold checkPlace Valid
  cases place : t.place with
  | none => simp
  | some p =>
    unfold Arena.check Arena.isValid
    by_cases same : p.block.generation = (w.context p.context).arena.generation
    · simp [same, generation]
    · simp [same, generation]

theorem read_eq_ok {w : Workspace α} {t : Tensor α} {x : NDArray α} :
    w.read t = .ok x ↔ w.Valid t ∧ t.value = some x := by
  rw [← checkPlace_eq_ok]
  unfold read
  cases place : w.checkPlace t with
  | error e => simp [bind, Except.bind]
  | ok u =>
    cases value : t.value with
    | none => simp [bind, Except.bind, throw, throwThe, MonadExceptOf.throw]
    | some y => simp [bind, Except.bind, pure, Except.pure]

theorem assigned_eq_ok {w : Workspace α} {t t' : Tensor α} {x : NDArray α} :
    w.assigned t x = .ok t' ↔
      x.shape = t.shape ∧ w.Valid t ∧ t' = { t with value := some x } := by
  rw [← checkPlace_eq_ok]
  unfold assigned
  by_cases same : x.shape = t.shape
  · rw [if_neg (by simpa using same)]
    cases place : w.checkPlace t with
    | error e => simp [bind, Except.bind]
    | ok u => simp [bind, Except.bind, pure, Except.pure, same, eq_comm]
  · rw [if_pos (by simpa using same)]
    simp [same]

end Workspace

namespace Session

variable {α β γ : Type} {w w' : Workspace α}

/-- What a session on the workspace gives, and the workspace after it. -/
def outcome (p : Session α β) (w : Workspace α) : Except TensorError β × Workspace α := p w

theorem outcome_bind (p : Session α β) (f : β → Session α γ) (w : Workspace α) :
    outcome (p >>= f) w = match outcome p w with
      | (.ok x, w') => outcome (f x) w'
      | (.error e, w') => (.error e, w') := by
  change outcome (ExceptT.bind p f) w = _
  simp only [outcome, ExceptT.bind, ExceptT.mk, bind, StateT.bind]
  rcases p w with ⟨_ | x, w'⟩ <;> rfl

theorem outcome_bind_ok {p : Session α β} {x : β} (h : outcome p w = (.ok x, w'))
    (f : β → Session α γ) : outcome (p >>= f) w = outcome (f x) w' := by
  rw [outcome_bind, h]

theorem outcome_bind_error {p : Session α β} {e : TensorError}
    (h : outcome p w = (.error e, w')) (f : β → Session α γ) :
    outcome (p >>= f) w = (.error e, w') := by
  rw [outcome_bind, h]

theorem outcome_bind_failed {p : Session α β} {e : TensorError}
    (h : (outcome p w).1 = .error e) (f : β → Session α γ) :
    (outcome (p >>= f) w).1 = .error e := by
  cases run : outcome p w with
  | mk x w' =>
    rw [run] at h
    obtain rfl : x = .error e := h
    rw [outcome_bind_error run]

theorem outcome_bind_eq_ok {p : Session α β} {f : β → Session α γ} {y : γ} :
    outcome (p >>= f) w = (.ok y, w') ↔
      ∃ x w₁, outcome p w = (.ok x, w₁) ∧ outcome (f x) w₁ = (.ok y, w') := by
  rw [outcome_bind]
  rcases outcome p w with ⟨_ | x, w₁⟩
  · simp
  · constructor
    · exact fun h => ⟨x, w₁, rfl, h⟩
    · rintro ⟨_, _, ⟨⟩, h⟩
      exact h

theorem outcome_pure_eq_ok {x y : β} :
    outcome (pure x : Session α β) w = (.ok y, w') ↔ x = y ∧ w = w' := by
  have unfolded : outcome (pure x : Session α β) w = (.ok x, w) := rfl
  simp [unfolded]

theorem outcome_bind_eq_error {p : Session α β} {f : β → Session α γ} {e : TensorError} :
    outcome (p >>= f) w = (.error e, w') ↔ outcome p w = (.error e, w') ∨
      ∃ x w₁, outcome p w = (.ok x, w₁) ∧ outcome (f x) w₁ = (.error e, w') := by
  rw [outcome_bind]
  rcases outcome p w with ⟨_ | x, w₁⟩
  · simp
  · constructor
    · exact fun h => .inr ⟨x, w₁, rfl, h⟩
    · rintro (⟨⟨⟩⟩ | ⟨_, _, ⟨⟩, h⟩)
      exact h

theorem outcome_get : outcome get w = (.ok w, w) := rfl

theorem outcome_modify (f : Workspace α → Workspace α) : outcome (modify f) w = (.ok (), f w) :=
  rfl

theorem outcome_ofExcept (x : Except TensorError β) : outcome (ofExcept x) w = (x, w) := rfl

theorem outcome_tensor (t : TensorId) : outcome (tensor t) w = (.ok (w.tensor t), w) := rfl

theorem outcome_var (v : VariableId) : outcome (var v) w = (.ok (w.var v), w) := rfl

theorem outcome_shapeOf (v : VariableId) : outcome (shapeOf v) w = (.ok (w.shapeOf v), w) := rfl

theorem outcome_read (t : Tensor α) :
    outcome (read t) w = (failAs .lifetime (w.read t), w) := rfl

theorem outcome_value (v : VariableId) :
    outcome (value v) w = (failAs .lifetime (w.read (w.tensor (w.var v).data)), w) := rfl

theorem outcome_current {c : ContextId} (h : w.current = some c) :
    outcome current w = (.ok c, w) := by
  rw [current, outcome_bind_ok outcome_get, h]
  rfl

theorem ok_of_failAs {ε ε' : Type} {f : ε → ε'} {x : Except ε β} {y : β}
    (h : failAs f x = .ok y) : x = .ok y := by
  cases x with
  | error e => cases h
  | ok z => exact congrArg Except.ok (Except.ok.inj h)

theorem eq_ok_of_toOption {ε β : Type} {x : Except ε β} {y : β} (h : x.toOption = some y) :
    x = .ok y := by
  cases x with
  | error e => cases h
  | ok z =>
    cases h
    rfl

theorem outcome_read_ok {t : Tensor α} {x : NDArray α} (valid : w.Valid t)
    (value : t.value = some x) : outcome (read t) w = (.ok x, w) := by
  rw [outcome_read, Workspace.read_eq_ok.2 ⟨valid, value⟩]
  rfl

theorem outcome_mapM_read {ts : List (Tensor α)} {xs : List (NDArray α)}
    (valid : ∀ t ∈ ts, w.Valid t) (values : ts.map Tensor.value = xs.map some) :
    outcome (ts.mapM read) w = (.ok xs, w) := by
  induction ts generalizing xs with
  | nil =>
    cases xs with
    | nil => rfl
    | cons x xs => simp at values
  | cons t ts ih =>
    cases xs with
    | nil => simp at values
    | cons x xs =>
      simp only [List.map_cons, List.cons.injEq] at values
      have first := outcome_read_ok (valid t (by simp)) values.1
      have rest := ih (fun u hu => valid u (by simp [hu])) values.2
      rw [List.mapM_cons, outcome_bind_ok first, outcome_bind_ok rest]
      rfl

theorem outcome_bind_reads {p : Session α β} {x : Except TensorError β}
    {f : β → Session α γ} {g : β → Except TensorError γ} (first : outcome p w = (x, w))
    (second : ∀ y, outcome (f y) w = (g y, w)) : outcome (p >>= f) w = (x >>= g, w) := by
  cases x with
  | error e => exact outcome_bind_error first f
  | ok y => exact (outcome_bind_ok first f).trans (second y)

theorem outcome_mapM {ν μ : Type} {f : ν → Session α μ} {k : ν → Except TensorError μ}
    (reads : ∀ v, outcome (f v) w = (k v, w)) (op : Operation α ν) :
    outcome (op.mapM f) w = (op.mapM k, w) := by
  cases op with
  | add a b | multiply a b | matmul a b | attentionScores c causal a b | attentionApply a b =>
    exact outcome_bind_reads (reads a) fun _ => outcome_bind_reads (reads b) fun _ => rfl
  | layerNorm eps x gamma beta =>
    exact outcome_bind_reads (reads x) fun _ => outcome_bind_reads (reads gamma) fun _ =>
      outcome_bind_reads (reads beta) fun _ => rfl
  | scale c x | transpose x | reshape s x | relu x | softmax x | embedding is x
  | crossEntropy ts x | mse target x =>
    exact outcome_bind_reads (reads x) fun _ => rfl

theorem outcome_map_ok {p : Session α β} {x : β} (h : outcome p w = (.ok x, w')) (f : β → γ) :
    outcome (f <$> p) w = (.ok (f x), w') := by
  rw [map_eq_pure_bind, outcome_bind_ok h]
  rfl

theorem outcome_discard (p : Session α β) (w : Workspace α) :
    (outcome (discard p) w).2 = (outcome p w).2 := by
  have unfolded : outcome (discard p) w = outcome (p >>= fun _ => pure ()) w := by
    rw [← map_eq_pure_bind]
    rfl
  rw [unfolded, outcome_bind]
  cases outcome p w with
  | mk x w' => cases x <;> rfl

theorem outcome_mapM_ok {ν μ : Type} {f : ν → Session α μ} {k : ν → μ}
    (reads : ∀ v, outcome (f v) w = (.ok (k v), w)) (op : Operation α ν) :
    outcome (op.mapM f) w = (.ok (op.map k), w) := by
  rw [outcome_mapM reads, Operation.mapM_of_ok fun v _ => rfl]

theorem outcome_free {t : TensorId} (persistent : (w.tensor t).isPersistent = true) :
    outcome (free t) w = (.ok (), w.setTensor t { w.tensor t with value := none }) := by
  rw [free, outcome_bind_ok (outcome_tensor t), if_pos persistent]
  rfl

theorem outcome_free_arena {t : TensorId} (placed : (w.tensor t).isPersistent = false) :
    outcome (free t) w = (.error (.lifetime .arenaOwned), w) := by
  rw [free, outcome_bind_ok (outcome_tensor t), placed]
  rfl

end Session

end DerivativeEngine
