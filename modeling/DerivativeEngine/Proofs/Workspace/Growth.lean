import DerivativeEngine.Proofs.Workspace.Session

/-! How a workspace grows between two resets. Tensors and variables are added, gradients and the
contents of tensors change, but shapes, places and what a variable stands on stay: so what could be
read before can be read after. -/

namespace DerivativeEngine.Workspace

variable {α : Type} {w w' w'' : Workspace α}

def Alive (w : Workspace α) (v : VariableId) : Prop := w.Valid (w.tensor (w.var v).data)

def tape (w : Workspace α) (c : ContextId) : List (TapeRecord α) := (w.context c).tape.toList

/-- Nothing that was there is gone, and no arena was reset. -/
structure Extends (w w' : Workspace α) : Prop where
  generation : ∀ c, w'.generation c = w.generation c
  tensors : w.tensors.size ≤ w'.tensors.size
  vars : w.vars.size ≤ w'.vars.size
  tensor : ∀ t : TensorId, t.index < w.tensors.size →
    (w'.tensor t).shape = (w.tensor t).shape ∧ (w'.tensor t).place = (w.tensor t).place
  data : ∀ v : VariableId, v.index < w.vars.size → (w'.var v).data = (w.var v).data

namespace Extends

theorem trans (h : w.Extends w') (h' : w'.Extends w'') : w.Extends w'' where
  generation c := (h'.generation c).trans (h.generation c)
  tensors := Nat.le_trans h.tensors h'.tensors
  vars := Nat.le_trans h.vars h'.vars
  tensor t ht := by
    obtain ⟨shape, place⟩ := h.tensor t ht
    obtain ⟨shape', place'⟩ := h'.tensor t (Nat.lt_of_lt_of_le ht h.tensors)
    exact ⟨shape'.trans shape, place'.trans place⟩
  data v hv := (h'.data v (Nat.lt_of_lt_of_le hv h.vars)).trans (h.data v hv)

theorem valid (h : w.Extends w') {t : Tensor α} : w'.Valid t ↔ w.Valid t := by
  simp only [Valid, h.generation]

theorem shapeOf (h : w.Extends w') {v : VariableId} (hv : v.index < w.vars.size)
    (known : (w.var v).data.index < w.tensors.size) : w'.shapeOf v = w.shapeOf v := by
  unfold Workspace.shapeOf
  rw [h.data v hv, (h.tensor _ known).1]

theorem alive (h : w.Extends w') {v : VariableId} (hv : v.index < w.vars.size)
    (known : (w.var v).data.index < w.tensors.size) : w'.Alive v ↔ w.Alive v := by
  unfold Alive
  rw [h.valid, h.data v hv]
  simp only [Valid, (h.tensor _ known).2]

end Extends

structure Rearranged (w w' : Workspace α) : Prop where
  tensors : w'.tensors = w.tensors
  vars : w'.vars = w.vars
  current : w'.current = w.current
  contexts : w'.contexts.size = w.contexts.size
  tape : ∀ c, w'.tape c = w.tape c
  generation : ∀ c, w'.generation c = w.generation c
  optimizers : w'.optimizers = w.optimizers

theorem Rearranged.refl (w : Workspace α) : w.Rearranged w :=
  ⟨rfl, rfl, rfl, rfl, fun _ => rfl, fun _ => rfl, rfl⟩

theorem Rearranged.trans (h : w.Rearranged w') (h' : w'.Rearranged w'') : w.Rearranged w'' where
  tensors := h'.tensors.trans h.tensors
  vars := h'.vars.trans h.vars
  current := h'.current.trans h.current
  contexts := h'.contexts.trans h.contexts
  tape c := (h'.tape c).trans (h.tape c)
  generation c := (h'.generation c).trans (h.generation c)
  optimizers := h'.optimizers.trans h.optimizers

theorem Rearranged.tensor (h : w.Rearranged w') (t : TensorId) : w'.tensor t = w.tensor t := by
  unfold Workspace.tensor
  rw [h.tensors]

theorem Rearranged.var (h : w.Rearranged w') (v : VariableId) : w'.var v = w.var v := by
  unfold Workspace.var
  rw [h.vars]

theorem Rearranged.grown (h : w.Rearranged w') : w.Extends w' where
  generation := h.generation
  tensors := Nat.le_of_eq (congrArg Array.size h.tensors.symm)
  vars := Nat.le_of_eq (congrArg Array.size h.vars.symm)
  tensor t _ := by
    rw [h.tensor]
    exact ⟨rfl, rfl⟩
  data v _ := by rw [h.var]

structure Ends (w w' : Workspace α) (c : ContextId) (resets : Nat) : Prop where
  tensors : w'.tensors = w.tensors
  vars : w'.vars = w.vars
  current : w'.current = w.current
  contexts : w'.contexts.size = w.contexts.size
  tape : w'.tape c = []
  generation : w'.generation c = w.generation c + resets

theorem Ends.tensor {c : ContextId} {n : Nat} (h : w.Ends w' c n) (t : TensorId) :
    w'.tensor t = w.tensor t := by
  rw [Workspace.tensor, h.tensors]
  rfl

theorem Ends.var {c : ContextId} {n : Nat} (h : w.Ends w' c n) (v : VariableId) :
    w'.var v = w.var v := by
  rw [Workspace.var, h.vars]
  rfl

theorem Ends.trans {m n : Nat} {c : ContextId} (h : w.Ends w' c m) (h' : w'.Ends w'' c n) :
    w.Ends w'' c (m + n) where
  tensors := h'.tensors.trans h.tensors
  vars := h'.vars.trans h.vars
  current := h'.current.trans h.current
  contexts := h'.contexts.trans h.contexts
  tape := h'.tape
  generation := by rw [h'.generation, h.generation, Nat.add_assoc]

structure Frame (w w' : Workspace α) : Prop where
  tensors : w'.tensors = w.tensors
  contexts : w'.contexts = w.contexts
  size : w'.vars.size = w.vars.size
  data : ∀ v, (w'.var v).data = (w.var v).data
  requiresGrad : ∀ v, (w'.var v).requiresGrad = (w.var v).requiresGrad
  optimizers : w'.optimizers = w.optimizers

namespace Frame

theorem refl (w : Workspace α) : w.Frame w := ⟨rfl, rfl, rfl, fun _ => rfl, fun _ => rfl, rfl⟩

theorem trans (h : w.Frame w') (h' : w'.Frame w'') : w.Frame w'' where
  tensors := h'.tensors.trans h.tensors
  contexts := h'.contexts.trans h.contexts
  size := h'.size.trans h.size
  data v := (h'.data v).trans (h.data v)
  requiresGrad v := (h'.requiresGrad v).trans (h.requiresGrad v)
  optimizers := h'.optimizers.trans h.optimizers

theorem tensor (h : w.Frame w') (t : TensorId) : w'.tensor t = w.tensor t := by
  unfold Workspace.tensor
  rw [h.tensors]

theorem context (h : w.Frame w') (c : ContextId) : w'.context c = w.context c := by
  unfold Workspace.context
  rw [h.contexts]

theorem grown (h : w.Frame w') : w.Extends w' where
  generation c := by
    unfold Workspace.generation
    rw [h.context]
  tensors := Nat.le_of_eq (congrArg Array.size h.tensors.symm)
  vars := Nat.le_of_eq h.size.symm
  tensor t _ := by
    rw [h.tensor]
    exact ⟨rfl, rfl⟩
  data v _ := h.data v

theorem shapeOf (h : w.Frame w') : w'.shapeOf = w.shapeOf := by
  funext v
  unfold Workspace.shapeOf
  rw [h.data, h.tensor]

theorem valueOf [Zero α] (h : w.Frame w') : w'.valueOf = w.valueOf := by
  funext v
  unfold Workspace.valueOf
  rw [h.data, h.tensor]

end Frame

theorem frame_setGrad (w : Workspace α) (v : VariableId) (grad : Option (Tensor α)) :
    w.Frame (w.setVariable v { w.var v with grad }) where
  tensors := rfl
  contexts := rfl
  size := by simp [setVariable]
  data u := by
    rw [var_setVariable]
    split
    · next same => rw [same.1]
    · rfl
  requiresGrad u := by
    rw [var_setVariable]
    split
    · next same => rw [same.1]
    · rfl
  optimizers := rfl

theorem extends_record (w : Workspace α) (c : ContextId) (r : TapeRecord α) :
    w.Extends (w.modifyContext c fun k => k.record r) where
  generation d := by
    unfold Workspace.generation
    rw [context_modifyContext]
    split
    · next same =>
      rw [same.1]
      rfl
    · rfl
  tensors := Nat.le_refl _
  vars := Nat.le_refl _
  tensor _ _ := ⟨rfl, rfl⟩
  data _ _ := rfl

theorem tape_record (w : Workspace α) {c : ContextId} (known : c.index < w.contexts.size)
    (r : TapeRecord α) : (w.modifyContext c fun k => k.record r).tape c = w.tape c ++ [r] := by
  unfold Workspace.tape
  rw [context_modifyContext, if_pos ⟨rfl, known⟩]
  simp [Context.record]

end DerivativeEngine.Workspace
