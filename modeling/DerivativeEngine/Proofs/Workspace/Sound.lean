import DerivativeEngine.Proofs.Tape.Contributions
import DerivativeEngine.Proofs.Workspace.Growth

/-! What stays true of a workspace while one context is in use. Every tensor is filled in its shape
and has its place, if any, in the arena of that context; a gradient has the shape of its variable
and can be read as long as the variable can. A record of the tape names only variables made before
its output, all of which can be read, and has saved what its reverse asks for. The generations of
places carry this over a reset: what was made before it is never read again. -/

namespace DerivativeEngine

variable {α : Type}

/-- Filled, and placed in the arena of the context if in any. -/
structure Tensor.Sound (w : Workspace α) (c : ContextId) (t : Tensor α) : Prop where
  filled : ∃ x, t.value = some x ∧ x.shape = t.shape
  placed : ∀ p ∈ t.place, p.context = c ∧ p.block.generation ≤ w.generation c

/-- Whenever the other tensor can be read, so can this one. -/
def Tensor.Outlasts (g t : Tensor α) : Prop :=
  ∀ q ∈ g.place, ∃ p ∈ t.place, p.block.generation ≤ q.block.generation

structure Variable.Sound (w : Workspace α) (c : ContextId) (x : Variable α) : Prop where
  known : x.data.index < w.tensors.size
  asked : x.requiresGrad = false → x.grad = none
  grad : ∀ g ∈ x.grad,
    g.Sound w c ∧ g.shape = (w.tensor x.data).shape ∧ g.Outlasts (w.tensor x.data)

namespace Workspace

variable {w w' : Workspace α} {c : ContextId}

theorem Extends.tensor_sound (h : w.Extends w') {t : Tensor α} (s : t.Sound w c) :
    t.Sound w' c where
  filled := s.filled
  placed p hp := by
    rw [h.generation]
    exact s.placed p hp

theorem Extends.variable_sound (h : w.Extends w') {x : Variable α} (s : x.Sound w c) :
    x.Sound w' c where
  known := Nat.lt_of_lt_of_le s.known h.tensors
  asked := s.asked
  grad g hg := by
    obtain ⟨sound, shape, outlasts⟩ := s.grad g hg
    obtain ⟨same, place⟩ := h.tensor _ s.known
    refine ⟨h.tensor_sound sound, shape.trans same.symm, ?_⟩
    simpa only [Tensor.Outlasts, place] using outlasts

end Workspace

variable [Scalar α]

structure TapeRecord.Sound (w : Workspace α) (r : TapeRecord α) : Prop where
  known : r.output.index < w.vars.size
  older : ∀ v ∈ r.operation.operands, v.index < r.output.index
  alive : w.Alive r.output ∧ ∀ v ∈ r.operation.operands, w.Alive v
  applied : ∃ values, r.operation.Applied w.shapeOf values ∧
    w.shapeOf r.output = (r.operation.result values).shape ∧
    r.saved.map Tensor.value =
      ((r.operation.map values).saved (r.operation.result values)).map some
  saved : ∀ t ∈ r.saved, w.Valid t

namespace Workspace

structure Sound (w : Workspace α) (c : ContextId) : Prop where
  current : w.current = some c
  known : c.index < w.contexts.size
  tensors : ∀ t : TensorId, t.index < w.tensors.size → (w.tensor t).Sound w c
  vars : ∀ v : VariableId, v.index < w.vars.size → (w.var v).Sound w c
  tape : ∀ r ∈ w.tape c, r.Sound w
  ordered : (w.tape c).Pairwise fun r s => r.output.index < s.output.index

variable {w w' : Workspace α} {c : ContextId}

theorem Extends.record_sound (h : w.Extends w') (s : w.Sound c) {r : TapeRecord α}
    (sound : r.Sound w) : r.Sound w' := by
  have known : ∀ v ∈ r.operation.operands, v.index < w.vars.size := fun v hv =>
    Nat.lt_trans (sound.older v hv) sound.known
  have data : ∀ v : VariableId, v.index < w.vars.size → (w.var v).data.index < w.tensors.size :=
    fun v hv => (s.vars v hv).known
  have shape : ∀ v : VariableId, v.index < w.vars.size → w'.shapeOf v = w.shapeOf v :=
    fun v hv => h.shapeOf hv (data v hv)
  have alive : ∀ v : VariableId, v.index < w.vars.size → w.Alive v → w'.Alive v :=
    fun v hv => (h.alive hv (data v hv)).2
  obtain ⟨values, applied, result, saved⟩ := sound.applied
  exact
    { known := Nat.lt_of_lt_of_le sound.known h.vars
      older := sound.older
      alive := ⟨alive _ sound.known sound.alive.1, fun v hv =>
        alive v (known v hv) (sound.alive.2 v hv)⟩
      applied := ⟨values, applied.congr fun v hv => shape v (known v hv),
        (shape _ sound.known).trans result, saved⟩
      saved := fun t ht => h.valid.2 (sound.saved t ht) }

theorem Sound.value_valueOf (s : w.Sound c) {v : VariableId} (hv : v.index < w.vars.size) :
    (w.tensor (w.var v).data).value = some (w.valueOf v) ∧
      (w.valueOf v).shape = w.shapeOf v := by
  obtain ⟨x, value, shape⟩ := (s.tensors _ (s.vars v hv).known).filled
  have holds : w.valueOf v = x := by
    rw [valueOf, value]
    rfl
  rw [holds]
  exact ⟨value, shape⟩

theorem Sound.grad_valid (s : w.Sound c) {v : VariableId} (hv : v.index < w.vars.size)
    (alive : w.Alive v) {g : Tensor α} (hg : (w.var v).grad = some g) : w.Valid g := by
  obtain ⟨sound, -, outlasts⟩ := (s.vars v hv).grad g hg
  intro q hq
  obtain ⟨p, hp, older⟩ := outlasts q hq
  obtain ⟨home, bound⟩ := sound.placed q hq
  obtain ⟨home', -⟩ := (s.tensors _ (s.vars v hv).known).placed p hp
  have now := alive p hp
  rw [home'] at now
  rw [home]
  omega

theorem Sound.gradient_shape (s : w.Sound c) {v : VariableId} (hv : v.index < w.vars.size)
    {g : NDArray α} (hg : w.gradient? v = some g) : g.shape = w.shapeOf v := by
  obtain ⟨t, ht, value⟩ := Option.bind_eq_some_iff.1 hg
  obtain ⟨sound, same, -⟩ := (s.vars v hv).grad t ht
  obtain ⟨x, filled, shape⟩ := sound.filled
  rw [filled] at value
  obtain rfl := Option.some.inj value
  exact shape.trans same

theorem Sound.gradient_isSome (s : w.Sound c) {v : VariableId} (hv : v.index < w.vars.size) :
    (w.gradient? v).isSome = (w.var v).grad.isSome := by
  cases hg : (w.var v).grad with
  | none =>
    rw [gradient?, hg]
    rfl
  | some g =>
    obtain ⟨x, value, -⟩ := ((s.vars v hv).grad g hg).1.filled
    rw [gradient?, hg, Option.bind_some, value, Option.isSome_some, Option.isSome_some]

theorem Sound.asks (s : w.Sound c) {v : VariableId} (hv : v.index < w.vars.size)
    (there : (w.var v).grad.isSome = true) : (w.var v).requiresGrad = true := by
  cases asked : (w.var v).requiresGrad with
  | true => rfl
  | false =>
    rw [(s.vars v hv).asked asked] at there
    cases there

theorem Sound.extend (s : w.Sound c) (h : w.Extends w') (current : w'.current = w.current)
    (contexts : w'.contexts.size = w.contexts.size) (tape : w'.tape c = w.tape c)
    (tensors : ∀ t : TensorId, t.index < w'.tensors.size → (w'.tensor t).Sound w c)
    (vars : ∀ v : VariableId, v.index < w'.vars.size → (w'.var v).Sound w' c) : w'.Sound c where
  current := current.trans s.current
  known := contexts ▸ s.known
  tensors t ht := h.tensor_sound (tensors t ht)
  vars := vars
  tape r hr := by
    rw [tape] at hr
    exact h.record_sound s (s.tape r hr)
  ordered := by
    rw [tape]
    exact s.ordered

theorem Sound.setGrad (s : w.Sound c) {v : VariableId} {grad : Option (Tensor α)}
    (asked : (w.var v).requiresGrad = false → grad = none)
    (sound : ∀ g ∈ grad, g.Sound w c ∧ g.shape = w.shapeOf v ∧
      g.Outlasts (w.tensor (w.var v).data)) :
    (w.setVariable v { w.var v with grad }).Sound c := by
  have grown := (w.frame_setGrad v grad).grown
  apply s.extend grown rfl rfl rfl s.tensors
  intro u hu
  have known : u.index < w.vars.size := by simpa [setVariable] using hu
  rw [var_setVariable]
  split
  · next same =>
    have before := s.vars v (same.1 ▸ known)
    exact grown.variable_sound ⟨before.known, asked, sound⟩
  · exact grown.variable_sound (s.vars u known)

theorem Ends.sound {n : Nat} (h : w.Ends w' c n) (s : w.Sound c) : w'.Sound c := by
  have placed : ∀ t : Tensor α, t.Sound w c → t.Sound w' c := by
    intro t sound
    refine ⟨sound.filled, fun p hp => ?_⟩
    obtain ⟨place, before⟩ := sound.placed p hp
    rw [h.generation]
    exact ⟨place, Nat.le_add_right_of_le before⟩
  exact
    { current := h.current.trans s.current
      known := h.contexts ▸ s.known
      tensors := by
        intro t ht
        rw [h.tensor]
        exact placed _ (s.tensors t (h.tensors ▸ ht))
      vars := by
        intro v hv
        have before := s.vars v (h.vars ▸ hv)
        rw [h.var]
        refine ⟨h.tensors ▸ before.known, before.asked, fun g hg => ?_⟩
        obtain ⟨sound, shape, outlasts⟩ := before.grad g hg
        rw [h.tensor]
        exact ⟨placed g sound, shape, outlasts⟩
      tape := by
        rw [h.tape]
        intro r hr
        cases hr
      ordered := by
        rw [h.tape]
        exact .nil }

end Workspace

end DerivativeEngine
