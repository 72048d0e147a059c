import DerivativeEngine.Proofs.Tensor.RealArrays
import DerivativeEngine.Proofs.Training.Independence
import DerivativeEngine.Proofs.Training.Lockstep

/-! Models as they are at the start. Without rounding, what fills the slots of a plan is real
numbers, drawn or not. So a model that is built in a context in which nothing was made is a model of
real numbers, and an optimizer that is made for it tracks all that it learns. -/

namespace DerivativeEngine

open Operation (ok_of_bind)

theorem IsReal.ofInt (n : ℤ) : IsReal (Scalar.ofInt n) := (ofNat _).neg.ite (ofNat _)

theorem NDArray.allReal_normal {deviation : EReal} (real : IsReal deviation) (s : Shape)
    (draws : Draws) : (NDArray.normal deviation s draws).1.AllReal := by
  refine .ofFn fun i => real.mul (.mul (.sqrt (.mul (.neg (.ofScientific _ _ _)) (.log _))) ?_)
  exact ⟨_, rfl⟩

def Filling.Real : Filling EReal → Prop
  | .zeros | .ones => True
  | .normal deviation => IsReal deviation

theorem Slot.allReal_filled {s : Slot EReal} (real : s.filling.Real) (draws : Draws) :
    (s.filled draws).1.AllReal := by
  obtain ⟨name, shape, filling⟩ := s
  cases filling with
  | zeros => exact .fill _ .zero
  | ones => exact .fill _ .one
  | normal deviation => exact NDArray.allReal_normal real shape draws

theorem Slot.filling_of_ofSizes {α : Type} {name : String} {sizes : List ℤ} {filling : Filling α}
    {s : Slot α} (h : Slot.ofSizes name sizes filling = .ok s) : s.filling = filling := by
  obtain ⟨shape, -, h⟩ := ok_of_bind h
  obtain rfl := Except.ok.inj h
  rfl

theorem Slot.isReal_quotient {x y : EReal} {n : ℤ} (real : IsReal x)
    (h : Slot.quotient x n = .ok y) : IsReal y := by
  unfold Slot.quotient at h
  split at h
  · cases h
  · obtain rfl := Except.ok.inj h
    exact real.div (.ofInt n)

theorem Slot.isReal_root {x y : EReal} (real : IsReal x) (h : Slot.root x = .ok y) :
    IsReal y := by
  unfold Slot.root at h
  split at h
  · cases h
  · obtain rfl := Except.ok.inj h
    exact real.sqrt

theorem Linear.real_of_plan {inputs outputs : ℤ} {name : String} {l : Linear (Slot EReal)}
    (h : Linear.plan inputs outputs name = .ok l) : ∀ s ∈ l.parameters, s.filling.Real := by
  obtain ⟨quotient, divided, h⟩ := ok_of_bind h
  obtain ⟨deviation, root, h⟩ := ok_of_bind h
  obtain ⟨weight, first, h⟩ := ok_of_bind h
  obtain ⟨bias, second, h⟩ := ok_of_bind h
  obtain rfl := Except.ok.inj h
  have real := Slot.isReal_root (Slot.isReal_quotient (.ofScientific _ _ _) divided) root
  simp [parameters, Slot.filling_of_ofSizes first, Slot.filling_of_ofSizes second, Filling.Real,
    real]

theorem Embedding.real_of_plan {rows width : ℤ} {name : String} {e : Embedding (Slot EReal)}
    (h : Embedding.plan rows width name = .ok e) : ∀ s ∈ e.parameters, s.filling.Real := by
  obtain ⟨weight, first, h⟩ := ok_of_bind h
  obtain rfl := Except.ok.inj h
  have real : IsReal Embedding.deviation := .ofScientific _ _ _
  simp [parameters, Slot.filling_of_ofSizes first, Filling.Real, real]

theorem LayerNorm.real_of_plan {width : ℤ} {eps : EReal} {name : String}
    {l : LayerNorm EReal (Slot EReal)} (h : LayerNorm.plan width eps name = .ok l) :
    ∀ s ∈ l.parameters, s.filling.Real := by
  obtain ⟨gamma, first, h⟩ := ok_of_bind h
  obtain ⟨beta, second, h⟩ := ok_of_bind h
  obtain rfl := Except.ok.inj h
  simp [parameters, Slot.filling_of_ofSizes first, Slot.filling_of_ofSizes second, Filling.Real]

theorem FeedForward.real_of_plan {width inner : ℤ} {name : String} {l : FeedForward (Slot EReal)}
    (h : FeedForward.plan width inner name = .ok l) : ∀ s ∈ l.parameters, s.filling.Real := by
  obtain ⟨first, planned, h⟩ := ok_of_bind h
  obtain ⟨second, planned', h⟩ := ok_of_bind h
  obtain rfl := Except.ok.inj h
  exact List.forall_mem_append.2 ⟨Linear.real_of_plan planned, Linear.real_of_plan planned'⟩

theorem MultiHeadAttention.real_of_plan {model heads : ℤ} {causal : Bool} {name : String}
    {a : MultiHeadAttention EReal (Slot EReal)}
    (h : MultiHeadAttention.plan model heads causal name = .ok a) :
    ∀ s ∈ a.parameters, s.filling.Real := by
  obtain ⟨-, -, -, ⟨_, query⟩, ⟨_, key⟩, ⟨_, values⟩, ⟨_, output⟩, -⟩ :=
    MultiHeadAttention.planned h
  have slots := List.forall_mem_append.2 ⟨Linear.real_of_plan query, Linear.real_of_plan key⟩
  have slots := List.forall_mem_append.2 ⟨slots, Linear.real_of_plan values⟩
  exact List.forall_mem_append.2 ⟨slots, Linear.real_of_plan output⟩

theorem TransformerBlock.real_of_plan {model heads inner : ℤ} {causal : Bool} {name : String}
    {b : TransformerBlock EReal (Slot EReal)}
    (h : TransformerBlock.plan model heads inner causal name = .ok b) :
    ∀ s ∈ b.parameters, s.filling.Real := by
  obtain ⟨norm₁, first, h⟩ := ok_of_bind h
  obtain ⟨attention, second, h⟩ := ok_of_bind h
  obtain ⟨norm₂, third, h⟩ := ok_of_bind h
  obtain ⟨feedForward, fourth, h⟩ := ok_of_bind h
  obtain rfl := Except.ok.inj h
  have slots := List.forall_mem_append.2
    ⟨LayerNorm.real_of_plan first, LayerNorm.real_of_plan third⟩
  have slots := List.forall_mem_append.2 ⟨slots, MultiHeadAttention.real_of_plan second⟩
  exact List.forall_mem_append.2 ⟨slots, FeedForward.real_of_plan fourth⟩

theorem Transformer.real_of_plan {c : TransformerConfig} {causal : Bool}
    {p : Transformer EReal (Slot EReal)} (h : Transformer.plan c causal = .ok p) :
    ∀ s ∈ p.parameters, s.filling.Real := by
  obtain ⟨⟨_, tokens⟩, ⟨_, positions⟩, blocks, ⟨_, norm⟩, ⟨_, head⟩, -⟩ := Transformer.planned h
  have inside : ∀ s ∈ p.blocks.flatMap TransformerBlock.parameters, s.filling.Real :=
    List.forall_mem_flatMap.2 fun b hb => (blocks b hb).elim fun _ => TransformerBlock.real_of_plan
  have slots := List.forall_mem_append.2
    ⟨Embedding.real_of_plan tokens, Embedding.real_of_plan positions⟩
  have slots := List.forall_mem_append.2 ⟨slots, inside⟩
  have slots := List.forall_mem_append.2 ⟨slots, LayerNorm.real_of_plan norm⟩
  exact List.forall_mem_append.2 ⟨slots, Linear.real_of_plan head⟩

namespace Session.Leads

variable {α μ ν : Type} {R : Workspace α → Workspace α → Prop} [IsPreorder (Workspace α) R]
  {f : μ → Session α ν} {w : Workspace α}

theorem linear {l : Linear μ} (each : ∀ s ∈ l.parameters, ∀ w, Leads R (f s) w) :
    Leads R (l.mapM f) w :=
  (each l.weight (by simp [Linear.parameters]) w).bind fun _ w _ =>
    (each l.bias (by simp [Linear.parameters]) w).bind fun _ _ _ => .of_reads rfl

theorem embedding {e : Embedding μ} (each : ∀ s ∈ e.parameters, ∀ w, Leads R (f s) w) :
    Leads R (e.mapM f) w :=
  (each e.weight (by simp [Embedding.parameters]) w).bind fun _ _ _ => .of_reads rfl

theorem layerNorm {l : LayerNorm α μ} (each : ∀ s ∈ l.parameters, ∀ w, Leads R (f s) w) :
    Leads R (l.mapM f) w :=
  (each l.gamma (by simp [LayerNorm.parameters]) w).bind fun _ w _ =>
    (each l.beta (by simp [LayerNorm.parameters]) w).bind fun _ _ _ => .of_reads rfl

theorem feedForward {l : FeedForward μ} (each : ∀ s ∈ l.parameters, ∀ w, Leads R (f s) w) :
    Leads R (l.mapM f) w := by
  obtain ⟨first, second⟩ := List.forall_mem_append.1 each
  exact (linear first).bind fun _ _ _ => (linear second).bind fun _ _ _ => .of_reads rfl

theorem attention {a : MultiHeadAttention α μ}
    (each : ∀ s ∈ a.parameters, ∀ w, Leads R (f s) w) : Leads R (a.mapM f) w := by
  obtain ⟨each, output⟩ := List.forall_mem_append.1 each
  obtain ⟨each, values⟩ := List.forall_mem_append.1 each
  obtain ⟨query, key⟩ := List.forall_mem_append.1 each
  exact (linear query).bind fun _ _ _ => (linear key).bind fun _ _ _ =>
    (linear values).bind fun _ _ _ => (linear output).bind fun _ _ _ => .of_reads rfl

theorem block {b : TransformerBlock α μ} (each : ∀ s ∈ b.parameters, ∀ w, Leads R (f s) w) :
    Leads R (b.mapM f) w := by
  obtain ⟨each, fed⟩ := List.forall_mem_append.1 each
  obtain ⟨each, attended⟩ := List.forall_mem_append.1 each
  obtain ⟨norm₁, norm₂⟩ := List.forall_mem_append.1 each
  exact (layerNorm norm₁).bind fun _ _ _ => (attention attended).bind fun _ _ _ =>
    (layerNorm norm₂).bind fun _ _ _ => (feedForward fed).bind fun _ _ _ => .of_reads rfl

theorem transformer {t : Transformer α μ} (each : ∀ s ∈ t.parameters, ∀ w, Leads R (f s) w) :
    Leads R (t.mapM f) w := by
  obtain ⟨each, head⟩ := List.forall_mem_append.1 each
  obtain ⟨each, norm⟩ := List.forall_mem_append.1 each
  obtain ⟨each, blocks⟩ := List.forall_mem_append.1 each
  obtain ⟨tokens, positions⟩ := List.forall_mem_append.1 each
  have blocks : ∀ b ∈ t.blocks, ∀ w, Leads R (b.mapM f) w := fun b hb w =>
    block fun s hs => blocks s (List.mem_flatMap_of_mem hb hs)
  exact (embedding tokens).bind fun _ _ _ => (embedding positions).bind fun _ _ _ =>
    (mapM blocks).bind fun _ _ _ => (layerNorm norm).bind fun _ _ _ =>
      (linear head).bind fun _ _ _ => .of_reads rfl

end Session.Leads

namespace Workspace

variable {w : Workspace EReal} {c : ContextId}

/-- Nothing was recorded, and all that was made are variables of real numbers with gradients. -/
structure Furnished (w : Workspace EReal) (c : ContextId) : Prop where
  sound : w.Sound c
  empty : w.tape c = []
  made : ∀ v : VariableId, v.index < w.vars.size →
    (w.valueOf v).AllReal ∧ (w.var v).grad.isSome = true

theorem furnished_ofContext (arena : Arena) (period : ℤ) (draws : Draws) :
    (ofContext (.ofArena arena period) draws : Workspace EReal).Furnished ⟨0⟩ where
  sound := (Reachable.start arena period draws).sound
  empty := rfl
  made _ known := absurd known (Nat.not_lt_zero _)

theorem Furnished.grown (h : w.Furnished c) (name : String) {x : NDArray EReal} (real : x.AllReal)
    (draws : Draws) : (w.grown name x draws).Furnished c := by
  obtain ⟨ts, y, adds, asks, -⟩ := w.adds_grown c name x draws
  refine ⟨adds.sound h.sound (.inl rfl), ?_, fun v known => ?_⟩
  · rw [adds.pushes.tape, h.empty, List.append_nil]
  · rw [adds.pushes.size_vars, List.length_singleton] at known
    rcases Nat.lt_succ_iff_lt_or_eq.1 known with before | last
    · rw [adds.pushes.valueOf_old h.sound before, adds.pushes.var_old before]
      exact h.made v before
    · obtain rfl : v = ⟨w.vars.size⟩ := congrArg VariableId.mk last
      rw [adds.fresh.valueOf, adds.fresh.asked, adds.pushes.var_new]
      exact ⟨real, asks⟩

def Furnishes (c : ContextId) (w w' : Workspace EReal) : Prop := w.Furnished c → w'.Furnished c

instance : IsPreorder (Workspace EReal) (Furnishes c) where
  refl _ := id
  trans _ _ _ h h' := h' ∘ h

theorem furnishes_allocate {s : Slot EReal} (real : s.filling.Real) (w : Workspace EReal) :
    Session.Leads (Furnishes c) (Session.allocate s) w := by
  rw [Session.Leads, Session.outcome_allocate]
  exact fun h => h.grown s.name (Slot.allReal_filled real w.draws) _

structure CarriesReals (w : Workspace EReal) (t : Transformer EReal VariableId) (causal : Bool) :
    Prop extends Carries w t causal where
  real : ∀ v ∈ t.parameters, (w.valueOf v).AllReal

/-- An optimizer that tracks all parameters of a model, with gradients that can be set to zero. -/
structure Trains (w : Workspace EReal) (c : ContextId) (t : Transformer EReal VariableId)
    (o : OptimizerId) : Prop where
  sound : w.Sound c
  tracks : ∀ v ∈ t.parameters, v ∈ (w.optimizer o).tracked
  tracked : ∀ v ∈ (w.optimizer o).tracked, w.Alive v ∧ (w.gradient? v).isSome = true

end Workspace

namespace Session

theorem trains_buildTransformer {config : TransformerConfig} (buildable : config.Buildable)
    (causal : Bool) (arena : Arena) (period : ℤ) (draws : Draws) (beta₁ beta₂ eps rate : EReal) :
    ∃ t w o w', outcome (buildTransformer config causal)
        (.ofContext (.ofArena arena period) draws) = (.ok t, w) ∧
      outcome (newOptimizer t.parameters (.adam beta₁ beta₂ eps) rate) w = (.ok o, w') ∧
      t.config = config ∧ w'.CarriesReals t causal ∧ w'.Trains ⟨0⟩ t o ∧ w'.tape ⟨0⟩ = [] := by
  obtain ⟨p, plan⟩ := (Transformer.decides_plan (α := EReal) config causal).ok buildable
  let start : Workspace EReal := .ofContext (.ofArena arena period) draws
  obtain ⟨t, w, built, -⟩ := outcome_buildTransformer plan start
  obtain ⟨same, carried⟩ := carries_buildTransformer built
  have made : outcome (p.mapM allocate) start = (.ok t, w) := by
    rw [buildTransformer, plan] at built
    exact built
  have leads : Leads (Workspace.Furnishes ⟨0⟩) (p.mapM allocate) start :=
    .transformer fun s hs => Workspace.furnishes_allocate (Transformer.real_of_plan plan s hs)
  rw [Leads, made] at leads
  have furnished : w.Furnished ⟨0⟩ := leads (Workspace.furnished_ofContext arena period draws)
  have made : ∀ v ∈ t.parameters, (w.valueOf v).AllReal ∧ (w.var v).grad.isSome = true :=
    fun v hv => furnished.made v (carried.held v hv).known
  have asked : ∀ v ∈ t.parameters, (w.var v).requiresGrad = true := fun v hv =>
    furnished.sound.asks (carried.held v hv).known (made v hv).2
  have run := outcome_newOptimizer carried.holds asked beta₁ beta₂ eps rate
  have refilled := refills_newOptimizer t.parameters (.adam beta₁ beta₂ eps) rate w
  rw [Leads, run] at refilled
  have sound := refilled.sound furnished.sound
  refine ⟨t, w, _, _, built, run, same, ⟨carried.optimizers _, fun v hv => (made v hv).1⟩, ?_,
    furnished.empty⟩
  exact
    { sound := sound
      tracks := fun v hv => by
        rw [w.optimizer_push]
        exact hv
      tracked := fun v hv => by
        rw [w.optimizer_push] at hv
        refine ⟨(carried.held v hv).alive, ?_⟩
        rw [sound.gradient_isSome (carried.held v hv).known]
        exact (made v hv).2 }

end Session

end DerivativeEngine
