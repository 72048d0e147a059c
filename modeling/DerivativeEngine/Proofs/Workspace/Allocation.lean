import DerivativeEngine.Proofs.Workspace.Session
import DerivativeEngine.Training.Model

/-! Planned models become variables. A slot gets a new tensor and a new variable on it, whatever the
workspace holds; the tensors of two slots are never the same. For a layer, its parameters and the
slots it was planned with go together, in whatever order the parts of the layer are made. -/

namespace DerivativeEngine

variable {α β : Type}

namespace Workspace

variable {w : Workspace α}

structure Stands (w : Workspace α) (s : Slot α) (v : VariableId) : Prop where
  made : v.index < w.vars.size
  known : (w.var v).data.index < w.tensors.size
  persistent : (w.tensor (w.var v).data).place = none
  shape : w.shapeOf v = s.shape
  filled : ∃ x, (w.tensor (w.var v).data).value = some x ∧ x.shape = s.shape
  asked : (w.var v).requiresGrad = true

/-- Variables for slots, no two of them on one tensor. -/
structure Standing (w : Workspace α) (qs : List (Slot α × VariableId)) : Prop where
  each : ∀ q ∈ qs, w.Stands q.1 q.2
  distinct : (qs.map fun q => (w.var q.2).data).Nodup

theorem Standing.nil (w : Workspace α) : w.Standing [] := ⟨by simp, by simp⟩

theorem Standing.perm {qs qs' : List (Slot α × VariableId)} (h : w.Standing qs)
    (same : qs.Perm qs') : w.Standing qs' :=
  ⟨fun q hq => h.each q (same.mem_iff.2 hq), (same.map _).nodup_iff.1 h.distinct⟩

def grown [Zero α] (w : Workspace α) (name : String) (x : NDArray α) (draws : Draws) :
    Workspace α :=
  { w with
    draws
    tensors := w.tensors.push ⟨x.shape, some x, none⟩
    vars := w.vars.push ⟨⟨w.tensors.size⟩, some ⟨x.shape, some (.fill x.shape 0), none⟩, true, true,
      name⟩ }

section Grown

variable [Zero α] (name : String) (x : NDArray α) (draws : Draws)

theorem var_grown (v : VariableId) : (w.grown name x draws).var v =
    if v.index = w.vars.size then
      ⟨⟨w.tensors.size⟩, some ⟨x.shape, some (.fill x.shape 0), none⟩, true, true, name⟩
    else w.var v :=
  var_push _ _ v

theorem tensor_grown (t : TensorId) : (w.grown name x draws).tensor t =
    if t.index = w.tensors.size then ⟨x.shape, some x, none⟩ else w.tensor t :=
  tensor_push _ _ t

theorem Stands.grown {s : Slot α} {v : VariableId} (h : w.Stands s v) :
    (w.grown name x draws).Stands s v ∧ ((w.grown name x draws).var v).data = (w.var v).data := by
  have older : (w.grown name x draws).var v = w.var v := by
    rw [var_grown, if_neg (Nat.ne_of_lt h.made)]
  have data : (w.grown name x draws).tensor (w.var v).data = w.tensor (w.var v).data := by
    rw [tensor_grown, if_neg (Nat.ne_of_lt h.known)]
  refine ⟨?_, congrArg Variable.data older⟩
  exact
    { made := by simpa [Workspace.grown] using Nat.lt_succ_of_lt h.made
      known := by
        rw [older]
        simpa [Workspace.grown] using Nat.lt_succ_of_lt h.known
      persistent := by rw [older, data, h.persistent]
      shape := by
        rw [shapeOf, older, data]
        exact h.shape
      filled := by
        rw [older, data]
        exact h.filled
      asked := by rw [older, h.asked] }

theorem Standing.grown {qs : List (Slot α × VariableId)} (h : w.Standing qs) {s : Slot α}
    (shape : x.shape = s.shape) :
    (w.grown name x draws).Standing ((s, ⟨w.vars.size⟩) :: qs) := by
  have newest : (w.grown name x draws).var ⟨w.vars.size⟩ =
      ⟨⟨w.tensors.size⟩, some ⟨x.shape, some (.fill x.shape 0), none⟩, true, true, name⟩ := by
    rw [var_grown, if_pos rfl]
  have data : (w.grown name x draws).tensor ⟨w.tensors.size⟩ = ⟨x.shape, some x, none⟩ := by
    rw [tensor_grown, if_pos rfl]
  have stands : (w.grown name x draws).Stands s ⟨w.vars.size⟩ :=
    { made := by simp [Workspace.grown]
      known := by
        rw [newest]
        simp [Workspace.grown]
      persistent := by rw [newest, data]
      shape := by
        rw [shapeOf, newest, data]
        exact shape
      filled := by
        rw [newest, data]
        exact ⟨x, rfl, shape⟩
      asked := by rw [newest] }
  have older : qs.map (fun q => ((w.grown name x draws).var q.2).data) =
      qs.map fun q => (w.var q.2).data :=
    List.map_congr_left fun q hq => ((h.each q hq).grown name x draws).2
  refine ⟨List.forall_mem_cons.2 ⟨stands, fun q hq => ((h.each q hq).grown name x draws).1⟩, ?_⟩
  rw [List.map_cons, older, newest, List.nodup_cons]
  refine ⟨fun there => ?_, h.distinct⟩
  obtain ⟨q, hq, same⟩ := List.mem_map.1 there
  have known := (h.each q hq).known
  rw [same] at known
  exact Nat.lt_irrefl _ known

end Grown

end Workspace

section Filled

variable [Scalar α]

def Slot.filled (s : Slot α) (draws : Draws) : NDArray α × Draws :=
  match s.filling with
  | .zeros => (.fill s.shape 0, draws)
  | .ones => (.fill s.shape 1, draws)
  | .normal deviation => NDArray.normal deviation s.shape draws

theorem Slot.shape_filled (s : Slot α) (draws : Draws) :
    (s.filled draws).1.shape = s.shape := by
  unfold filled
  split <;> rfl

end Filled

namespace Session

variable [Scalar α] {w : Workspace α}

theorem outcome_makeParameter (x : NDArray α) (name : String) (w : Workspace α) :
    outcome (make x none >>= fun t => parameter t name) w =
      (.ok ⟨w.vars.size⟩, w.grown name x w.draws) := by
  have made : outcome (make x none) w = (.ok ⟨w.tensors.size⟩,
      { w with tensors := w.tensors.push ⟨x.shape, some x, none⟩ }) := rfl
  rw [outcome_bind_ok made]
  generalize eq : ({ w with tensors := w.tensors.push ⟨x.shape, some x, none⟩ } : Workspace α) = w₁
  have held : w₁.tensor ⟨w.tensors.size⟩ = ⟨x.shape, some x, none⟩ := by
    rw [← eq, Workspace.tensor_push, if_pos rfl]
  have persists : outcome (persistent ⟨w.tensors.size⟩) w₁ = (.ok ⟨w.tensors.size⟩, w₁) := by
    rw [persistent, outcome_bind_ok (outcome_tensor _), held]
    rfl
  rw [parameter, outcome_bind_ok persists, variableOn, outcome_bind_ok (outcome_tensor _), held,
    ← eq]
  rfl

theorem outcome_allocate (s : Slot α) (w : Workspace α) :
    outcome (allocate s) w =
      (.ok ⟨w.vars.size⟩, w.grown s.name (s.filled w.draws).1 (s.filled w.draws).2) := by
  obtain ⟨name, shape, filling⟩ := s
  cases filling with
  | zeros => exact outcome_makeParameter _ name w
  | ones => exact outcome_makeParameter _ name w
  | normal deviation =>
    have drawn : outcome (modifyGet fun w : Workspace α =>
        ((NDArray.normal deviation shape w.draws).1,
          { w with draws := (NDArray.normal deviation shape w.draws).2 })) w =
        (.ok (NDArray.normal deviation shape w.draws).1,
          { w with draws := (NDArray.normal deviation shape w.draws).2 }) := rfl
    change outcome ((_ >>= fun x => make x none) >>= fun t => parameter t name) w = _
    rw [bind_assoc, outcome_bind_ok drawn]
    exact outcome_makeParameter _ name _

section Makes

variable {γ : Type} {slots slots' : List (Slot α)} {p : Session α β}

/-- The session gives something with these variables, made for the slots, whatever stands there
already. -/
def Makes (p : Session α β) (slots : List (Slot α)) (result : β → List VariableId → Prop) : Prop :=
  ∀ w qs, w.Standing qs → ∃ x vs w', outcome p w = (.ok x, w') ∧ result x vs ∧
    vs.length = slots.length ∧ w'.Standing (slots.zip vs ++ qs)

theorem makes_allocate (s : Slot α) : Makes (allocate s) [s] fun v vs => vs = [v] := by
  intro w qs standing
  exact ⟨_, _, _, outcome_allocate s w, rfl, rfl,
    standing.grown s.name _ _ (s.shape_filled w.draws)⟩

omit [Scalar α] in
theorem Makes.last {g : β → γ} {first : β → List VariableId} {result : γ → List VariableId → Prop}
    (hp : Makes p slots fun x vs => vs = first x) (gives : ∀ x, result (g x) (first x)) :
    Makes (do return g (← p)) slots result := by
  intro w qs standing
  obtain ⟨x, _, w₁, run, rfl, length, standing₁⟩ := hp w qs standing
  refine ⟨g x, _, w₁, ?_, gives x, length, standing₁⟩
  rw [outcome_bind_ok run]
  rfl

omit [Scalar α] in
theorem Makes.bind {f : β → Session α γ} {first : β → List VariableId}
    {result : γ → List VariableId → Prop} (hp : Makes p slots fun x vs => vs = first x)
    (hf : ∀ x, Makes (f x) slots' fun y vs => result y (first x ++ vs)) :
    Makes (p >>= f) (slots ++ slots') result := by
  intro w qs standing
  obtain ⟨x, vs, w₁, run, rfl, length, standing₁⟩ := hp w qs standing
  obtain ⟨y, us, w₂, run', gives, length', standing₂⟩ := hf x w₁ _ standing₁
  refine ⟨y, first x ++ us, w₂, ?_, gives, ?_, ?_⟩
  · rw [outcome_bind_ok run, run']
  · rw [List.length_append, List.length_append, length, length']
  · rw [List.zip_append length.symm]
    -- The later pairs were put in front of the earlier ones.
    refine standing₂.perm ?_
    rw [← List.append_assoc]
    exact List.perm_append_comm.append_right qs

omit [Scalar α] in
theorem Makes.reorder {made parameters : β → List VariableId}
    (h : Makes p slots fun x vs => vs = made x)
    (length : ∀ x, (parameters x).length = slots'.length)
    (same : ∀ x, (slots.zip (made x)).Perm (slots'.zip (parameters x))) :
    Makes p slots' fun x vs => vs = parameters x := by
  intro w qs standing
  obtain ⟨x, vs, w₁, run, rfl, -, standing₁⟩ := h w qs standing
  exact ⟨x, _, w₁, run, rfl, length x, standing₁.perm ((same x).append_right qs)⟩

omit [Scalar α] in
theorem Makes.mapM {σ : Type} {f : σ → Session α β} {slots : σ → List (Slot α)}
    {parameters : β → List VariableId}
    (each : ∀ s, Makes (f s) (slots s) fun x vs => vs = parameters x) : ∀ ss : List σ,
      Makes (ss.mapM f) (ss.flatMap slots) fun xs vs => vs = xs.flatMap parameters
  | [] => fun w _ standing => ⟨[], [], w, rfl, rfl, rfl, standing⟩
  | s :: ss => by
    rw [List.mapM_cons, List.flatMap_cons]
    exact .bind (each s) fun x => .last (Makes.mapM each ss) fun xs => rfl

end Makes

theorem makes_linear (l : Linear (Slot α)) :
    Makes (l.mapM allocate) l.parameters fun l vs => vs = l.parameters :=
  .bind (makes_allocate l.weight) fun _ => .last (makes_allocate l.bias) fun _ => rfl

theorem makes_embedding (e : Embedding (Slot α)) :
    Makes (e.mapM allocate) e.parameters fun e vs => vs = e.parameters :=
  .last (makes_allocate e.weight) fun _ => rfl

theorem makes_layerNorm (l : LayerNorm α (Slot α)) :
    Makes (l.mapM allocate) l.parameters fun l vs => vs = l.parameters :=
  .bind (makes_allocate l.gamma) fun _ => .last (makes_allocate l.beta) fun _ => rfl

theorem makes_feedForward (l : FeedForward (Slot α)) :
    Makes (l.mapM allocate) l.parameters fun l vs => vs = l.parameters :=
  .bind (makes_linear l.first) fun _ => .last (makes_linear l.second) fun _ => rfl

theorem makes_attention (a : MultiHeadAttention α (Slot α)) :
    Makes (a.mapM allocate) a.parameters fun a vs => vs = a.parameters := by
  have parts : Makes (a.mapM allocate) (a.query.parameters ++ (a.key.parameters ++
      (a.values.parameters ++ a.output.parameters))) fun a vs => vs = a.parameters :=
    .bind (makes_linear a.query) fun _ => .bind (makes_linear a.key) fun _ =>
      .bind (makes_linear a.values) fun _ => .last (makes_linear a.output) fun _ => rfl
  exact parts

theorem makes_block (b : TransformerBlock α (Slot α)) :
    Makes (b.mapM allocate) b.parameters fun b vs => vs = b.parameters := by
  -- The second normalisation is made after the attention layer, and named before it.
  have parts : Makes (b.mapM allocate) (b.norm₁.parameters ++ (b.attention.parameters ++
      (b.norm₂.parameters ++ b.feedForward.parameters))) fun b vs => vs = b.norm₁.parameters ++
        (b.attention.parameters ++ (b.norm₂.parameters ++ b.feedForward.parameters)) :=
    .bind (makes_layerNorm b.norm₁) fun _ => .bind (makes_attention b.attention) fun _ =>
      .bind (makes_layerNorm b.norm₂) fun _ => .last (makes_feedForward b.feedForward) fun _ => rfl
  refine parts.reorder (fun _ => rfl) fun b' => ?_
  let norm₁ := b.norm₁.parameters.zip b'.norm₁.parameters
  let attention := b.attention.parameters.zip b'.attention.parameters
  let norm₂ := b.norm₂.parameters.zip b'.norm₂.parameters
  let feedForward := b.feedForward.parameters.zip b'.feedForward.parameters
  change (norm₁ ++ (attention ++ (norm₂ ++ feedForward))).Perm
    (norm₁ ++ (norm₂ ++ (attention ++ feedForward)))
  exact (List.perm_append_comm_assoc _ _ _).append_left _

theorem makes_transformer (t : Transformer α (Slot α)) :
    Makes (t.mapM allocate) t.parameters fun t' vs =>
      t'.config = t.config ∧ vs = t'.parameters := by
  have parts : Makes (t.mapM allocate) (t.tokens.parameters ++ (t.positions.parameters ++
      (t.blocks.flatMap TransformerBlock.parameters ++ (t.norm.parameters ++ t.head.parameters))))
        fun t' vs => t'.config = t.config ∧ vs = t'.parameters :=
    .bind (makes_embedding t.tokens) fun _ => .bind (makes_embedding t.positions) fun _ =>
      .bind (.mapM makes_block t.blocks) fun _ => .bind (makes_layerNorm t.norm) fun _ =>
        .last (makes_linear t.head) fun _ => ⟨rfl, by simp [Transformer.parameters]⟩
  simpa [Transformer.parameters] using parts

theorem outcome_buildTransformer {c : TransformerConfig} {causal : Bool}
    {p : Transformer α (Slot α)} (planned : Transformer.plan c causal = .ok p) (w : Workspace α) :
    ∃ t w', outcome (buildTransformer c causal) w = (.ok t, w') ∧ t.config = p.config ∧
      t.parameters.length = p.parameters.length ∧
        w'.Standing (p.parameters.zip t.parameters) := by
  obtain ⟨t, _, w', run, ⟨config, rfl⟩, length, standing⟩ := makes_transformer p w [] (.nil w)
  rw [List.append_nil] at standing
  refine ⟨t, w', ?_, config, length, standing⟩
  rw [buildTransformer, planned]
  exact run

theorem plan_of_buildTransformer {c : TransformerConfig} {causal : Bool} {w w' : Workspace α}
    {t : Transformer α VariableId} (h : outcome (buildTransformer c causal) w = (.ok t, w')) :
    ∃ p, Transformer.plan (α := α) c causal = .ok p := by
  cases planned : Transformer.plan (α := α) c causal with
  | ok p => exact ⟨p, rfl⟩
  | error e =>
    rw [buildTransformer, planned] at h
    cases h

end Session

end DerivativeEngine
