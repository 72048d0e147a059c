import DerivativeEngine.Proofs.Layer.Buildable
import DerivativeEngine.Proofs.ModelFile.Transfer
import DerivativeEngine.Proofs.Workspace.Reading

/-! Logits of models in a workspace. A model that was built, whatever its parameters hold by now,
computes one function of the tokens, wherever it stands. That of a causal model says nothing, in the
rows of the first tokens, about the tokens that follow. -/

namespace DerivativeEngine

variable {α : Type}

theorem Transformer.map_congr {μ ν : Type} {t : Transformer α μ} {f g : μ → ν}
    (same : ∀ v ∈ t.parameters, f v = g v) : t.map f = t.map g := by
  refine Transformer.eq_of_frame ?_ ?_
  · rw [Transformer.frame_map, Transformer.frame_map]
  · rw [Transformer.parameters_map, Transformer.parameters_map]
    exact List.map_congr_left same

variable [Scalar α]

namespace Workspace

variable {w w' : Workspace α} {t : Transformer α VariableId} {causal : Bool}

/-- A model as it was planned, masked or not, whose parameters can be read and are on tensors of
their own, whatever they hold. -/
structure Carries (w : Workspace α) (t : Transformer α VariableId) (causal : Bool) : Prop where
  planned : ∃ p : Transformer α (Slot α), Transformer.plan t.config causal = .ok p ∧
    t.map w.shapeOf = p.map Slot.shape
  held : ∀ v ∈ t.parameters, w.Held v (w.valueOf v)
  distinct : (t.parameters.map fun v => (w.var v).data).Nodup

theorem Carries.fits (h : w.Carries t causal) :
    ((t.map w.valueOf).map NDArray.shape).Fits := by
  obtain ⟨p, plan, shapes⟩ := h.planned
  have same : t.map (NDArray.shape ∘ w.valueOf) = t.map w.shapeOf :=
    Transformer.map_congr fun v hv => (h.held v hv).shape
  rw [Transformer.map_map, same, shapes]
  exact Transformer.fits_of_plan plan

theorem Carries.frame (h : w.Carries t causal) {p : Transformer α (Slot α)}
    (plan : Transformer.plan t.config causal = .ok p) : t.frame = p.frame := by
  obtain ⟨p', plan', shapes⟩ := h.planned
  obtain rfl := Except.ok.inj (plan.symm.trans plan')
  rw [← Transformer.frame_map w.shapeOf, shapes, Transformer.frame_map]

theorem Carries.masks (h : w.Carries t causal) : ∀ b ∈ t.blocks, b.attention.causal = causal := by
  obtain ⟨p, plan, -⟩ := h.planned
  have frame := h.frame plan
  have masks : ∀ b ∈ p.frame.blocks, b.attention.causal = causal :=
    List.forall_mem_map.2 (Transformer.causal_of_plan plan)
  rw [← frame] at masks
  exact List.forall_mem_map.1 masks

theorem Carries.layers (h : w.Carries t causal) : t.blocks.length = t.config.nLayers.toNat := by
  obtain ⟨p, plan, -⟩ := h.planned
  have frames := congrArg (fun t => t.blocks.length) (h.frame plan)
  simpa only [Transformer.frame, Transformer.map, List.length_map,
    (Transformer.planned plan).layers] using frames

theorem Carries.extend (h : w.Carries t causal) (grown : w.Extends w')
    (held : ∀ v ∈ t.parameters, w'.Held v (w'.valueOf v)) : w'.Carries t causal := by
  obtain ⟨p, plan, shapes⟩ := h.planned
  have same : ∀ v ∈ t.parameters, w'.shapeOf v = w.shapeOf v := fun v hv =>
    grown.shapeOf (h.held v hv).known (h.held v hv).made
  have data : t.parameters.map (fun v => (w'.var v).data) =
      t.parameters.map fun v => (w.var v).data :=
    List.map_congr_left fun v hv => grown.data v (h.held v hv).known
  exact ⟨⟨p, plan, (Transformer.map_congr same).trans shapes⟩, held, data ▸ h.distinct⟩

theorem Carries.continue (h : w.Carries t causal) (later : w.Continues w') :
    w'.Carries t causal := by
  refine h.extend later.grown fun v hv => ?_
  have held := (h.held v hv).continue later
  rwa [held.valueOf]

theorem Carries.refill (h : w.Carries t causal) {qs : List (VariableId × NDArray α)}
    (filled : w.Filled qs w') (accepts : ∀ q ∈ qs, w.Accepts q.1 q.2) : w'.Carries t causal :=
  h.extend filled.grown fun v hv => (h.held v hv).refill filled accepts

theorem Standing.carries {p : Transformer α (Slot α)}
    (plan : Transformer.plan t.config causal = .ok p) (frame : t.frame = p.frame)
    (length : t.parameters.length = p.parameters.length)
    (h : w.Standing (p.parameters.zip t.parameters)) : w.Carries t causal := by
  have firsts : (p.parameters.zip t.parameters).map Prod.fst = p.parameters :=
    List.map_fst_zip (Nat.le_of_eq length.symm)
  have seconds : (p.parameters.zip t.parameters).map Prod.snd = t.parameters :=
    List.map_snd_zip (Nat.le_of_eq length)
  have holds := h.holds plan length
  refine ⟨⟨p, plan, ?_⟩, fun v hv => ?_, holds.separate.distinct⟩
  · refine Transformer.eq_of_frame ?_ ?_
    · rw [Transformer.frame_map, Transformer.frame_map, frame]
    · rw [Transformer.parameters_map, Transformer.parameters_map]
      exact holds.map_shapeOf plan
  · obtain ⟨value, shape⟩ := holds.shape_valueOf hv
    rw [← seconds] at hv
    obtain ⟨q, hq, rfl⟩ := List.mem_map.1 hv
    have stands := h.each q hq
    refine ⟨stands.made, stands.known, fun place hplace => ?_, value, shape⟩
    rw [stands.persistent] at hplace
    cases hplace

end Workspace

namespace Session

variable {w w' : Workspace α} {t : Transformer α VariableId} {causal : Bool}

theorem carries_buildTransformer {c : TransformerConfig}
    (run : outcome (buildTransformer c causal) w = (.ok t, w')) :
    t.config = c ∧ w'.Carries t causal := by
  obtain ⟨p, plan⟩ := plan_of_buildTransformer run
  obtain ⟨t', w₁, run', config, length, standing⟩ := outcome_buildTransformer plan w
  obtain ⟨⟨⟩, ⟨⟩⟩ := run.symm.trans run'
  have made : outcome (p.mapM allocate) w = (.ok t, w') := by
    rw [buildTransformer, plan] at run
    exact run
  have same : t.config = c := config.trans (Transformer.of_plan plan causal).1
  rw [← same] at plan
  exact ⟨same, standing.carries plan (frame_transformer made) length⟩

theorem computes_carried (carried : w.Carries t causal) {tokens : List Int}
    (takes : t.config.Takes tokens) :
    Computes w (logits t tokens) ((t.map w.valueOf).value tokens) :=
  computes_logits carried.held carried.fits takes

theorem shape_carried (carried : w.Carries t causal) {tokens : List Int}
    (takes : t.config.Takes tokens) :
    ((t.map w.valueOf).value tokens).shape = [tokens.length, t.config.vocabSize.toNat] :=
  Transformer.shape_value carried.fits takes.nonempty

/-- Two sequences that agree on their first tokens have the same logits there, in whatever
workspaces a causal model of the same parameters computes them. -/
theorem logits_agree {w w' : Workspace EReal} {t : Transformer EReal VariableId}
    (carried : w.Carries t true) (carried' : w'.Carries t true)
    (same : ∀ v ∈ t.parameters, w'.valueOf v = w.valueOf v) {tokens tokens' : List Int} {p : Nat}
    (takes : t.config.Takes tokens) (takes' : t.config.Takes tokens') (short : p ≤ tokens.length)
    (short' : p ≤ tokens'.length) (common : tokens.take p = tokens'.take p) :
    ∃ x x', Computes w (logits t tokens) x ∧ Computes w' (logits t tokens') x' ∧
      x.shape = [tokens.length, t.config.vocabSize.toNat] ∧
      x'.shape = [tokens'.length, t.config.vocabSize.toNat] ∧
      ∀ i < p, ∀ j < t.config.vocabSize.toNat,
        x.get (i * t.config.vocabSize.toNat + j) = x'.get (i * t.config.vocabSize.toNat + j) := by
  have function : t.map w'.valueOf = t.map w.valueOf := Transformer.map_congr same
  have masks : ∀ b ∈ (t.map w.valueOf).blocks, b.attention.causal = true :=
    List.forall_mem_map.2 carried.masks
  have agree := Transformer.agree masks carried.fits short short' common
  refine ⟨_, _, computes_carried carried takes, computes_carried carried' takes',
    shape_carried carried takes, shape_carried carried' takes', fun i hi j hj => ?_⟩
  rw [function]
  exact agree.row hi hj

def pairConfig : TransformerConfig := ⟨2, 1, 1, 1, 1, 2⟩

theorem logits_agree_pair : ∃ (t : Transformer EReal VariableId) (w w₁ : Workspace EReal)
    (x x' : NDArray EReal) (v : VariableId),
    outcome (buildTransformer pairConfig true) (.empty fun _ => 0) = (.ok t, w) ∧
      t.config = pairConfig ∧
      outcome (logits t [0, 0]) w = (.ok v, w₁) ∧ w₁.Held v x ∧
      Computes w₁ (logits t [0, 1]) x' ∧ x.shape = [2, 2] ∧ x'.shape = [2, 2] ∧
      x.get 0 = x'.get 0 ∧ x.get 1 = x'.get 1 := by
  have buildable : pairConfig.Buildable := by constructor <;> decide
  obtain ⟨p, plan⟩ := (Transformer.decides_plan (α := EReal) pairConfig true).ok buildable
  obtain ⟨t, w, built, -⟩ := outcome_buildTransformer plan (.empty fun _ => 0)
  obtain ⟨config, carried⟩ := carries_buildTransformer built
  have takes : t.config.Takes [0, 0] := by
    rw [config]
    constructor <;> decide
  have takes' : t.config.Takes [0, 1] := by
    rw [config]
    constructor <;> decide
  obtain ⟨v, w₁, run, later, held⟩ := computes_carried carried takes
  have carried₁ := carried.continue later
  have kept : ∀ u ∈ t.parameters, w₁.valueOf u = w.valueOf u := fun u hu =>
    ((carried.held u hu).continue later).valueOf
  obtain ⟨x, x', computed, computed', shape, shape', rows⟩ := logits_agree carried carried₁ kept
    takes takes' (show 1 ≤ [0, 0].length by decide) (show 1 ≤ [0, 1].length by decide) rfl
  obtain ⟨u, w₂, run', -, held'⟩ := computed
  obtain ⟨⟨⟩, ⟨⟩⟩ := run.symm.trans run'
  rw [config] at shape shape' rows
  exact ⟨t, w, w₁, x, x', v, built, config, run, held', computed', shape, shape',
    rows 0 (by decide) 0 (by decide), rows 0 (by decide) 1 (by decide)⟩

end Session

end DerivativeEngine
