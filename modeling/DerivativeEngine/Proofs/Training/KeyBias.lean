import DerivativeEngine.Proofs.Layer.KeyBias
import DerivativeEngine.Proofs.Tape.Checks
import DerivativeEngine.Proofs.Training.Initial
import DerivativeEngine.Proofs.Workspace.Cancelling

/-! Biases of keys in training. Whatever is added to the bias of the keys of a block, the logits of
the model stay as they are. So nothing should be learnt of it, and nothing is: after the pass back
from a loss, the gradient of every such bias is zero. -/

namespace DerivativeEngine

open Interpretation (arrays)
open NDArray (Additive)

variable {α : Type}

namespace Session

variable [Scalar α] {w : Workspace α} {v : VariableId} {y : NDArray α}

def shift (v : VariableId) (x : NDArray α) : Session α Unit := do
  setData v ((← value v).add x)

theorem outcome_shift (held : w.Held v y) (x : NDArray α) :
    w.Accepts v (y.add x) ∧ outcome (shift v x) w = (.ok (), w.fill v (y.add x)) := by
  have accepts : w.Accepts v (y.add x) := ⟨held.shape, held.alive⟩
  have read : outcome (value v) w = (.ok y, w) := by
    rw [outcome_value, Workspace.read_eq_ok.2 ⟨held.alive, held.value⟩]
    rfl
  refine ⟨accepts, ?_⟩
  rw [shift, outcome_bind_ok read]
  exact outcome_setData_eq_ok.2 ⟨accepts, rfl⟩

end Session

namespace Flowing

variable {c : ContextId} {s : Flowing c} {f : VariableId → NDArray EReal}

theorem supports_block {b : TransformerBlock EReal VariableId} {d : ℕ} (regular : b.Regular)
    (fits : ((b.map f).map NDArray.shape).Fits d) (others : ∀ u ∈ b.others, s.Stands u (f u))
    (real : (f b.attention.key.bias).AllReal)
    (bias : s.Takes b.attention.key.bias (f b.attention.key.bias) fun g => ∀ i, g.get i = 0) :
    (reading c).Supports s f b := by
  obtain ⟨others, feedForward⟩ := List.forall_mem_append.1 others
  obtain ⟨others, attention⟩ := List.forall_mem_append.1 others
  obtain ⟨norm₁, norm₂⟩ := List.forall_mem_append.1 others
  obtain ⟨attention, output⟩ := List.forall_mem_append.1 attention
  obtain ⟨attention, values⟩ := List.forall_mem_append.1 attention
  obtain ⟨query, weight⟩ := List.forall_mem_append.1 attention
  obtain ⟨eps, heads, width, sized⟩ := regular
  exact ⟨eps, norm₁, norm₂, attends fits.attention sized.isReal_scale query
    (weight _ List.mem_cons_self) real bias values output, feedForward⟩

theorem supports_transformer {t : Transformer EReal VariableId} (regular : t.Regular)
    (fits : ((t.map f).map NDArray.shape).Fits) (others : ∀ u ∈ t.others, s.Stands u (f u))
    (biases : ∀ u ∈ t.keyBiases, (f u).AllReal ∧ s.Takes u (f u) fun g => ∀ i, g.get i = 0) :
    (reading c).SupportsModel s f t := by
  have fit : ∀ b ∈ t.blocks, ((b.map f).map NDArray.shape).Fits t.config.dModel.toNat :=
    List.forall_mem_map.1 (List.forall_mem_map.1 fits.blocks)
  have blocks : ∀ b ∈ t.blocks, (reading c).Supports s f b := fun b hb => by
    obtain ⟨real, bias⟩ := biases _ (Transformer.mem_keyBiases hb)
    exact supports_block (regular.blocks b hb) (fit b hb)
      (fun u hu => others u (Transformer.mem_others_of_block hb hu)) real bias
  obtain ⟨others, head⟩ := List.forall_mem_append.1 others
  obtain ⟨others, norm⟩ := List.forall_mem_append.1 others
  obtain ⟨others, -⟩ := List.forall_mem_append.1 others
  obtain ⟨tokens, positions⟩ := List.forall_mem_append.1 others
  exact ⟨tokens, positions, blocks, regular.eps, norm, head⟩

theorem takes_loss (s : Flowing c) {v : VariableId} {x : NDArray EReal} {targets : List ℤ} {n : ℕ}
    (hx : s.Stands v x) (shape : x.shape = [targets.length, n])
    (inside : ∀ i ∈ targets, 0 ≤ i ∧ i < (n : ℤ)) :
    ∃ l s' y, Session.outcome (Session.apply (.crossEntropy targets v)) s.space =
      (.ok l, s'.space) ∧ s.Later s' ∧ s'.Takes l y NDArray.AllReal ∧
        (s'.space.var l).grad.isSome = true := by
  have ok : arrays.apply (.crossEntropy targets x) =
      .ok (x.crossEntropy (targets.map Int.toNat)) := by
    refine arrays_apply ?_
    change Operation.checkTargets targets x.shape = _
    rw [shape, Operation.checkTargets_of_inside inside]
  obtain ⟨l, s', run, later, takes, asked⟩ := s.takes_apply (.crossEntropy targets v)
    (List.forall_mem_singleton.2 ⟨_, hx.2.held⟩) ⟨v, List.mem_cons_self, hx.2.asks⟩
    (by
      change arrays.apply (.crossEntropy targets (s.space.valueOf v)) = _
      rw [hx.2.held.valueOf]
      exact ok)
    NDArray.additive_allReal fun g _ real => by
      change ∀ p ∈ [(v, NDArray.crossEntropyReverse (s.space.valueOf v) (targets.map Int.toNat) g)],
        s.like p.1 p.2
      rw [hx.2.held.valueOf]
      exact List.forall_mem_singleton.2 (hx.2.takes _ (hx.1.crossEntropyReverse real _))
  exact ⟨l, s', _, run, later, takes, asked⟩

end Flowing

namespace Workspace

variable {w w' : Workspace EReal} {c : ContextId} {t : Transformer EReal VariableId} {causal : Bool}
  {o : OptimizerId} {u v : VariableId}

theorem Carries.regular (h : w.Carries t causal) : t.Regular := by
  obtain ⟨p, plan, -⟩ := h.planned
  exact Transformer.regular_of_plan plan (h.frame plan)

theorem Carries.nodup (h : w.Carries t causal) : (t.keyBiases ++ t.others).Nodup :=
  t.perm_parameters.nodup_iff.1 h.distinct.of_map

theorem Carries.not_mem_keyBiases (h : w.Carries t causal) (hu : u ∈ t.others) :
    u ∉ t.keyBiases := fun bias =>
  List.disjoint_of_nodup_append h.nodup bias hu

theorem Carries.valueOf_fill (h : w.Carries t causal) (hu : u ∈ t.parameters)
    (hv : v ∈ t.parameters) (y : NDArray EReal) :
    (w.fill v y).valueOf u = if u = v then y else w.valueOf u := by
  rw [Workspace.valueOf_fill (h.held v hv).made]
  by_cases same : u = v
  · rw [if_pos (congrArg _ (congrArg _ same)), if_pos same]
  · have apart : (w.var u).data ≠ (w.var v).data := fun data =>
      same (List.inj_on_of_nodup_map h.distinct hu hv data)
    rw [if_neg apart, if_neg same]

theorem CarriesReals.value_key_bias (h : w.CarriesReals t causal) (hv : v ∈ t.keyBiases)
    {y : NDArray EReal} (accepts : w.Accepts v y) (other : y.AllReal) (tokens : List ℤ) :
    (t.map (w.fill v y).valueOf).value tokens = (t.map w.valueOf).value tokens := by
  have bias := Transformer.mem_parameters_of_keyBias hv
  refine Transformer.value_key_biases h.regular h.fits h.real (fun u hu => ?_) (fun u hu => ?_)
    tokens
  · have apart : u ≠ v := fun same => h.not_mem_keyBiases hu (same ▸ hv)
    rw [h.valueOf_fill (Transformer.mem_parameters_of_other hu) bias, if_neg apart]
  · have parameter := Transformer.mem_parameters_of_keyBias hu
    rw [h.valueOf_fill parameter bias]
    split
    · next same =>
      refine ⟨other, ?_⟩
      rw [accepts.1, same, (h.held v bias).shape]
    · exact ⟨h.real u parameter, rfl⟩

/-- Gradients of biases of keys are zero, and nothing is said of others. -/
def Idle (t : Transformer EReal VariableId) (v : VariableId) (g : NDArray EReal) : Prop :=
  v ∈ t.keyBiases → ∀ i, g.get i = 0

theorem additive_idle (t : Transformer EReal VariableId) (v : VariableId) :
    Additive (Idle t v) where
  zeros s _ := NDArray.additive_zero.zeros s
  add shape hg hh bias := NDArray.additive_zero.add shape (hg bias) (hh bias)

theorem CarriesReals.continue (h : w.CarriesReals t causal) (later : w.Continues w') :
    w'.CarriesReals t causal where
  toCarries := h.toCarries.continue later
  real v hv := by
    have held := h.held v hv
    rw [(held.continue later).valueOf]
    exact h.real v hv

theorem Trains.extend (h : w.Trains c t o) (grown : w.Extends w')
    (optimizers : w'.optimizers = w.optimizers) (sound : w'.Sound c)
    (keeps : ∀ v : VariableId, v.index < w.vars.size → (w.gradient? v).isSome = true →
      (w'.gradient? v).isSome = true) : w'.Trains c t o := by
  have same : w'.optimizer o = w.optimizer o := by rw [optimizer, optimizers, optimizer]
  refine ⟨sound, fun v hv => same ▸ h.tracks v hv, fun v hv => ?_⟩
  obtain ⟨alive, there⟩ := h.tracked v (same ▸ hv)
  obtain ⟨g, hg⟩ := Option.isSome_iff_exists.1 (Option.isSome_of_isSome_bind there)
  have known := known_of_grad hg
  exact ⟨(grown.alive known (h.sound.vars v known).known).2 alive, keeps v known there⟩

theorem Trains.asks (h : w.Trains c t o) (hv : v ∈ t.parameters) (known : v.index < w.vars.size) :
    (w.var v).requiresGrad = true := by
  obtain ⟨-, there⟩ := h.tracked v (h.tracks v hv)
  rw [h.sound.gradient_isSome known] at there
  exact h.sound.asks known there

/-- Where a model was used, and may be used again, nothing but zeros can be sent to the biases of
keys. Their own gradients may be left from elsewhere; those of all else are as they should be. -/
structure Spares (w : Workspace EReal) (c : ContextId) (t : Transformer EReal VariableId)
    (causal : Bool) (o : OptimizerId) (like : VariableId → NDArray EReal → Prop) : Prop where
  carried : w.CarriesReals t causal
  trains : w.Trains c t o
  flows : w.Flows c like
  biases : ∀ v ∈ t.keyBiases, ∀ g, like v g ↔ ∀ i, g.get i = 0
  others : ∀ v ∈ t.others, ∀ g, g.AllReal → like v g
  gradient : ∀ v ∉ t.keyBiases, ∀ g, w.gradient? v = some g → like v g

theorem CarriesReals.spares (h : w.CarriesReals t causal) (trains : w.Trains c t o)
    (unused : ∀ r ∈ w.tape c, ∀ v ∈ t.keyBiases, v ∉ r.operation.operands) :
    w.Spares c t causal o (Idle t) where
  carried := h
  trains := trains
  flows :=
    { sound := trains.sound
      additive := additive_idle t
      passes := fun r hr g _ _ p hp bias => by
        have operand := ((trains.sound.tape r hr).targets g).mem_iff.1
          (List.mem_map_of_mem (f := Prod.fst) hp)
        exact absurd operand (unused r hr p.1 bias) }
  biases v hv g := ⟨fun zero => zero hv, fun zero _ => zero⟩
  others v hv _ _ bias := absurd bias (h.not_mem_keyBiases hv)
  gradient v hv _ _ bias := absurd bias hv

section Spares

variable {like : VariableId → NDArray EReal → Prop}

theorem Spares.supports (h : w.Spares c t causal o like) :
    (Flowing.reading c).SupportsModel ⟨w, like, h.flows⟩ w.valueOf t := by
  have takes {P : NDArray EReal → Prop} {u : VariableId} (hu : u ∈ t.parameters)
      (sends : ∀ g, P g → like u g) :
      Flowing.Takes ⟨w, like, h.flows⟩ u (w.valueOf u) P :=
    { held := h.carried.held u hu
      asks := h.trains.asks hu (h.carried.held u hu).known
      takes := sends }
  refine Flowing.supports_transformer h.carried.regular h.carried.fits (fun u hu => ?_)
    fun u hu => ?_
  · have parameter := Transformer.mem_parameters_of_other hu
    exact ⟨h.carried.real u parameter, takes parameter (h.others u hu)⟩
  · have parameter := Transformer.mem_parameters_of_keyBias hu
    exact ⟨h.carried.real u parameter, takes parameter fun g => (h.biases u hu g).2⟩

theorem Spares.later (h : w.Spares c t causal o like) {s : Flowing c}
    (later : Flowing.Later ⟨w, like, h.flows⟩ s) : s.space.Spares c t causal o s.like := by
  have known {u : VariableId} (hu : u ∈ t.parameters) : u.index < w.vars.size :=
    (h.carried.held u hu).known
  exact
    { carried := h.carried.continue later.continues
      trains := h.trains.extend later.continues.grown later.optimizers s.flows.sound
        fun v old there => by rwa [later.gradient_old old]
      flows := s.flows
      biases := fun v hv g => by
        rw [later.like v (known (Transformer.mem_parameters_of_keyBias hv))]
        exact h.biases v hv g
      others := fun v hv g real => by
        rw [later.like v (known (Transformer.mem_parameters_of_other hv))]
        exact h.others v hv g real
      gradient := fun v hv g hg => later.like_gradient hg (h.gradient v hv g) }

theorem Spares.frame (h : w.Spares c t causal o like) (frame : w.Frame w') (sound : w'.Sound c)
    (keeps : ∀ v, (w.gradient? v).isSome = true → (w'.gradient? v).isSome = true)
    (gradients : ∀ v ∉ t.keyBiases, ∀ g, w'.gradient? v = some g → like v g) :
    w'.Spares c t causal o like where
  carried := h.carried.continue frame.continues
  trains := h.trains.extend frame.grown frame.optimizers sound fun v _ => keeps v
  flows :=
    { sound := sound
      additive := h.flows.additive
      passes := by
        rw [frame.tape]
        exact fun r hr => frame.passes (h.flows.passes r hr) }
  biases := h.biases
  others := h.others
  gradient := gradients

theorem Spares.zeroed (h : w.Spares c t causal o like) :
    ∃ w', Session.outcome (Session.zeroGrads o) w = (.ok (), w') ∧ w.Frame w' ∧
      w'.Spares c t causal o like ∧ ∀ v g, w'.gradient? v = some g → like v g := by
  obtain ⟨w', run, sound, frame, gradients⟩ := outcome_zeroAll h.trains.sound h.trains.tracked
  have all : ∀ v g, w'.gradient? v = some g → like v g := by
    intro v g hg
    rw [gradients] at hg
    split at hg
    · obtain rfl := Option.some.inj hg
      exact (h.flows.additive v).zeros _
    · next untracked =>
      refine h.gradient v (fun bias => untracked ?_) g hg
      exact h.trains.tracks v (Transformer.mem_parameters_of_keyBias bias)
  refine ⟨w', run, frame, h.frame frame sound (fun v there => ?_) fun v _ => all v, all⟩
  rw [gradients]
  split
  · rfl
  · exact there

theorem Spares.lost (h : w.Spares c t causal o like)
    (gradients : ∀ v g, w.gradient? v = some g → like v g) {tokens targets : List ℤ}
    (takes : t.config.Takes tokens) (length : targets.length = tokens.length)
    (inside : ∀ i ∈ targets, 0 ≤ i ∧ i < t.config.vocabSize) :
    ∃ l s y, Session.outcome (Session.loss t tokens targets) w = (.ok l, s.space) ∧
      Flowing.Later ⟨w, like, h.flows⟩ s ∧ (∀ v g, s.space.gradient? v = some g → s.like v g) ∧
      s.Takes l y NDArray.AllReal ∧ (s.space.var l).grad.isSome = true := by
  obtain ⟨v, s₁, passed, later, stands⟩ :=
    Reading.computes_logits h.supports h.carried.fits takes
  have shape := Session.shape_carried h.carried.toCarries takes
  rw [← length] at shape
  obtain ⟨l, s₂, y, lost, later', ones, asked⟩ := s₁.takes_loss stands shape fun i hi => by
    obtain ⟨above, below⟩ := inside i hi
    omega
  have later : Flowing.Later ⟨w, like, h.flows⟩ s₂ := Flowing.Later.trans later later'
  exact ⟨l, s₂, y, (Session.outcome_bind_ok passed _).trans lost, later,
    fun u g hg => later.like_gradient hg (gradients u g), ones, asked⟩

end Spares

end Workspace

namespace Session

variable {w : Workspace EReal} {c : ContextId} {t : Transformer EReal VariableId} {causal : Bool}
  {o : OptimizerId}

theorem logits_shift (h : w.CarriesReals t causal) {b : TransformerBlock EReal VariableId}
    (hb : b ∈ t.blocks) {x : NDArray EReal} (real : x.AllReal) :
    ∃ w', outcome (shift b.attention.key.bias x) w = (.ok (), w') ∧
      ∀ tokens, t.config.Takes tokens →
        ∃ y, Computes w (logits t tokens) y ∧ Computes w' (logits t tokens) y := by
  have bias := Transformer.mem_keyBiases hb
  have parameter := Transformer.mem_parameters_of_keyBias bias
  have held := h.held _ parameter
  obtain ⟨accepts, run⟩ := outcome_shift held x
  have carried := h.refill (Workspace.filled_fill held.made _)
    (List.forall_mem_singleton.2 accepts)
  refine ⟨_, run, fun tokens takes => ⟨_, computes_carried h.toCarries takes, ?_⟩⟩
  rw [← h.value_key_bias bias accepts ((h.real _ parameter).add real)]
  exact computes_carried carried takes

/-- The pass back from a loss, with gradients that were set to zero before. -/
def sweepBack [Scalar α] (t : Transformer α VariableId) (o : OptimizerId)
    (tokens targets : List ℤ) : Session α Unit := do
  zeroGrads o
  let l ← loss t tokens targets
  backward (some l)

/-- It sends nothing but zeros to the biases of keys, and so it is when it is done again. -/
theorem spares_sweepBack {like : VariableId → NDArray EReal → Prop}
    (h : w.Spares c t causal o like) {tokens targets : List ℤ} (takes : t.config.Takes tokens)
    (length : targets.length = tokens.length)
    (inside : ∀ i ∈ targets, 0 ≤ i ∧ i < t.config.vocabSize) :
    ∃ w' like', outcome (sweepBack t o tokens targets) w = (.ok (), w') ∧ w.Continues w' ∧
      w'.Spares c t causal o like' ∧
      ∀ v ∈ t.keyBiases, w'.gradient? v = some (.fill (w.shapeOf v) 0) := by
  obtain ⟨w₁, zeroed, frame, spares, gradients⟩ := h.zeroed
  obtain ⟨l, s, y, lost, later, gradients', ones, asked⟩ :=
    spares.lost gradients takes length inside
  obtain ⟨w₂, swept, frame', flows, gradients'', keeps⟩ :=
    flows_backward s.flows gradients' ones.held.alive asked (ones.takes _ (.fill _ .one))
  have spares' := (spares.later later).frame frame' flows.sound keeps fun v _ => gradients'' v
  have continues := (frame.continues.trans later.continues).trans frame'.continues
  refine ⟨w₂, s.like, ?_, continues, spares', fun v hv => ?_⟩
  · rw [sweepBack, outcome_bind_ok zeroed, outcome_bind_ok lost, swept]
  · have parameter := Transformer.mem_parameters_of_keyBias hv
    have held := (h.carried.held v parameter).continue continues
    obtain ⟨-, there⟩ := spares'.trains.tracked v (spares'.trains.tracks v parameter)
    obtain ⟨g, hg⟩ := Option.isSome_iff_exists.1 there
    have zero := (spares'.biases v hv g).1 (gradients'' v g hg)
    have shape := flows.sound.gradient_shape held.known hg
    rw [← held.shape, (h.carried.held v parameter).shape] at shape
    rw [hg]
    refine congrArg some (NDArray.ext_get shape fun i _ => ?_)
    rw [zero, NDArray.additive_zero.zeros]

/-- What a model was used for earlier: for its logits, or for a pass back from a loss. -/
inductive Pass
  | forward (tokens : List ℤ)
  | back (tokens targets : List ℤ)

namespace Pass

def Fits (config : TransformerConfig) : Pass → Prop
  | forward tokens => config.Takes tokens
  | back tokens targets => config.Takes tokens ∧ targets.length = tokens.length ∧
    ∀ i ∈ targets, 0 ≤ i ∧ i < config.vocabSize

def run [Scalar α] (t : Transformer α VariableId) (o : OptimizerId) : Pass → Session α Unit
  | forward tokens => discard (logits t tokens)
  | back tokens targets => sweepBack t o tokens targets

end Pass

theorem spares_pass {like : VariableId → NDArray EReal → Prop} (h : w.Spares c t causal o like)
    {p : Pass} (fits : p.Fits t.config) :
    ∃ w' like', outcome (p.run t o) w = (.ok (), w') ∧ w.Continues w' ∧
      w'.Spares c t causal o like' := by
  cases p with
  | forward tokens =>
    obtain ⟨v, s, passed, later, -⟩ := Reading.computes_logits h.supports h.carried.fits fits
    exact ⟨s.space, s.like, outcome_bind_ok passed _, later.continues, h.later later⟩
  | back tokens targets =>
    obtain ⟨takes, length, inside⟩ := fits
    obtain ⟨w', like', run, continues, spares, -⟩ := spares_sweepBack h takes length inside
    exact ⟨w', like', run, continues, spares⟩

theorem spares_passes {ps : List Pass} : ∀ {w : Workspace EReal}
    {like : VariableId → NDArray EReal → Prop}, w.Spares c t causal o like →
      (∀ p ∈ ps, p.Fits t.config) →
        ∃ w' like', outcome (ps.forM (Pass.run t o)) w = (.ok (), w') ∧ w.Continues w' ∧
          w'.Spares c t causal o like' := by
  induction ps with
  | nil => exact fun {w like} h _ => ⟨w, like, rfl, .refl w, h⟩
  | cons p ps ih =>
    intro w like h fits
    obtain ⟨first, rest⟩ := List.forall_mem_cons.1 fits
    obtain ⟨w₁, like₁, run, continues, spares⟩ := spares_pass h first
    obtain ⟨w₂, like₂, runs, continues', spares'⟩ := ih spares rest
    exact ⟨w₂, like₂, (outcome_bind_ok run _).trans runs, continues.trans continues', spares'⟩

/-- In a model of real numbers, what is added to the bias of the keys of a block makes no difference
to the logits; and after a pass back from the loss, with gradients that were set to zero before, all
these biases have a gradient of zeros. Records of earlier passes of the model may be on the tape. -/
theorem key_biases_idle (h : w.CarriesReals t causal) :
    (∀ b ∈ t.blocks, ∀ x : NDArray EReal, x.AllReal →
      ∃ w', outcome (shift b.attention.key.bias x) w = (.ok (), w') ∧
        ∀ tokens, t.config.Takes tokens →
          ∃ y, Computes w (logits t tokens) y ∧ Computes w' (logits t tokens) y) ∧
    ∀ c o, w.Trains c t o → (∀ r ∈ w.tape c, ∀ v ∈ t.keyBiases, v ∉ r.operation.operands) →
      ∀ earlier : List Pass, (∀ p ∈ earlier, p.Fits t.config) →
        ∀ tokens targets, t.config.Takes tokens → targets.length = tokens.length →
          (∀ i ∈ targets, 0 ≤ i ∧ i < t.config.vocabSize) →
            ∃ w', outcome (do
                earlier.forM (Pass.run t o)
                zeroGrads o
                let l ← loss t tokens targets
                backward (some l)) w = (.ok (), w') ∧
              ∀ b ∈ t.blocks, w'.gradient? b.attention.key.bias =
                some (.fill (w.shapeOf b.attention.key.bias) 0) := by
  refine ⟨fun b hb x => logits_shift h hb,
    fun c o trains unused earlier fits tokens targets takes length inside => ?_⟩
  obtain ⟨w₁, like, ran, continues, spares⟩ := spares_passes (h.spares trains unused) fits
  obtain ⟨w₂, -, swept, -, -, zeros⟩ := spares_sweepBack spares takes length inside
  refine ⟨w₂, (outcome_bind_ok ran _).trans swept, fun b hb => ?_⟩
  have bias := Transformer.mem_keyBiases hb
  have held := h.held _ (Transformer.mem_parameters_of_keyBias bias)
  rw [zeros _ bias, continues.grown.shapeOf held.known held.made]

theorem key_biases_idle_pair : ∃ (t : Transformer EReal VariableId) (w₀ w w₁ w₂ : Workspace EReal)
    (o : OptimizerId) (b : TransformerBlock EReal VariableId) (y : NDArray EReal),
    outcome (buildTransformer pairConfig true)
      (.ofContext (.ofArena (.ofChunkSize 64) 10) fun _ => 0) = (.ok t, w₀) ∧
    outcome (newOptimizer t.parameters (.adam 0.9 0.999 1e-8) 1e-3) w₀ = (.ok o, w) ∧
    b ∈ t.blocks ∧
    outcome (shift b.attention.key.bias (.fill [1] 1)) w = (.ok (), w₁) ∧
    Computes w (logits t [0, 1]) y ∧ Computes w₁ (logits t [0, 1]) y ∧
    outcome (do
      [Pass.forward [1], .back [1, 1] [0, 1]].forM (Pass.run t o)
      zeroGrads o
      let l ← loss t [0, 1] [1, 0]
      backward (some l)) w = (.ok (), w₂) ∧
    w₂.gradient? b.attention.key.bias = some (.fill (w.shapeOf b.attention.key.bias) 0) := by
  have buildable : pairConfig.Buildable := by constructor <;> decide
  obtain ⟨t, w₀, o, w, built, made, config, carried, trains, empty⟩ :=
    trains_buildTransformer buildable true (.ofChunkSize 64) 10 (fun _ => 0) 0.9
      0.999 1e-8 1e-3
  have layers : t.blocks.length = 1 := by
    rw [carried.layers, config]
    rfl
  obtain ⟨b, blocks⟩ := List.length_eq_one_iff.1 layers
  have hb : b ∈ t.blocks := blocks ▸ List.mem_singleton_self b
  have takes : t.config.Takes [0, 1] := by
    rw [config]
    constructor <;> decide
  have targets : ∀ i ∈ [1, 0], (0 : ℤ) ≤ i ∧ i < t.config.vocabSize := by
    rw [config]
    decide
  have unused : ∀ r ∈ w.tape ⟨0⟩, ∀ v ∈ t.keyBiases, v ∉ r.operation.operands := by
    rw [empty]
    exact List.forall_mem_nil _
  have fits : ∀ p ∈ [Pass.forward [1], .back [1, 1] [0, 1]], p.Fits t.config := by
    rw [config]
    refine List.forall_mem_cons.2 ⟨?_, List.forall_mem_singleton.2 ⟨?_, rfl, by decide⟩⟩ <;>
      constructor <;> decide
  obtain ⟨shifts, zeros⟩ := key_biases_idle carried
  obtain ⟨w₁, shifted, same⟩ := shifts b hb (.fill [1] 1) (.fill _ .one)
  obtain ⟨y, before, after⟩ := same [0, 1] takes
  obtain ⟨w₂, swept, gradients⟩ := zeros ⟨0⟩ o trains unused _ fits [0, 1] [1, 0] takes rfl
    targets
  exact ⟨t, w₀, w, w₁, w₂, o, b, y, built, made, hb, shifted, before, after, swept,
    gradients b hb⟩

end Session

end DerivativeEngine
