import DerivativeEngine.Proofs.Training.Logits

/-! What a loaded model computes. A file holds the sizes and the parameters of a model and nothing
else, so a model that is loaded into no other is one without a mask: it computes what the saved one
computes once its mask is taken off, and the same only if there was none. -/

namespace DerivativeEngine

variable {α : Type} [Scalar α]

namespace Workspace

variable {w w' : Workspace α} {t t' : Transformer α VariableId} {causal : Bool}

theorem Carries.holds (h : w.Carries t causal) : w.Holds t where
  planned := by
    obtain ⟨p, plan, shapes⟩ := h.planned
    refine ⟨causal, p, plan, ?_⟩
    rw [← Transformer.parameters_map, shapes, Transformer.parameters_map]
  filled v hv := ⟨(h.held v hv).alive, _, (h.held v hv).value, (h.held v hv).shape⟩
  separate := ⟨fun v hv => (h.held v hv).made, h.distinct⟩

theorem Carries.optimizers (h : w.Carries t causal) (os : Array (Optimizer α)) :
    Carries { w with optimizers := os } t causal :=
  ⟨h.planned, fun v hv =>
    have held := h.held v hv
    ⟨held.known, held.made, held.alive, held.value, held.shape⟩, h.distinct⟩

theorem Carries.unmasked (h : w.Carries t causal) : w.Carries t.unmasked false where
  planned := by
    obtain ⟨p, plan, shapes⟩ := h.planned
    refine ⟨p.unmasked, Transformer.plan_unmasked plan, ?_⟩
    rw [← Transformer.unmasked_map, shapes, Transformer.unmasked_map]
  held v hv := by
    rw [Transformer.parameters_unmasked] at hv
    exact h.held v hv
  distinct := by
    rw [Transformer.parameters_unmasked]
    exact h.distinct

theorem Carries.unmasked_eq (h : w.Carries t false) : t.unmasked = t := by
  obtain ⟨p, plan, -⟩ := h.planned
  refine Transformer.eq_of_frame ?_ (Transformer.parameters_unmasked t)
  rw [h.unmasked.frame plan, h.frame plan]

theorem Carries.map_eq (h : w.Carries t false) (h' : w'.Carries t' false)
    (config : t'.config = t.config) (arrays : w'.arrays t' = w.arrays t) :
    t'.map w'.valueOf = t.map w.valueOf := by
  obtain ⟨p, plan, -⟩ := h.planned
  refine Transformer.eq_of_frame ?_ ?_
  · rw [Transformer.frame_map, Transformer.frame_map, h.frame plan]
    rw [← config] at plan
    exact h'.frame plan
  · rw [Transformer.parameters_map, Transformer.parameters_map]
    exact arrays

end Workspace

namespace Session

variable {w : Workspace α} {t : Transformer α VariableId} {causal : Bool}

section Files

variable [WordCoded α]

theorem carries_loadModel (carried : w.Carries t causal) {bytes : List UInt8}
    (written : ModelFile.model t.config (w.arrays t) = .ofBytes bytes) (w₁ : Workspace α) :
    ∃ t' w₂, outcome (loadModel bytes none) w₁ = (.ok t', w₂) ∧ t'.config = t.config ∧
      w₂.Carries t' false ∧ w₂.arrays t' = w.arrays t := by
  obtain ⟨p, plan, -⟩ := carried.planned
  obtain ⟨t', w₂, built, -⟩ := outcome_buildTransformer (Transformer.plan_unmasked plan) w₁
  obtain ⟨config, carried'⟩ := carries_buildTransformer built
  have shapes : (w.arrays t).map NDArray.shape = t'.parameters.map w₂.shapeOf := by
    rw [carried.holds.map_shape, carried.holds.same_shapes carried'.holds config]
  obtain ⟨w₃, set, -⟩ := outcome_setArrays carried'.holds shapes
  have length : (w.arrays t).length = t'.parameters.length := by
    simpa using congrArg List.length shapes
  obtain ⟨accepts, filled⟩ := filled_of_setAll (carried'.holds.separate.zip length) set
  have carried₃ := carried'.refill filled accepts
  have arrays := filled.arrays accepts length
  have loaded : LoadsModel w₁ bytes none t' [] w₃ := .of_unread <|
    outcome_loadModelRest_eq_ok.2
      ⟨t.config, _, w₂, built, shapes, set, bytes, written, (List.append_nil bytes).symm⟩
  exact ⟨t', w₃, loaded.loaded, config, carried₃, arrays⟩

/-- A model that is saved, and loaded anywhere, computes for every sequence it takes the logits of
the saved one without its mask; those of the saved one itself, if that was built without. -/
theorem logits_loaded (carried : w.Carries t causal) (fits : w.FitsFile t) :
    ∃ bytes, outcome (saveModel t) w = (.ok (.ofBytes bytes), w) ∧
      (causal = false → t.unmasked = t) ∧
      ∀ w₁, ∃ t' w₂, outcome (loadModel bytes none) w₁ = (.ok t', w₂) ∧ t'.config = t.config ∧
        ∀ tokens, t.config.Takes tokens → ∃ x, Computes w (logits t.unmasked tokens) x ∧
          Computes w₂ (logits t' tokens) x := by
  obtain ⟨bytes, written, -⟩ := exists_saved carried.holds fits
  refine ⟨bytes, ?_, ?_, fun w₁ => ?_⟩
  · rw [outcome_saveModel carried.holds.readable, written]
  · rintro rfl
    exact carried.unmasked_eq
  obtain ⟨t', w₂, loaded, config, carried', arrays⟩ := carries_loadModel carried written w₁
  refine ⟨t', w₂, loaded, config, fun tokens takes =>
    ⟨_, computes_carried carried.unmasked takes, ?_⟩⟩
  have arrays' : w₂.arrays t' = w.arrays t.unmasked := by
    rw [arrays, Workspace.arrays, Workspace.arrays, Transformer.parameters_unmasked]
  rw [← carried.unmasked.map_eq carried' config arrays']
  rw [← config] at takes
  exact computes_carried carried' takes

end Files

deriving instance DecidableEq for Linear, Embedding, LayerNorm, FeedForward, MultiHeadAttention,
  TransformerBlock, Transformer

def maskedArrays : List (NDArray StoredDouble) :=
  let array (s : Shape) (xs : List Float) : NDArray StoredDouble :=
    .ofFn s fun i => .ofFloat (xs.getD i 0)
  let one : NDArray StoredDouble := array [2, 2] [1, 0, 0, 1]
  let zeros : List (NDArray StoredDouble) := [.fill [2, 2] 0, .fill [2] 0]
  let norm : List (NDArray StoredDouble) := [.fill [2] 1, .fill [2] 0]
  [array [2, 2] [1, 0, 0, 3], .fill [2, 2] 0] ++ norm ++ norm ++ zeros ++ zeros ++
    [array [2, 2] [-2, 0, 0, -2], .fill [2] 0, one, .fill [2] 0, .fill [1, 2] 0, .fill [1] 0,
      .fill [2, 1] 0, .fill [2] 0] ++ norm ++ [one, .fill [2] 0]

def maskedModel : Transformer StoredDouble VariableId :=
  let linear (n : Nat) : Linear VariableId := ⟨⟨n⟩, ⟨n + 1⟩⟩
  let norm (n : Nat) : LayerNorm StoredDouble VariableId := ⟨LayerNorm.defaultEps, ⟨n⟩, ⟨n + 1⟩⟩
  let root : StoredDouble := Scalar.sqrt (Scalar.ofInt 2)
  ⟨⟨2, 2, 1, 1, 1, 2⟩, ⟨⟨0⟩⟩, ⟨⟨1⟩⟩,
    [⟨norm 2, ⟨2, 1, 2, 1 / root, true, linear 6, linear 8, linear 10, linear 12⟩, norm 4,
      ⟨linear 14, linear 16⟩⟩], norm 18, linear 20⟩

def maskedWorkspace : Workspace StoredDouble :=
  { Workspace.empty (fun _ => 0) with
    tensors := (maskedArrays.map fun x => ⟨x.shape, some x, none⟩).toArray
    vars := (maskedModel.parameters.map fun v => ⟨⟨v.index⟩, none, true, true, ""⟩).toArray }

theorem carries_maskedModel : maskedWorkspace.Carries maskedModel true where
  planned := by
    have shapes : (Transformer.plan (α := StoredDouble) maskedModel.config true).map
        (fun p => p.map Slot.shape) = .ok (maskedModel.map maskedWorkspace.shapeOf) := by
      decide +kernel
    cases plan : Transformer.plan (α := StoredDouble) maskedModel.config true with
    | error e =>
      rw [plan] at shapes
      cases shapes
    | ok p =>
      rw [plan] at shapes
      exact ⟨p, rfl, (Except.ok.inj shapes).symm⟩
  held := by
    have each : ∀ v ∈ maskedModel.parameters, v.index < maskedWorkspace.vars.size ∧
        (maskedWorkspace.var v).data.index < maskedWorkspace.tensors.size ∧
        (maskedWorkspace.tensor (maskedWorkspace.var v).data).place.isNone = true ∧
        (maskedWorkspace.tensor (maskedWorkspace.var v).data).value =
          some (maskedWorkspace.valueOf v) ∧
        (maskedWorkspace.valueOf v).shape = maskedWorkspace.shapeOf v := by
      decide +kernel
    intro v hv
    obtain ⟨known, made, persistent, value, shape⟩ := each v hv
    refine ⟨known, made, fun p hp => ?_, value, shape⟩
    rw [Option.isNone_iff_eq_none.1 persistent] at hp
    cases hp
  distinct := by decide +kernel

theorem fitsFile_maskedModel : maskedWorkspace.FitsFile maskedModel :=
  ⟨by decide, by decide +kernel, by decide +kernel⟩

theorem logits_loaded_unmasked : maskedWorkspace.Carries maskedModel.unmasked false ∧
    maskedWorkspace.FitsFile maskedModel.unmasked ∧
    ∃ (bytes : List UInt8) (t : Transformer StoredDouble VariableId) (w : Workspace StoredDouble)
      (x : NDArray StoredDouble),
      outcome (saveModel maskedModel.unmasked) maskedWorkspace =
        (.ok (.ofBytes bytes), maskedWorkspace) ∧
      outcome (loadModel bytes none) (.empty fun _ => 0) = (.ok t, w) ∧
      Computes maskedWorkspace (logits maskedModel.unmasked [0, 1]) x ∧
      Computes w (logits t [0, 1]) x := by
  have fits : maskedWorkspace.FitsFile maskedModel.unmasked := by
    refine ⟨fitsFile_maskedModel.fields, ?_, ?_⟩
    · rw [Transformer.parameters_unmasked]
      exact fitsFile_maskedModel.count
    · rw [Transformer.parameters_unmasked]
      exact fitsFile_maskedModel.sizes
  obtain ⟨bytes, saved, same, loads⟩ := logits_loaded carries_maskedModel.unmasked fits
  obtain ⟨t, w, loaded, -, computes⟩ := loads (.empty fun _ => 0)
  obtain ⟨x, computed, computed'⟩ := computes [0, 1] (by constructor <;> decide)
  rw [same rfl] at computed
  exact ⟨carries_maskedModel.unmasked, fits, bytes, t, w, x, saved, loaded, computed, computed'⟩

/-- The first token of two, which sees itself in the saved model, and both in the loaded one: what
was on one side of zero is on the other. -/
theorem logits_loaded_masked : maskedWorkspace.Carries maskedModel true ∧
    maskedWorkspace.FitsFile maskedModel ∧ maskedModel.config.Takes [0, 1] ∧
    ∃ (bytes : List UInt8) (t : Transformer StoredDouble VariableId) (w : Workspace StoredDouble)
      (x x' : NDArray StoredDouble),
      outcome (saveModel maskedModel) maskedWorkspace = (.ok (.ofBytes bytes), maskedWorkspace) ∧
      outcome (loadModel bytes none) (.empty fun _ => 0) = (.ok t, w) ∧
      Computes maskedWorkspace (logits maskedModel [0, 1]) x ∧ Computes w (logits t [0, 1]) x' ∧
      x.get 0 < 0 ∧ 0 < x'.get 0 := by
  have takes : maskedModel.config.Takes [0, 1] := by constructor <;> decide
  obtain ⟨bytes, written, -⟩ := exists_saved carries_maskedModel.holds fitsFile_maskedModel
  obtain ⟨t, w, loaded, config, carried, arrays⟩ :=
    carries_loadModel carries_maskedModel written (.empty fun _ => 0)
  have arrays' : w.arrays t = maskedWorkspace.arrays maskedModel.unmasked := by
    rw [arrays, Workspace.arrays, Workspace.arrays, Transformer.parameters_unmasked]
  have function := carries_maskedModel.unmasked.map_eq carried config arrays'
  have takes' : t.config.Takes [0, 1] := config ▸ takes
  refine ⟨carries_maskedModel, fitsFile_maskedModel, takes, bytes, t, w, _, _, ?_, loaded,
    computes_carried carries_maskedModel takes, computes_carried carried takes', ?_⟩
  · rw [outcome_saveModel carries_maskedModel.holds.readable, written]
  · rw [function]
    decide +kernel

end Session

end DerivativeEngine
