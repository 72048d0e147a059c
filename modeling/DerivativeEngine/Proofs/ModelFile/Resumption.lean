import DerivativeEngine.Proofs.Training.Lockstep

/-! Training that goes on from a checkpoint. A checkpoint holds the parameters, both moments of
each, the number of steps and the learning rate, but not how fast the moments fade, nor what keeps a
step from dividing by zero: there the loaded optimizer has the usual values. So the loaded pair goes
on as the saved pair would with these, step by step, and as the saved pair itself if it had them. -/

namespace DerivativeEngine

variable {α : Type} [Scalar α]

def Adam.usual (a : Adam α) : Adam α :=
  { a with beta₁ := defaultBeta₁, beta₂ := defaultBeta₂, eps := defaultEps }

namespace Session

variable {w w' : Workspace α} {t : Transformer α VariableId} {causal : Bool} {o : OptimizerId}
  {shapes : List Shape} {rate : α} {a : Adam α}

theorem modifyOptimizer_usual (found : w.optimizer o = ⟨t.parameters, rate, .adam a⟩)
    (usual : a.usual = a) : w.modifyOptimizer o (Optimizer.mapAdam Adam.usual) = w := by
  have same : w.optimizers.modify o.index (Optimizer.mapAdam Adam.usual) = w.optimizers := by
    apply Array.ext
    · simp
    · intro i hi hi'
      rw [Array.getElem_modify]
      split
      · next here =>
        subst here
        have there : w.optimizers[o.index] = ⟨t.parameters, rate, .adam a⟩ := by
          rw [← found, Workspace.optimizer, Array.getD_eq_getD_getElem?,
            Array.getElem?_eq_getElem hi']
          rfl
        rw [there, Optimizer.mapAdam]
        exact congrArg (fun b => (⟨t.parameters, rate, .adam b⟩ : Optimizer α)) usual
      · rfl
  rw [Workspace.modifyOptimizer, same]

section Checkpoints

variable [WordCoded α]

theorem of_loadCheckpoint {bytes : List UInt8} {k : Checkpoint α}
    (run : outcome (loadCheckpoint bytes) w = (.ok k, w')) :
    w'.Carries k.model false ∧ ∃ a : Adam α,
      w'.optimizer k.optimizer = ⟨k.model.parameters, k.state.rate, .adam a⟩ ∧ a.usual = a := by
  unfold loadCheckpoint at run
  -- What is read before the model is built leaves the workspace as it was.
  obtain ⟨⟨⟨⟩, r₁⟩, _, header, run⟩ := outcome_bind_eq_ok.1 run
  obtain ⟨-, rfl⟩ := outcome_ofFormat_eq_ok.1 header
  obtain ⟨⟨s, r₂⟩, _, training, run⟩ := outcome_bind_eq_ok.1 run
  obtain ⟨-, rfl⟩ := outcome_ofFormat_eq_ok.1 training
  obtain ⟨⟨c, r₃⟩, _, config, run⟩ := outcome_bind_eq_ok.1 run
  obtain ⟨-, rfl⟩ := outcome_ofFormat_eq_ok.1 config
  obtain ⟨t, w₁, built, run⟩ := outcome_bind_eq_ok.1 run
  obtain ⟨-, carried⟩ := carries_buildTransformer built
  obtain ⟨-, holds, asked⟩ := holds_buildTransformer built
  obtain ⟨o, w₂, made, run⟩ := outcome_bind_eq_ok.1 run
  obtain ⟨o', w₂', made', carried₂, learns⟩ := learns_newOptimizer carried asked
    Adam.defaultBeta₁ Adam.defaultBeta₂ Adam.defaultEps s.rate
  obtain ⟨⟨⟩, ⟨⟩⟩ := made.symm.trans made'
  obtain ⟨es, _, expected, run⟩ := outcome_bind_eq_ok.1 run
  obtain ⟨⟨⟩, rfl⟩ := Prod.mk.inj ((outcome_expected _).symm.trans expected)
  obtain ⟨⟨xs, r₄⟩, _, adapted, run⟩ := outcome_bind_eq_ok.1 run
  obtain ⟨read, rfl⟩ := outcome_ofFormat_eq_ok.1 adapted
  -- Filling needs an array for every parameter; the reader gave as many as it was told to expect.
  obtain ⟨⟨⟩, w₃, set, run⟩ := outcome_bind_eq_ok.1 run
  have length : xs.length = t.parameters.length := by
    obtain ⟨shaped, -⟩ := (Reader.inverts_adaptedAll _ r₃ xs r₄).1 read
    simpa using shaped.length_eq
  rw [setAll_adapted] at set
  obtain ⟨accepts, filled⟩ := filled_of_setAll
    (carried₂.holds.separate.zip (by simpa using length)) set
  obtain ⟨⟨⟩, w₄, resumes, run⟩ := outcome_bind_eq_ok.1 run
  obtain ⟨-, rfl⟩ := Prod.mk.inj resumes
  obtain ⟨⟨⟩, ⟨⟩⟩ := run
  have known : o.index < w₃.optimizers.size := by
    rw [filled.rest]
    exact learns.known
  have found : w₃.optimizer o = ⟨t.parameters, s.rate, .adam (.start Adam.defaultBeta₁
      Adam.defaultBeta₂ Adam.defaultEps (t.parameters.map w₁.shapeOf))⟩ := by
    rw [filled.rest]
    exact learns.found
  refine ⟨(carried₂.refill filled accepts).optimizers _, _,
    (w₃.optimizer_modifyOptimizer known _).trans (congrArg _ found), rfl⟩

theorem learns_loadCheckpoint (carried : w.Carries t causal) (fits : w.FitsFile t)
    (learns : w.Learns o t.parameters shapes rate a)
    (steps : LittleEndian.fitsInt32 a.steps = true) (loss : α) :
    ∃ bytes, outcome (saveCheckpoint t o a.steps loss) w = (.ok (.ofBytes bytes), w) ∧
      ∀ w₁, ∃ k w₂, outcome (loadCheckpoint bytes) w₁ = (.ok k, w₂) ∧
        k.model.config = t.config ∧ w₂.arrays k.model = w.arrays t ∧
        w₂.Learns k.optimizer k.model.parameters shapes rate a.usual := by
  obtain ⟨bytes, saved, -, loads⟩ :=
    loads_savedCheckpoint carried.holds fits learns.tracks steps loss
  refine ⟨bytes, saved, fun w₁ => ?_⟩
  obtain ⟨k, w₂, loaded, config, holds, arrays, -, b, found, steps', first, second⟩ := loads w₁ []
  rw [List.append_nil] at loaded
  obtain ⟨carried₂, b', found', usual⟩ := of_loadCheckpoint loaded.loaded
  have same := found.symm.trans found'
  obtain rfl : b = b' := UpdateRule.adam.inj (Optimizer.mk.inj same).2.2
  have resumed : b = a.usual := by
    rw [← usual, Adam.usual, Adam.usual, steps', first, second]
  refine ⟨k, w₂, loaded.loaded, config, arrays, ?_⟩
  exact
    { found := by rw [found, learns.found, resumed]
      held := carried₂.held
      distinct := carried₂.distinct
      shaped := (carried.holds.same_shapes holds config).trans learns.shaped
      first := learns.first
      second := learns.second }

/-- Whatever gradients follow, training goes on from a checkpoint as it would have gone on with the
usual values, as far as it goes: with the same parameters, moments and number of steps. -/
theorem train_loaded (carried : w.Carries t causal) (fits : w.FitsFile t)
    (learns : w.Learns o t.parameters shapes rate a)
    (steps : LittleEndian.fitsInt32 a.steps = true) (loss : α) :
    ∃ bytes, outcome (saveCheckpoint t o a.steps loss) w = (.ok (.ofBytes bytes), w) ∧
      (a.usual = a → w.modifyOptimizer o (Optimizer.mapAdam Adam.usual) = w) ∧
      ∀ w₁, ∃ k w₂, outcome (loadCheckpoint bytes) w₁ = (.ok k, w₂) ∧
        k.model.config = t.config ∧ ∀ gs, ∃ r w₃ w₄ a',
          outcome (train t.parameters o gs)
            (w.modifyOptimizer o (Optimizer.mapAdam Adam.usual)) = (r, w₃) ∧
          outcome (train k.model.parameters k.optimizer gs) w₂ = (r, w₄) ∧
          w₄.arrays k.model = w₃.arrays t ∧
          w₃.optimizer o = ⟨t.parameters, rate, .adam a'⟩ ∧
          w₄.optimizer k.optimizer = ⟨k.model.parameters, rate, .adam a'⟩ := by
  obtain ⟨bytes, saved, loads⟩ := learns_loadCheckpoint carried fits learns steps loss
  refine ⟨bytes, saved, modifyOptimizer_usual learns.found, fun w₁ => ?_⟩
  obtain ⟨k, w₂, loaded, config, arrays, learns₂⟩ := loads w₁
  have usual : (w.modifyOptimizer o (Optimizer.mapAdam Adam.usual)).Learns o t.parameters
      shapes rate a.usual := learns.mapAdam rfl rfl
  exact ⟨k, w₂, loaded, config, fun gs => train_alike usual learns₂ arrays gs⟩

end Checkpoints

def maskedShapes : List Shape := maskedModel.parameters.map maskedWorkspace.shapeOf

def startState (beta₁ beta₂ eps : StoredDouble) : Adam StoredDouble :=
  .start beta₁ beta₂ eps maskedShapes

def startWorkspace (a : Adam StoredDouble) : Workspace StoredDouble :=
  { maskedWorkspace with optimizers := #[⟨maskedModel.parameters, 0.5, .adam a⟩] }

theorem carries_startWorkspace (a : Adam StoredDouble) :
    (startWorkspace a).Carries maskedModel true :=
  carries_maskedModel.optimizers _

theorem fitsFile_startWorkspace (a : Adam StoredDouble) :
    (startWorkspace a).FitsFile maskedModel :=
  ⟨fitsFile_maskedModel.fields, fitsFile_maskedModel.count, fitsFile_maskedModel.sizes⟩

theorem learns_startWorkspace (beta₁ beta₂ eps : StoredDouble) :
    (startWorkspace (startState beta₁ beta₂ eps)).Learns ⟨0⟩ maskedModel.parameters maskedShapes 0.5
      (startState beta₁ beta₂ eps) where
  found := rfl
  held := (carries_startWorkspace _).held
  distinct := (carries_startWorkspace _).distinct
  shaped := rfl
  first := (Adam.shapes_start beta₁ beta₂ eps _).1
  second := (Adam.shapes_start beta₁ beta₂ eps _).2

def firstOnly (i : Nat) : Option (NDArray StoredDouble) :=
  if i = 0 then some (.fill [2, 2] 1) else none

def usualState : Adam StoredDouble :=
  startState Adam.defaultBeta₁ Adam.defaultBeta₂ Adam.defaultEps

theorem train_loaded_usual : (startWorkspace usualState).Carries maskedModel true ∧
    (startWorkspace usualState).FitsFile maskedModel ∧
    (startWorkspace usualState).Learns ⟨0⟩ maskedModel.parameters maskedShapes 0.5 usualState ∧
    ∃ (bytes : List UInt8) (k : Checkpoint StoredDouble) (w₂ w₃ w₄ : Workspace StoredDouble)
      (r : Except TensorError Unit) (a : Adam StoredDouble),
      outcome (saveCheckpoint maskedModel ⟨0⟩ 0 1) (startWorkspace usualState) =
        (.ok (.ofBytes bytes), startWorkspace usualState) ∧
      outcome (loadCheckpoint bytes) (.empty fun _ => 0) = (.ok k, w₂) ∧
      outcome (train maskedModel.parameters ⟨0⟩ [firstOnly, firstOnly])
        (startWorkspace usualState) = (r, w₃) ∧
      outcome (train k.model.parameters k.optimizer [firstOnly, firstOnly]) w₂ = (r, w₄) ∧
      w₄.arrays k.model = w₃.arrays maskedModel ∧
      (w₃.optimizer ⟨0⟩).adam? = some a ∧ (w₄.optimizer k.optimizer).adam? = some a := by
  have carried := carries_startWorkspace usualState
  have fits := fitsFile_startWorkspace usualState
  have learns : (startWorkspace usualState).Learns ⟨0⟩ maskedModel.parameters maskedShapes 0.5
      usualState :=
    learns_startWorkspace _ _ _
  obtain ⟨bytes, saved, same, loads⟩ := train_loaded carried fits learns rfl 1
  obtain ⟨k, w₂, loaded, -, runs⟩ := loads (.empty fun _ => 0)
  obtain ⟨r, w₃, w₄, a, run, run', arrays, found, found'⟩ := runs [firstOnly, firstOnly]
  rw [same rfl] at run
  refine ⟨carried, fits, learns, bytes, k, w₂, w₃, w₄, r, a, saved, loaded, run, run', arrays,
    ?_, ?_⟩
  · rw [found]
    rfl
  · rw [found']
    rfl

def unusualState : Adam StoredDouble := startState 0.5 0.5 1

def firstStep (w : Workspace StoredDouble) : Except TensorError Unit × Workspace StoredDouble :=
  outcome (train maskedModel.parameters ⟨0⟩ [firstOnly]) w

theorem firstStep_unusual {w w' : Workspace StoredDouble} (this : startWorkspace unusualState = w)
    (other : w.modifyOptimizer ⟨0⟩ (Optimizer.mapAdam Adam.usual) = w') :
    (firstStep w).1.toOption = some () ∧ (firstStep w').1.toOption = some () ∧
      (firstStep w').2.arrays maskedModel ≠ (firstStep w).2.arrays maskedModel ∧
      ((firstStep w').2.optimizer ⟨0⟩).adam?.map Adam.first ≠
        ((firstStep w).2.optimizer ⟨0⟩).adam?.map Adam.first := by
  subst this other
  decide +kernel

/-- With other values, the first step already leads elsewhere. -/
theorem train_loaded_unusual : (startWorkspace unusualState).Carries maskedModel true ∧
    (startWorkspace unusualState).FitsFile maskedModel ∧
    (startWorkspace unusualState).Learns ⟨0⟩ maskedModel.parameters maskedShapes 0.5 unusualState ∧
    ∃ (bytes : List UInt8) (k : Checkpoint StoredDouble) (w₂ w₃ w₄ : Workspace StoredDouble),
      outcome (saveCheckpoint maskedModel ⟨0⟩ 0 1) (startWorkspace unusualState) =
        (.ok (.ofBytes bytes), startWorkspace unusualState) ∧
      outcome (loadCheckpoint bytes) (.empty fun _ => 0) = (.ok k, w₂) ∧
      outcome (train maskedModel.parameters ⟨0⟩ [firstOnly]) (startWorkspace unusualState) =
        (.ok (), w₃) ∧
      outcome (train k.model.parameters k.optimizer [firstOnly]) w₂ = (.ok (), w₄) ∧
      w₄.arrays k.model ≠ w₃.arrays maskedModel ∧
      (w₄.optimizer k.optimizer).adam?.map Adam.first ≠
        (w₃.optimizer ⟨0⟩).adam?.map Adam.first := by
  have carried := carries_startWorkspace unusualState
  have fits := fitsFile_startWorkspace unusualState
  have learns : (startWorkspace unusualState).Learns ⟨0⟩ maskedModel.parameters maskedShapes 0.5
      unusualState :=
    learns_startWorkspace _ _ _
  obtain ⟨bytes, saved, loads⟩ := learns_loadCheckpoint carried fits learns rfl 1
  obtain ⟨k, w₂, loaded, -, arrays, learns₂⟩ := loads (.empty fun _ => 0)
  generalize eq : startWorkspace unusualState = w at *
  have usual := learns.mapAdam (f := Adam.usual) rfl rfl
  generalize eq' : w.modifyOptimizer ⟨0⟩ (Optimizer.mapAdam Adam.usual) = w' at usual
  obtain ⟨ok, ok', elsewhere, moments⟩ := firstStep_unusual eq eq'
  have arrays' : w₂.arrays k.model = w'.arrays maskedModel := by
    rw [arrays, ← eq']
    rfl
  -- The loaded pair goes the way of the saved one with the usual values, which was computed.
  obtain ⟨r, w₁, w₄, a, run, run', same, found, found'⟩ :=
    train_alike usual learns₂ arrays' [firstOnly]
  have other : firstStep w' = (r, w₁) := run
  rcases this : firstStep w with ⟨r', w₃⟩
  rw [this] at ok elsewhere moments
  rw [other] at ok' elsewhere moments
  obtain rfl := eq_ok_of_toOption ok
  obtain rfl := eq_ok_of_toOption ok'
  refine ⟨carried, fits, learns, bytes, k, w₂, w₃, w₄, saved, loaded, this, run', ?_, ?_⟩
  · rw [same]
    exact elsewhere
  · rw [found']
    rw [found] at moments
    exact moments

end Session

end DerivativeEngine
