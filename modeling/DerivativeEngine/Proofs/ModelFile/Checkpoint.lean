import DerivativeEngine.Proofs.ModelFile.Transfer

/-! Checkpoints, and files of both kinds. A checkpoint gives back the model with the state of its
optimizer: both moments of every parameter, the number of steps and the rate, beside the state of
training itself. -/

namespace DerivativeEngine

variable {α : Type} [Scalar α]

namespace Workspace

/-- An Adam optimizer with a pair of moments for each parameter of the model. -/
structure Tracks (w : Workspace α) (o : OptimizerId) (t : Transformer α VariableId) (a : Adam α) :
    Prop where
  rule : (w.optimizer o).rule = .adam a
  tracked : (w.optimizer o).tracked.length = t.parameters.length
  first : a.first.map NDArray.shape = t.parameters.map w.shapeOf
  second : a.second.map NDArray.shape = t.parameters.map w.shapeOf

variable {w w' : Workspace α} {t : Transformer α VariableId}

theorem Holds.optimizers (h : w.Holds t) (os : Array (Optimizer α)) :
    Holds { w with optimizers := os } t :=
  ⟨h.planned, h.filled, h.separate.known, h.separate.distinct⟩

theorem optimizer_push (w : Workspace α) (s : Optimizer α) :
    ({ w with optimizers := w.optimizers.push s } : Workspace α).optimizer ⟨w.optimizers.size⟩ =
      s := by
  simp [optimizer]

theorem optimizer_modifyOptimizer (w : Workspace α) {o : OptimizerId}
    (known : o.index < w.optimizers.size) (f : Optimizer α → Optimizer α) :
    (w.modifyOptimizer o f).optimizer o = f (w.optimizer o) := by
  simp [optimizer, modifyOptimizer, known, Array.getElem_modify]

end Workspace

def Adapted.ofLists (xs first second : List (NDArray α)) : List (Adapted α) :=
  xs.zipWith (fun x p => ⟨x, p.1, p.2⟩) (first.zip second)

omit [Scalar α] in
theorem Adapted.map_ofLists : ∀ {xs first second : List (NDArray α)}, first.length = xs.length →
    second.length = xs.length → (ofLists xs first second).map data = xs ∧
      (ofLists xs first second).map Adapted.first = first ∧
        (ofLists xs first second).map Adapted.second = second
  | [], [], [], _, _ => ⟨rfl, rfl, rfl⟩
  | x :: xs, m :: ms, v :: vs, hm, hv => by
    obtain ⟨data, first, second⟩ := map_ofLists (Nat.succ.inj hm) (Nat.succ.inj hv)
    exact ⟨congrArg (x :: ·) data, congrArg (m :: ·) first, congrArg (v :: ·) second⟩

omit [Scalar α] in
theorem Adapted.shaped_ofLists : ∀ {xs first second : List (NDArray α)} {shapes : List Shape},
    xs.map NDArray.shape = shapes → first.map NDArray.shape = shapes →
      second.map NDArray.shape = shapes → List.Forall₂ Shaped (ofLists xs first second) shapes
  | [], _, _, [], _, _, _ => .nil
  | x :: xs, m :: ms, v :: vs, s :: shapes, hx, hm, hv => by
    obtain ⟨data, hx⟩ := List.cons.inj hx
    obtain ⟨first, hm⟩ := List.cons.inj hm
    obtain ⟨second, hv⟩ := List.cons.inj hv
    exact .cons ⟨data, first, second⟩ (shaped_ofLists hx hm hv)

namespace Session

variable {w w' : Workspace α} {t : Transformer α VariableId} {o : OptimizerId} {a : Adam α}

theorem outcome_newOptimizer (holds : w.Holds t)
    (asked : ∀ v ∈ t.parameters, (w.var v).requiresGrad = true) (beta₁ beta₂ eps rate : α) :
    outcome (newOptimizer t.parameters (.adam beta₁ beta₂ eps) rate) w =
      (.ok ⟨w.optimizers.size⟩, { w with
        optimizers := w.optimizers.push ⟨t.parameters, rate,
          .adam (.start beta₁ beta₂ eps (t.parameters.map w.shapeOf))⟩ }) := by
  have all : t.parameters.filter (fun p => (w.var p).requiresGrad) = t.parameters :=
    List.filter_eq_self.2 asked
  have rule : outcome (ruleFor t.parameters (.adam beta₁ beta₂ eps)) w =
      (.ok (.adam (.start beta₁ beta₂ eps (t.parameters.map w.shapeOf))), w) := by
    rw [ruleFor, outcome_bind_ok (outcome_arrays holds.readable), ← holds.map_shape]
    rfl
  rw [newOptimizer, outcome_bind_ok outcome_get]
  dsimp only
  rw [all, outcome_bind_ok rule]
  rfl

section Checkpoints

variable [WordCoded α] {bytes rest : List UInt8}

theorem outcome_saveCheckpoint (holds : w.Holds t) (tracks : w.Tracks o t a) (iteration : Int)
    (loss : α) : outcome (saveCheckpoint t o iteration loss) w =
      (.ok (ModelFile.checkpoint ⟨iteration, loss, (w.optimizer o).rate⟩ t.config
        (Adapted.ofLists (w.arrays t) a.first a.second)), w) := by
  have found : outcome (optimizer o) w = (.ok (w.optimizer o), w) := rfl
  have tracked : ((w.optimizer o).tracked.length != t.parameters.length) = false := by
    simpa using tracks.tracked
  have adam : (w.optimizer o).adam? = some a := by rw [Optimizer.adam?, tracks.rule]
  rw [saveCheckpoint, outcome_bind_ok found, tracked]
  simp only [Bool.false_eq_true, if_false]
  rw [outcome_bind_ok (outcome_arrays holds.readable), adam]
  rfl

def loadCheckpointRest (bytes : List UInt8) : Session α (Checkpoint α × List UInt8) := do
  let ((), rest) ← ofFormat (Reader.header.run bytes)
  let (state, rest) ← ofFormat ((Reader.training (α := α)).run rest)
  let (config, rest) ← ofFormat (Reader.config.run rest)
  let model ← buildTransformer config false
  let o ← newOptimizer model.parameters
    (.adam Adam.defaultBeta₁ Adam.defaultBeta₂ Adam.defaultEps) state.rate
  let (xs, rest) ← ofFormat ((Reader.adaptedAll (← model.parameters.mapM expected)).run rest)
  (model.parameters.zip xs).forM fun (v, x) => setData v x.data
  modifyOptimizer o (Optimizer.mapAdam fun a =>
    { a with
      steps := state.iteration, first := xs.map Adapted.first, second := xs.map Adapted.second })
  return (⟨model, o, state⟩, rest)

theorem loadCheckpoint_eq (bytes : List UInt8) :
    loadCheckpoint bytes = Prod.fst <$> loadCheckpointRest (α := α) bytes := by
  unfold loadCheckpoint loadCheckpointRest
  simp [map_bind]

/-- Loading gives the checkpoint and leaves the rest of the bytes unread. -/
structure LoadsCheckpoint (w : Workspace α) (bytes : List UInt8) (k : Checkpoint α)
    (rest : List UInt8) (w' : Workspace α) : Prop where
  loaded : outcome (loadCheckpoint bytes) w = (.ok k, w')
  unread : outcome (loadCheckpointRest bytes) w = (.ok (k, rest), w')

theorem LoadsCheckpoint.of_unread {k : Checkpoint α}
    (h : outcome (loadCheckpointRest bytes) w = (.ok (k, rest), w')) :
    LoadsCheckpoint w bytes k rest w' := by
  refine ⟨?_, h⟩
  rw [loadCheckpoint_eq]
  exact outcome_map_ok h Prod.fst

structure Restores (w : Workspace α) (s : TrainingState α) (c : TransformerConfig)
    (xs : List (Adapted α)) (k : Checkpoint α) : Prop where
  config : k.model.config = c
  holds : w.Holds k.model
  arrays : w.arrays k.model = xs.map Adapted.data
  state : k.state = s
  optimizer : ∃ a, w.optimizer k.optimizer = ⟨k.model.parameters, s.rate, .adam a⟩ ∧
    a.steps = s.iteration ∧ a.first = xs.map Adapted.first ∧ a.second = xs.map Adapted.second

omit [Scalar α] [WordCoded α] in
theorem setAll_adapted (vs : List VariableId) (xs : List (Adapted α)) :
    ((vs.zip xs).forM fun (v, x) => setData v x.data : Session α Unit) =
      (vs.zip (xs.map Adapted.data)).forM fun (v, x) => setData v x := by
  induction vs generalizing xs with
  | nil => rfl
  | cons v vs ih =>
    cases xs with
    | nil => rfl
    | cons x xs => exact congrArg (setData v x.data >>= fun _ => ·) (ih xs)

omit [Scalar α] in
theorem reads_front {s : TrainingState α} {c : TransformerConfig} {xs : List (Adapted α)}
    (written : ModelFile.checkpoint s c xs = .ofBytes bytes) (rest : List UInt8) :
    ∃ r₁ r₂ counted, Reader.header.run (bytes ++ rest) = .ok ((), r₁) ∧
      (Reader.training (α := α)).run r₁ = .ok (s, r₂) ∧
      Reader.config.run r₂ = .ok (c, counted ++ rest) ∧
      ModelFile.counted ModelFile.adapted xs = .ofBytes counted := by
  obtain ⟨_, f₄, h₁, counted, rfl⟩ := Written.append_eq_ofBytes.1 written
  obtain ⟨_, f₃, h₂, config, rfl⟩ := Written.append_eq_ofBytes.1 h₁
  obtain ⟨f₁, f₂, header, training, rfl⟩ := Written.append_eq_ofBytes.1 h₂
  refine ⟨f₂ ++ (f₃ ++ (f₄ ++ rest)), f₃ ++ (f₄ ++ rest), f₄, ?_, ?_, ?_, counted⟩
  · exact (Reader.inverts_header _ () _).2
      ⟨trivial, f₁, header, by simp only [List.append_assoc]⟩
  · exact (Reader.inverts_training _ s _).2 ⟨trivial, f₂, training, rfl⟩
  · exact (Reader.inverts_config _ c _).2 ⟨trivial, f₃, config, rfl⟩

omit [WordCoded α] in
theorem outcome_rebuilt {c : TransformerConfig} {causal : Bool} {p : Transformer α (Slot α)}
    (plan : Transformer.plan c causal = .ok p) (beta₁ beta₂ eps rate : α) (w : Workspace α) :
    ∃ t w₁ o w₂ a, outcome (buildTransformer c false) w = (.ok t, w₁) ∧
      outcome (newOptimizer t.parameters (.adam beta₁ beta₂ eps) rate) w₁ = (.ok o, w₂) ∧
      t.config = c ∧ w₂.Holds t ∧ o.index < w₂.optimizers.size ∧
      w₂.optimizer o = ⟨t.parameters, rate, .adam a⟩ := by
  obtain ⟨-, -, p', plan', -⟩ := Transformer.of_plan plan false
  obtain ⟨t, w₁, built, -⟩ := outcome_buildTransformer plan' w
  obtain ⟨config, holds, asked⟩ := holds_buildTransformer built
  exact ⟨t, w₁, _, _, _, built, outcome_newOptimizer holds asked beta₁ beta₂ eps rate, config,
    holds.optimizers _, by simp, w₁.optimizer_push _⟩

def resumed (s : TrainingState α) (xs : List (Adapted α)) (a : Adam α) : Adam α :=
  { a with steps := s.iteration, first := xs.map Adapted.first, second := xs.map Adapted.second }

omit [WordCoded α] in
theorem restores_resumed {s : TrainingState α} {xs : List (Adapted α)} (holds : w.Holds t)
    (arrays : w.arrays t = xs.map Adapted.data) (known : o.index < w.optimizers.size)
    (found : w.optimizer o = ⟨t.parameters, s.rate, .adam a⟩) :
    Restores (w.modifyOptimizer o (Optimizer.mapAdam (resumed s xs))) s t.config xs
      ⟨t, o, s⟩ where
  config := rfl
  holds := holds.optimizers _
  arrays := arrays
  state := rfl
  optimizer := by
    refine ⟨resumed s xs a, ?_, rfl, rfl, rfl⟩
    rw [w.optimizer_modifyOptimizer known, found]
    rfl

theorem loads_checkpoint {s : TrainingState α} {c : TransformerConfig} {causal : Bool}
    {p : Transformer α (Slot α)} (plan : Transformer.plan c causal = .ok p)
    {xs : List (Adapted α)}
    (shaped : List.Forall₂ Adapted.Shaped xs (p.parameters.map Slot.shape))
    (written : ModelFile.checkpoint s c xs = .ofBytes bytes) (rest : List UInt8)
    (w : Workspace α) :
    ∃ k w', LoadsCheckpoint w (bytes ++ rest) k rest w' ∧ Restores w' s c xs k := by
  obtain ⟨r₁, r₂, counted, readHeader, readTraining, readConfig, parts⟩ :=
    reads_front written rest
  obtain ⟨t, w₁, o, w₂, a, built, made, rfl, holds, known, found⟩ :=
    outcome_rebuilt plan Adam.defaultBeta₁ Adam.defaultBeta₂ Adam.defaultEps s.rate w
  rw [← holds.map_shapeOf plan] at shaped
  have expectedShapes : List.Forall₂ (fun x (e : Expected) => x.Shaped e.shape) xs
      (t.parameters.map fun v => ⟨(w₂.var v).name, w₂.shapeOf v⟩) :=
    List.forall₂_map_right_iff.2 (List.forall₂_map_right_iff.1 shaped)
  have readAll := (Reader.inverts_adaptedAll _ (counted ++ rest) xs rest).2
    ⟨expectedShapes, counted, parts, rfl⟩
  have shapes : (xs.map Adapted.data).map NDArray.shape = t.parameters.map w₂.shapeOf := by
    rw [List.map_map]
    exact Reader.forall₂_eq_iff.1
      ((List.forall₂_map_right_iff.1 shaped).imp fun _ _ each => each.1)
  obtain ⟨w₃, set, holds₃, arrays, optimizers⟩ := outcome_setArrays holds shapes
  rw [← setAll_adapted] at set
  have found₃ : w₃.optimizer o = ⟨t.parameters, s.rate, .adam a⟩ := by
    rw [Workspace.optimizer, optimizers]
    exact found
  have resumes : outcome (modifyOptimizer o (Optimizer.mapAdam (resumed s xs))) w₃ =
      (.ok (), w₃.modifyOptimizer o (Optimizer.mapAdam (resumed s xs))) := rfl
  refine ⟨⟨t, o, s⟩, _, .of_unread ?_,
    restores_resumed holds₃ arrays (by rwa [optimizers]) found₃⟩
  rw [loadCheckpointRest, outcome_bind_ok (outcome_ofFormat readHeader)]
  dsimp only
  rw [outcome_bind_ok (outcome_ofFormat readTraining)]
  dsimp only
  rw [outcome_bind_ok (outcome_ofFormat readConfig)]
  dsimp only
  rw [outcome_bind_ok built, outcome_bind_ok made, outcome_bind_ok (outcome_expected _),
    outcome_bind_ok (outcome_ofFormat readAll)]
  dsimp only
  rw [outcome_bind_ok set]
  exact (outcome_bind_ok resumes _).trans rfl

theorem exists_savedCheckpoint (holds : w.Holds t) (fits : w.FitsFile t)
    (tracks : w.Tracks o t a) (s : TrainingState α)
    (iteration : LittleEndian.fitsInt32 s.iteration = true) :
    ∃ bytes, ModelFile.checkpoint s t.config (Adapted.ofLists (w.arrays t) a.first a.second) =
        .ofBytes bytes ∧
      bytes.length = ModelFile.checkpointSize (t.parameters.map w.shapeOf) := by
  have shaped := Adapted.shaped_ofLists holds.map_shape tracks.first tracks.second
  generalize Adapted.ofLists (w.arrays t) a.first a.second = xs at shaped
  have count : LittleEndian.fitsInt32 xs.length = true := by
    rw [shaped.length_eq, List.length_map]
    exact fits.count
  have each : ∀ x ∈ xs,
      x.data.shape.Checked ∧ LittleEndian.fitsInt32 x.data.size = true := by
    intro x hx
    obtain ⟨q, hq, rfl⟩ : ∃ q ∈ xs.zip (t.parameters.map w.shapeOf), q.1 = x := by
      rw [← List.map_fst_zip (Nat.le_of_eq shaped.length_eq)] at hx
      exact List.mem_map.1 hx
    obtain ⟨v, hv, shape⟩ := List.mem_map.1 (List.of_mem_zip hq).2
    have data : q.1.data.shape = w.shapeOf v := shape ▸ ((List.forall₂_iff_zip.1 shaped).2 hq).1
    rw [NDArray.size, data]
    exact ⟨holds.checked v hv, fits.sizes v hv⟩
  obtain ⟨bytes, written⟩ := ModelFile.exists_checkpoint iteration fits.fields count each
  exact ⟨bytes, written, (ModelFile.sized_checkpoint s t.config shaped).length written⟩

theorem loads_savedCheckpoint (holds : w.Holds t) (fits : w.FitsFile t) (tracks : w.Tracks o t a)
    {iteration : Int} (step : LittleEndian.fitsInt32 iteration = true) (loss : α) :
    ∃ bytes, outcome (saveCheckpoint t o iteration loss) w = (.ok (.ofBytes bytes), w) ∧
      bytes.length = ModelFile.checkpointSize (t.parameters.map w.shapeOf) ∧
      ∀ (w₁ : Workspace α) rest, ∃ k w₂, LoadsCheckpoint w₁ (bytes ++ rest) k rest w₂ ∧
        k.model.config = t.config ∧ w₂.Holds k.model ∧ w₂.arrays k.model = w.arrays t ∧
        k.state = ⟨iteration, loss, (w.optimizer o).rate⟩ ∧
        ∃ a', w₂.optimizer k.optimizer =
            ⟨k.model.parameters, (w.optimizer o).rate, .adam a'⟩ ∧
          a'.steps = iteration ∧ a'.first = a.first ∧ a'.second = a.second := by
  let s : TrainingState α := ⟨iteration, loss, (w.optimizer o).rate⟩
  obtain ⟨bytes, written, size⟩ := exists_savedCheckpoint holds fits tracks s step
  obtain ⟨causal, p, plan, shapes⟩ := holds.planned
  have shaped := Adapted.shaped_ofLists holds.map_shape tracks.first tracks.second
  rw [shapes] at shaped
  have lengths {xs : List (NDArray α)} (h : xs.map NDArray.shape = t.parameters.map w.shapeOf) :
      xs.length = (w.arrays t).length := by
    rw [← holds.map_shape] at h
    simpa using congrArg List.length h
  obtain ⟨data, first, second⟩ :=
    Adapted.map_ofLists (lengths tracks.first) (lengths tracks.second)
  refine ⟨bytes, ?_, size, fun w₁ rest => ?_⟩
  · rw [outcome_saveCheckpoint holds tracks, written]
  · obtain ⟨k, w₂, loads, restores⟩ := loads_checkpoint plan shaped written rest w₁
    obtain ⟨a', tracked, steps, first', second'⟩ := restores.optimizer
    exact ⟨k, w₂, loads, restores.config, restores.holds, restores.arrays.trans data,
      restores.state, a', tracked, steps, first'.trans first, second'.trans second⟩

/-- What is saved is loaded bit for bit, from exactly the bytes that were written, into a new model
or into one of the same sizes; a checkpoint gives back the optimizer and the state of training too.
What can be loaded is saved again as the bytes that were read. -/
theorem loaded_saved :
    (∀ (w : Workspace α) (t : Transformer α VariableId), w.Holds t → w.FitsFile t →
      ∃ bytes, outcome (saveModel t) w = (.ok (.ofBytes bytes), w) ∧
        bytes.length = ModelFile.modelSize (t.parameters.map w.shapeOf) ∧
        ∀ (w₁ : Workspace α) into? rest, (∀ u ∈ into?, w₁.Holds u ∧ u.config = t.config) →
          ∃ t' w₂, LoadsModel w₁ (bytes ++ rest) into? t' rest w₂ ∧
            t'.config = t.config ∧ w₂.Holds t' ∧ w₂.arrays t' = w.arrays t) ∧
    (∀ (w : Workspace α) (t : Transformer α VariableId) o a iteration loss, w.Holds t →
      w.FitsFile t → w.Tracks o t a → LittleEndian.fitsInt32 iteration = true →
      ∃ bytes, outcome (saveCheckpoint t o iteration loss) w = (.ok (.ofBytes bytes), w) ∧
        bytes.length = ModelFile.checkpointSize (t.parameters.map w.shapeOf) ∧
        ∀ (w₁ : Workspace α) rest, ∃ k w₂, LoadsCheckpoint w₁ (bytes ++ rest) k rest w₂ ∧
          k.model.config = t.config ∧ w₂.Holds k.model ∧ w₂.arrays k.model = w.arrays t ∧
          k.state = ⟨iteration, loss, (w.optimizer o).rate⟩ ∧
          ∃ a', w₂.optimizer k.optimizer =
              ⟨k.model.parameters, (w.optimizer o).rate, .adam a'⟩ ∧
            a'.steps = iteration ∧ a'.first = a.first ∧ a'.second = a.second) ∧
    (∀ (w : Workspace α) bytes into? t w', (∀ u ∈ into?, w.Separate u.parameters) →
      outcome (loadModel bytes into?) w = (.ok t, w') →
      ∃ consumed rest, LoadsModel w bytes into? t rest w' ∧ bytes = consumed ++ rest ∧
        outcome (saveModel t) w' = (.ok (.ofBytes consumed), w')) := by
  refine ⟨fun w t holds fits => ?_, fun w t o a iteration loss holds fits tracks step =>
    loads_savedCheckpoint holds fits tracks step loss,
    fun w bytes into? t w' given run => saved_of_loaded given run⟩
  obtain ⟨bytes, written, size⟩ := exists_saved holds fits
  refine ⟨bytes, ?_, size, fun w₁ into? rest given => loads_saved holds written given rest⟩
  rw [outcome_saveModel holds.readable, written]

end Checkpoints

def leastArrays (bits : Nat → UInt64) : List (NDArray StoredDouble) :=
  [.ofFn [1, 1] fun _ => ⟨bits 0⟩, .ofFn [1, 1] fun _ => ⟨bits 1⟩, .ofFn [1] fun _ => ⟨bits 2⟩,
    .ofFn [1] fun _ => ⟨bits 3⟩, .ofFn [1, 1] fun _ => ⟨bits 4⟩, .ofFn [1] fun _ => ⟨bits 5⟩]

def leastModel : Transformer StoredDouble VariableId :=
  ⟨⟨1, 1, 1, 0, 1, 1⟩, ⟨⟨0⟩⟩, ⟨⟨1⟩⟩, [], ⟨LayerNorm.defaultEps, ⟨2⟩, ⟨3⟩⟩, ⟨⟨4⟩, ⟨5⟩⟩⟩

def leastMoments : Adam StoredDouble :=
  ⟨Adam.defaultBeta₁, Adam.defaultBeta₂, Adam.defaultEps, 3,
    leastArrays fun i => 0x3ff0000000000000 + .ofNat i, leastArrays fun i => .ofNat i⟩

def leastWorkspace : Workspace StoredDouble :=
  { Workspace.empty (fun _ => 0) with
    tensors := ((leastArrays fun i => 0x7ff0000000000123 + .ofNat i).map fun x =>
      ⟨x.shape, some x, none⟩).toArray
    vars := (leastModel.parameters.map fun v => ⟨⟨v.index⟩, none, true, true, ""⟩).toArray
    optimizers := #[⟨leastModel.parameters, ⟨0x3f50624dd2f1a9fc⟩, .adam leastMoments⟩] }

theorem parameters_leastModel : leastModel.parameters = [⟨0⟩, ⟨1⟩, ⟨2⟩, ⟨3⟩, ⟨4⟩, ⟨5⟩] := rfl

theorem map_shapeOf_leastModel : leastModel.parameters.map leastWorkspace.shapeOf =
    [[1, 1], [1, 1], [1], [1], [1, 1], [1]] := rfl

theorem holds_leastModel : leastWorkspace.Holds leastModel := by
  have shapes : (Transformer.plan (α := StoredDouble) leastModel.config false).map
      (fun p => p.parameters.map Slot.shape) =
        .ok [[1, 1], [1, 1], [1], [1], [1, 1], [1]] := by
    decide +kernel
  refine ⟨?_, ?_, ?_, ?_⟩
  · cases plan : Transformer.plan (α := StoredDouble) leastModel.config false with
    | error e =>
      rw [plan] at shapes
      cases shapes
    | ok p =>
      rw [plan] at shapes
      exact ⟨false, p, plan, map_shapeOf_leastModel.trans (Except.ok.inj shapes).symm⟩
  · simp only [parameters_leastModel, List.forall_mem_cons]
    refine ⟨?_, ?_, ?_, ?_, ?_, ?_, nofun⟩ <;> exact ⟨nofun, _, rfl, rfl⟩
  · simp only [parameters_leastModel, List.forall_mem_cons]
    refine ⟨?_, ?_, ?_, ?_, ?_, ?_, nofun⟩ <;> decide
  · decide

theorem fitsFile_leastModel : leastWorkspace.FitsFile leastModel := by
  have sizes : ∀ s ∈ leastModel.parameters.map leastWorkspace.shapeOf,
      LittleEndian.fitsInt32 (Shape.size s) = true := by
    rw [map_shapeOf_leastModel]
    decide
  exact ⟨by decide, by decide, fun v hv => sizes _ (List.mem_map_of_mem hv)⟩

theorem tracks_leastModel : leastWorkspace.Tracks ⟨0⟩ leastModel leastMoments :=
  ⟨rfl, rfl, map_shapeOf_leastModel.symm, map_shapeOf_leastModel.symm⟩

theorem loaded_saved_least :
    leastWorkspace.Holds leastModel ∧ leastWorkspace.FitsFile leastModel ∧
    leastWorkspace.Tracks ⟨0⟩ leastModel leastMoments ∧
    (∃ bytes, outcome (saveModel leastModel) leastWorkspace =
        (.ok (.ofBytes bytes), leastWorkspace) ∧ bytes.length = 168 ∧
      ∃ t w, LoadsModel (.empty fun _ => 0) bytes none t [] w ∧
        w.arrays t = leastArrays (fun i => 0x7ff0000000000123 + .ofNat i) ∧
        outcome (saveModel t) w = (.ok (.ofBytes bytes), w)) ∧
    ∃ bytes, outcome (saveCheckpoint leastModel ⟨0⟩ 7 ⟨0x7ff8000000000001⟩) leastWorkspace =
        (.ok (.ofBytes bytes), leastWorkspace) ∧ bytes.length = 284 ∧
      ∃ k w a, LoadsCheckpoint (.empty fun _ => 0) bytes k [] w ∧
        k.state = ⟨7, ⟨0x7ff8000000000001⟩, ⟨0x3f50624dd2f1a9fc⟩⟩ ∧
        (w.optimizer k.optimizer).rule = .adam a ∧ a.steps = 7 ∧
        a.first = leastMoments.first ∧ a.second = leastMoments.second := by
  obtain ⟨models, checkpoints, converse⟩ := loaded_saved (α := StoredDouble)
  refine ⟨holds_leastModel, fitsFile_leastModel, tracks_leastModel, ?_, ?_⟩
  · obtain ⟨bytes, saved, size, loads⟩ :=
      models leastWorkspace leastModel holds_leastModel fitsFile_leastModel
    obtain ⟨t, w, loaded, -, -, arrays⟩ := loads (.empty fun _ => 0) none [] nofun
    rw [List.append_nil] at loaded
    obtain ⟨consumed, rest, again, split, written⟩ :=
      converse (.empty fun _ => 0) bytes none t w nofun loaded.loaded
    obtain ⟨⟨⟩⟩ := again.unread.symm.trans loaded.unread
    rw [List.append_nil] at split
    subst split
    rw [map_shapeOf_leastModel] at size
    exact ⟨bytes, saved, size, t, w, loaded, arrays, written⟩
  · obtain ⟨bytes, saved, size, loads⟩ := checkpoints leastWorkspace leastModel ⟨0⟩ leastMoments 7
      ⟨0x7ff8000000000001⟩ holds_leastModel fitsFile_leastModel tracks_leastModel rfl
    obtain ⟨k, w, loaded, -, -, -, state, a, tracked, steps, first, second⟩ :=
      loads (.empty fun _ => 0) []
    rw [List.append_nil] at loaded
    rw [map_shapeOf_leastModel] at size
    refine ⟨bytes, saved, size, k, w, a, loaded, state, ?_, steps, first, second⟩
    rw [tracked]

end Session

end DerivativeEngine
