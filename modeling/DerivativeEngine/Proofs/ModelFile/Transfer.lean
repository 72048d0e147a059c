import DerivativeEngine.Proofs.ModelFile.Fitting
import DerivativeEngine.Proofs.Workspace.Allocation
import DerivativeEngine.Proofs.Workspace.Filling

/-! Models and checkpoints, written and loaded. What is loaded is what was written, bit for bit, and
exactly the bytes that were written are read; and whatever can be loaded at all is written again as
it was. -/

namespace DerivativeEngine

variable {α : Type} [Scalar α]

namespace Workspace

variable {w w' : Workspace α} {t : Transformer α VariableId}

/-- The model stands as it was planned, on tensors of its own, whatever they hold. -/
structure Holds (w : Workspace α) (t : Transformer α VariableId) : Prop where
  planned : ∃ causal, ∃ p : Transformer α (Slot α), Transformer.plan t.config causal = .ok p ∧
    t.parameters.map w.shapeOf = p.parameters.map Slot.shape
  filled : ∀ v ∈ t.parameters, w.Alive v ∧
    ∃ x, (w.tensor (w.var v).data).value = some x ∧ x.shape = w.shapeOf v
  separate : w.Separate t.parameters

/-- The integers in front of the parameters and the sizes of these have 32 bits. -/
structure FitsFile (w : Workspace α) (t : Transformer α VariableId) : Prop where
  fields : ∀ f ∈ t.config.fields, LittleEndian.fitsInt32 f.2 = true
  count : LittleEndian.fitsInt32 t.parameters.length = true
  sizes : ∀ v ∈ t.parameters, LittleEndian.fitsInt32 (w.shapeOf v).size = true

/-- What the parameters hold. -/
def arrays (w : Workspace α) (t : Transformer α VariableId) : List (NDArray α) :=
  t.parameters.map w.valueOf

theorem Holds.shape_valueOf (h : w.Holds t) {v : VariableId} (hv : v ∈ t.parameters) :
    (w.tensor (w.var v).data).value = some (w.valueOf v) ∧ (w.valueOf v).shape = w.shapeOf v := by
  obtain ⟨-, x, value, shape⟩ := h.filled v hv
  have holds : w.valueOf v = x := by
    rw [valueOf, value]
    rfl
  rw [holds]
  exact ⟨value, shape⟩

theorem Holds.readable (h : w.Holds t) : ∀ v ∈ t.parameters,
    w.Alive v ∧ ∃ x, (w.tensor (w.var v).data).value = some x := by
  intro v hv
  obtain ⟨alive, x, value, -⟩ := h.filled v hv
  exact ⟨alive, x, value⟩

theorem Holds.map_shape (h : w.Holds t) :
    (w.arrays t).map NDArray.shape = t.parameters.map w.shapeOf := by
  rw [arrays, List.map_map]
  exact List.map_congr_left fun v hv => (h.shape_valueOf hv).2

theorem Holds.map_shapeOf (h : w.Holds t) {causal : Bool} {p : Transformer α (Slot α)}
    (plan : Transformer.plan t.config causal = .ok p) :
    t.parameters.map w.shapeOf = p.parameters.map Slot.shape := by
  obtain ⟨causal', p', plan', shapes⟩ := h.planned
  obtain ⟨-, -, q, other, slots⟩ := Transformer.of_plan plan causal'
  obtain rfl := Except.ok.inj (other.symm.trans plan')
  rw [shapes, slots]

theorem Holds.same_shapes {t' : Transformer α VariableId} (h : w.Holds t) (h' : w'.Holds t')
    (same : t'.config = t.config) :
    t'.parameters.map w'.shapeOf = t.parameters.map w.shapeOf := by
  obtain ⟨causal, p, plan, shapes⟩ := h.planned
  rw [shapes]
  rw [← same] at plan
  exact h'.map_shapeOf plan

theorem Holds.checked (h : w.Holds t) : ∀ v ∈ t.parameters, (w.shapeOf v).Checked := by
  obtain ⟨causal, p, plan, shapes⟩ := h.planned
  intro v hv
  have there : w.shapeOf v ∈ p.parameters.map Slot.shape := by
    rw [← shapes]
    exact List.mem_map_of_mem hv
  obtain ⟨s, hs, same⟩ := List.mem_map.1 there
  rw [← same]
  exact (Transformer.of_plan plan causal).2.1 s hs

theorem Standing.holds {p : Transformer α (Slot α)} {causal : Bool}
    (plan : Transformer.plan t.config causal = .ok p)
    (length : t.parameters.length = p.parameters.length)
    (h : w.Standing (p.parameters.zip t.parameters)) : w.Holds t := by
  have firsts : (p.parameters.zip t.parameters).map Prod.fst = p.parameters :=
    List.map_fst_zip (Nat.le_of_eq length.symm)
  have seconds : (p.parameters.zip t.parameters).map Prod.snd = t.parameters :=
    List.map_snd_zip (Nat.le_of_eq length)
  have stands : ∀ v ∈ t.parameters, ∃ s, w.Stands s v := by
    intro v hv
    rw [← seconds] at hv
    obtain ⟨q, hq, rfl⟩ := List.mem_map.1 hv
    exact ⟨q.1, h.each q hq⟩
  refine ⟨⟨causal, p, plan, ?_⟩, fun v hv => ?_, fun v hv => ?_, ?_⟩
  · rw [← seconds]
    conv => rhs; rw [← firsts]
    rw [List.map_map, List.map_map]
    exact List.map_congr_left fun q hq => (h.each q hq).shape
  · obtain ⟨s, s'⟩ := stands v hv
    obtain ⟨x, value, shape⟩ := s'.filled
    refine ⟨?_, x, value, shape.trans s'.shape.symm⟩
    intro q hq
    rw [s'.persistent] at hq
    cases hq
  · obtain ⟨s, s'⟩ := stands v hv
    exact s'.known
  · rw [← seconds, List.map_map]
    exact h.distinct

omit [Scalar α] in
theorem Standing.asked {p : Transformer α (Slot α)}
    (length : t.parameters.length = p.parameters.length)
    (h : w.Standing (p.parameters.zip t.parameters)) :
    ∀ v ∈ t.parameters, (w.var v).requiresGrad = true := by
  have seconds : (p.parameters.zip t.parameters).map Prod.snd = t.parameters :=
    List.map_snd_zip (Nat.le_of_eq length)
  intro v hv
  rw [← seconds] at hv
  obtain ⟨q, hq, rfl⟩ := List.mem_map.1 hv
  exact (h.each q hq).asked

section Filled

variable {vs : List VariableId} {xs : List (NDArray α)}

omit [Scalar α] in
theorem accepts_zip (alive : ∀ v ∈ vs, w.Alive v)
    (shapes : xs.map NDArray.shape = vs.map w.shapeOf) : ∀ q ∈ vs.zip xs, w.Accepts q.1 q.2 := by
  have aligned := List.forall₂_iff_zip.1 (Reader.forall₂_eq_iff.2 shapes.symm)
  exact fun q hq => ⟨(aligned.2 hq).symm, alive q.1 (List.of_mem_zip hq).1⟩

omit [Scalar α] in
theorem exists_mem_zip (length : xs.length = vs.length) : ∀ v ∈ vs, ∃ x, (v, x) ∈ vs.zip xs := by
  intro v hv
  rw [← List.map_fst_zip (Nat.le_of_eq length.symm)] at hv
  obtain ⟨⟨v, x⟩, hq, rfl⟩ := List.mem_map.1 hv
  exact ⟨x, hq⟩

omit [Scalar α] in
theorem Separate.zip (h : w.Separate vs) (length : xs.length = vs.length) :
    w.Separate ((vs.zip xs).map Prod.fst) := by
  rwa [List.map_fst_zip (Nat.le_of_eq length.symm)]

theorem Filled.reads (h : w.Filled (vs.zip xs) w') (accepts : ∀ q ∈ vs.zip xs, w.Accepts q.1 q.2) :
    ∀ q ∈ vs.zip xs, w'.Alive q.1 ∧ (w'.tensor (w'.var q.1).data).value = some q.2 ∧
      w'.valueOf q.1 = q.2 ∧ w'.shapeOf q.1 = w.shapeOf q.1 := by
  intro q hq
  obtain ⟨shape, alive⟩ := accepts q hq
  have held := h.held q hq
  have value : (w'.tensor (w'.var q.1).data).value = some q.2 := by rw [h.var, held]
  refine ⟨?_, value, ?_, ?_⟩
  · intro p hp
    rw [h.var, held] at hp
    rw [generation, context, h.rest]
    exact alive p hp
  · rw [valueOf, value]
    rfl
  · rw [shapeOf, h.var, held]
    rfl

theorem Filled.arrays (h : w.Filled (t.parameters.zip xs) w')
    (accepts : ∀ q ∈ t.parameters.zip xs, w.Accepts q.1 q.2)
    (length : xs.length = t.parameters.length) : w'.arrays t = xs := by
  have firsts : (t.parameters.zip xs).map Prod.fst = t.parameters :=
    List.map_fst_zip (Nat.le_of_eq length.symm)
  have seconds : (t.parameters.zip xs).map Prod.snd = xs :=
    List.map_snd_zip (Nat.le_of_eq length)
  rw [Workspace.arrays, ← firsts, List.map_map]
  conv => rhs; rw [← seconds]
  exact List.map_congr_left fun q hq => (h.reads accepts q hq).2.2.1

theorem Filled.holds (h : w.Filled (t.parameters.zip xs) w') (held : w.Holds t)
    (shapes : xs.map NDArray.shape = t.parameters.map w.shapeOf) :
    w'.Holds t ∧ w'.arrays t = xs := by
  have accepts := accepts_zip (fun v hv => (held.filled v hv).1) shapes
  have length : xs.length = t.parameters.length := by simpa using congrArg List.length shapes
  have reads := h.reads accepts
  have pairs := exists_mem_zip length
  have kept : ∀ v ∈ t.parameters, w'.shapeOf v = w.shapeOf v := by
    intro v hv
    obtain ⟨x, hq⟩ := pairs v hv
    exact (reads _ hq).2.2.2
  obtain ⟨causal, p, plan, planned⟩ := held.planned
  refine ⟨⟨⟨causal, p, plan, ?_⟩, fun v hv => ?_, fun v hv => ?_, ?_⟩, h.arrays accepts length⟩
  · rw [← planned]
    exact List.map_congr_left kept
  · obtain ⟨x, hq⟩ := pairs v hv
    obtain ⟨alive, value, -, shape⟩ := reads _ hq
    exact ⟨alive, x, value, (accepts _ hq).1.trans shape.symm⟩
  · rw [h.var, h.size]
    exact held.separate.known v hv
  · simp only [h.var]
    exact held.separate.distinct

end Filled

end Workspace

namespace Session

variable {w w' : Workspace α} {t : Transformer α VariableId} {bytes rest : List UInt8}
  {into? : Option (Transformer α VariableId)}

theorem holds_buildTransformer {c : TransformerConfig} {causal : Bool}
    (run : outcome (buildTransformer c causal) w = (.ok t, w')) :
    t.config = c ∧ w'.Holds t ∧ ∀ v ∈ t.parameters, (w'.var v).requiresGrad = true := by
  obtain ⟨p, plan⟩ := plan_of_buildTransformer run
  obtain ⟨t', w₁, run', config, length, standing⟩ := outcome_buildTransformer plan w
  obtain ⟨⟨⟩, ⟨⟩⟩ := run.symm.trans run'
  have same : t.config = c := config.trans (Transformer.of_plan plan causal).1
  rw [← same] at plan
  exact ⟨same, standing.holds plan length, standing.asked length⟩

theorem outcome_arrays (readable : ∀ v ∈ t.parameters, w.Alive v ∧
    ∃ x, (w.tensor (w.var v).data).value = some x) :
    outcome (t.parameters.mapM value) w = (.ok (w.arrays t), w) := by
  refine outcome_list_mapM fun v hv => ?_
  obtain ⟨alive, x, held⟩ := readable v hv
  have holds : w.valueOf v = x := by
    rw [Workspace.valueOf, held]
    rfl
  rw [outcome_value, Workspace.read_eq_ok.2 ⟨alive, held⟩, holds]
  rfl

omit [Scalar α] in
theorem outcome_expected (vs : List VariableId) : outcome (vs.mapM expected) w =
    (.ok (vs.map fun v => ⟨(w.var v).name, w.shapeOf v⟩), w) :=
  outcome_list_mapM fun _ _ => rfl

omit [Scalar α] in
theorem outcome_ofFormat_eq_ok {β : Type} {x : Except FormatError β} {y : β} :
    outcome (ofFormat x) w = (.ok y, w') ↔ x = .ok y ∧ w = w' := by
  cases x with
  | error e => simp [ofFormat, outcome_ofExcept]
  | ok z => simp [ofFormat, outcome_ofExcept]

theorem outcome_setArrays (holds : w.Holds t) {xs : List (NDArray α)}
    (shapes : xs.map NDArray.shape = t.parameters.map w.shapeOf) :
    ∃ w', outcome ((t.parameters.zip xs).forM fun (v, x) => setData v x) w = (.ok (), w') ∧
      w'.Holds t ∧ w'.arrays t = xs ∧ w'.optimizers = w.optimizers := by
  have accepts := Workspace.accepts_zip (fun v hv => (holds.filled v hv).1) shapes
  have length : xs.length = t.parameters.length := by simpa using congrArg List.length shapes
  obtain ⟨w', set⟩ := outcome_setAll accepts
  obtain ⟨-, filled⟩ := filled_of_setAll (holds.separate.zip length) set
  obtain ⟨holds', arrays⟩ := filled.holds holds shapes
  refine ⟨w', set, holds', arrays, ?_⟩
  rw [filled.rest]

def target (config : TransformerConfig) (into? : Option (Transformer α VariableId)) :
    Session α (Transformer α VariableId) :=
  match into? with
  | none => buildTransformer config false
  | some t => do
    if t.config != config then throw (.format (.architecture config t.config))
    pure t

theorem outcome_target {c : TransformerConfig} {causal : Bool} {p : Transformer α (Slot α)}
    (plan : Transformer.plan c causal = .ok p) (given : ∀ u ∈ into?, w.Holds u ∧ u.config = c) :
    ∃ t w', outcome (target c into?) w = (.ok t, w') ∧ t.config = c ∧ w'.Holds t := by
  cases into? with
  | none =>
    obtain ⟨-, -, p', plan', -⟩ := Transformer.of_plan plan false
    obtain ⟨t, w', run, -⟩ := outcome_buildTransformer plan' w
    obtain ⟨config, holds, -⟩ := holds_buildTransformer run
    exact ⟨t, w', run, config, holds⟩
  | some u =>
    obtain ⟨holds, rfl⟩ := given u rfl
    refine ⟨u, w, ?_, rfl, holds⟩
    simp only [target, bne_self_eq_false, Bool.false_eq_true, if_false]
    rfl

theorem separate_of_target {c : TransformerConfig}
    (given : ∀ u ∈ into?, w.Separate u.parameters)
    (run : outcome (target c into?) w = (.ok t, w')) :
    t.config = c ∧ w'.Separate t.parameters := by
  cases into? with
  | none =>
    obtain ⟨config, holds, -⟩ := holds_buildTransformer run
    exact ⟨config, holds.separate⟩
  | some u =>
    simp only [target] at run
    split at run
    · cases run
    · next same =>
      obtain ⟨⟨⟩, ⟨⟩⟩ := run
      exact ⟨by simpa using same, given _ rfl⟩

omit [Scalar α] in
theorem outcome_ofFormat {β : Type} {x : Except FormatError β} {y : β} (h : x = .ok y) :
    outcome (ofFormat x) w = (.ok y, w) :=
  outcome_ofFormat_eq_ok.2 ⟨h, rfl⟩

section Models

variable [WordCoded α]

theorem outcome_saveModel (readable : ∀ v ∈ t.parameters, w.Alive v ∧
    ∃ x, (w.tensor (w.var v).data).value = some x) :
    outcome (saveModel t) w = (.ok (ModelFile.model t.config (w.arrays t)), w) := by
  rw [saveModel, outcome_bind_ok (outcome_arrays readable)]
  rfl

def loadModelRest (bytes : List UInt8) (into? : Option (Transformer α VariableId)) :
    Session α (Transformer α VariableId × List UInt8) := do
  let (config, rest) ← ofFormat ((Reader.header *> Reader.config).run bytes)
  let model ← target config into?
  let p := Reader.parameters (← model.parameters.mapM expected) rest
  (model.parameters.zip p.arrays).forM fun (v, x) => setData v x
  return (model, ← ofFormat p.rest)

theorem loadModel_eq (bytes : List UInt8) (into? : Option (Transformer α VariableId)) :
    loadModel bytes into? = Prod.fst <$> loadModelRest bytes into? := by
  unfold loadModel loadModelRest target
  cases into? with
  | none => simp [map_bind]
  | some u =>
    rw [map_bind]
    refine bind_congr fun front => ?_
    by_cases same : u.config = front.1 <;> simp [same]

theorem outcome_loadModelRest_eq_ok : outcome (loadModelRest bytes into?) w = (.ok (t, rest), w') ↔
    ∃ c xs w₁, outcome (target c into?) w = (.ok t, w₁) ∧
      xs.map NDArray.shape = t.parameters.map w₁.shapeOf ∧
      outcome ((t.parameters.zip xs).forM fun (v, x) => setData v x) w₁ = (.ok (), w') ∧
      ∃ front, ModelFile.model c xs = .ofBytes front ∧ bytes = front ++ rest := by
  have shapes {vs : List VariableId} {xs : List (NDArray α)} {w : Workspace α} :
      List.Forall₂ (fun x e => x.shape = Expected.shape e) xs
        (vs.map fun v => ⟨(w.var v).name, w.shapeOf v⟩) ↔
          xs.map NDArray.shape = vs.map w.shapeOf := by
    rw [List.forall₂_map_right_iff, Reader.forall₂_eq_iff]
  constructor
  · intro h
    rw [loadModelRest, outcome_bind_eq_ok] at h
    obtain ⟨⟨c, r⟩, _, read, h⟩ := h
    obtain ⟨front, rfl⟩ := outcome_ofFormat_eq_ok.1 read
    rw [outcome_bind_eq_ok] at h
    obtain ⟨m, w₁, aimed, h⟩ := h
    rw [outcome_bind_ok (outcome_expected _), outcome_bind_eq_ok] at h
    obtain ⟨u, w₂, written, h⟩ := h
    rw [outcome_bind_eq_ok] at h
    obtain ⟨left, _, finished, h⟩ := h
    obtain ⟨ended, rfl⟩ := outcome_ofFormat_eq_ok.1 finished
    obtain ⟨⟨⟩, rfl⟩ := outcome_pure_eq_ok.1 h
    obtain ⟨-, f, fields, rfl⟩ := (Reader.inverts_front _ _ _).1 front
    -- Filling ran on the arrays that could be read, before it was known whether all could be.
    generalize progress : Reader.parameters (α := α) _ r = p at written ended
    obtain ⟨xs, _⟩ := p
    obtain rfl := ended
    obtain ⟨shape, g, counted, rfl⟩ := (Reader.parameters_ok_iff _ _ _ _).1 progress
    refine ⟨c, xs, w₁, aimed, shapes.1 shape, written, f ++ g, ?_, (List.append_assoc f g _).symm⟩
    exact Written.append_eq_ofBytes.2 ⟨f, g, fields, counted, rfl⟩
  · rintro ⟨c, xs, w₁, aimed, shape, written, front, file, rfl⟩
    obtain ⟨f, g, fields, counted, rfl⟩ := Written.append_eq_ofBytes.1 file
    have front := (Reader.inverts_front (f ++ g ++ rest) c (g ++ rest)).2
      ⟨trivial, f, fields, List.append_assoc f g rest⟩
    have progress := (Reader.parameters_ok_iff _ (g ++ rest) xs rest).2
      ⟨shapes.2 shape, g, counted, rfl⟩
    rw [loadModelRest, outcome_bind_ok (outcome_ofFormat front), outcome_bind_ok aimed,
      outcome_bind_ok (outcome_expected _), progress, outcome_bind_ok written]
    rfl

/-- Loading gives the model and leaves the rest of the bytes unread. -/
structure LoadsModel (w : Workspace α) (bytes : List UInt8)
    (into? : Option (Transformer α VariableId)) (t : Transformer α VariableId) (rest : List UInt8)
    (w' : Workspace α) : Prop where
  loaded : outcome (loadModel bytes into?) w = (.ok t, w')
  unread : outcome (loadModelRest bytes into?) w = (.ok (t, rest), w')

theorem LoadsModel.of_unread (h : outcome (loadModelRest bytes into?) w = (.ok (t, rest), w')) :
    LoadsModel w bytes into? t rest w' := by
  refine ⟨?_, h⟩
  rw [loadModel_eq]
  exact outcome_map_ok h Prod.fst

theorem exists_saved (holds : w.Holds t) (fits : w.FitsFile t) :
    ∃ bytes, ModelFile.model t.config (w.arrays t) = .ofBytes bytes ∧
      bytes.length = ModelFile.modelSize (t.parameters.map w.shapeOf) := by
  have each : ∀ x ∈ w.arrays t, x.shape.Checked ∧ LittleEndian.fitsInt32 x.size = true := by
    intro x hx
    obtain ⟨v, hv, rfl⟩ := List.mem_map.1 hx
    have shape := (holds.shape_valueOf hv).2
    rw [NDArray.size, shape]
    exact ⟨holds.checked v hv, fits.sizes v hv⟩
  have count : LittleEndian.fitsInt32 (w.arrays t).length = true := by
    rw [Workspace.arrays, List.length_map]
    exact fits.count
  obtain ⟨bytes, written⟩ := ModelFile.exists_model fits.fields count each
  exact ⟨bytes, written, by rw [(ModelFile.sized_model _ _).length written, holds.map_shape]⟩

theorem loads_saved (holds : w.Holds t) {bytes : List UInt8}
    (written : ModelFile.model t.config (w.arrays t) = .ofBytes bytes) {w₁ : Workspace α}
    (given : ∀ u ∈ into?, w₁.Holds u ∧ u.config = t.config) (rest : List UInt8) :
    ∃ t' w₂, LoadsModel w₁ (bytes ++ rest) into? t' rest w₂ ∧ t'.config = t.config ∧
      w₂.Holds t' ∧ w₂.arrays t' = w.arrays t := by
  obtain ⟨causal, p, plan, -⟩ := holds.planned
  obtain ⟨t', w₂, aimed, config, holds'⟩ := outcome_target plan given
  have shapes : (w.arrays t).map NDArray.shape = t'.parameters.map w₂.shapeOf := by
    rw [holds.map_shape, holds.same_shapes holds' config]
  obtain ⟨w₃, set, holds₃, arrays, -⟩ := outcome_setArrays holds' shapes
  refine ⟨t', w₃, .of_unread ?_, config, holds₃, arrays⟩
  exact outcome_loadModelRest_eq_ok.2
    ⟨t.config, _, w₂, aimed, shapes, set, bytes, written, rfl⟩

theorem saved_of_loaded (given : ∀ u ∈ into?, w.Separate u.parameters)
    (run : outcome (loadModel bytes into?) w = (.ok t, w')) :
    ∃ consumed rest, LoadsModel w bytes into? t rest w' ∧ bytes = consumed ++ rest ∧
      outcome (saveModel t) w' = (.ok (.ofBytes consumed), w') := by
  have loaded := run
  rw [loadModel_eq, map_eq_pure_bind, outcome_bind_eq_ok] at loaded
  obtain ⟨⟨t', rest⟩, w₂, unread, gives⟩ := loaded
  obtain ⟨same, rfl⟩ := outcome_pure_eq_ok.1 gives
  obtain rfl : t' = t := same
  obtain ⟨c, xs, w₁, aimed, shapes, set, consumed, written, rfl⟩ :=
    outcome_loadModelRest_eq_ok.1 unread
  obtain ⟨rfl, separate⟩ := separate_of_target given aimed
  have length : xs.length = t'.parameters.length := by simpa using congrArg List.length shapes
  obtain ⟨accepts, filled⟩ := filled_of_setAll (separate.zip length) set
  refine ⟨consumed, rest, .of_unread unread, rfl, ?_⟩
  have arrays := filled.arrays accepts length
  rw [outcome_saveModel, arrays, written]
  intro v hv
  obtain ⟨x, hq⟩ := Workspace.exists_mem_zip length v hv
  obtain ⟨alive, held, -⟩ := filled.reads accepts _ hq
  exact ⟨alive, x, held⟩

end Models

end Session

end DerivativeEngine
