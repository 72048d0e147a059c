import DerivativeEngine.Proofs.ModelFile.Refusal

/-! Files that were cut off. What can be read at the front of a part of a file is what was written
there, so the sizes of the model are the right ones if they can be read at all. A file that loads is
as long as these sizes say, which no file is that was cut off. Nothing but the file can be at fault,
since there is a model of these sizes. -/

namespace DerivativeEngine

namespace Reader

variable {β : Type} {r : Reader β} {good : β → Prop} {write : β → Written} {n : Nat}
  {part rest : List UInt8}

theorem Inverts.eq_of_cut (inverts : Inverts r good write) (sized : ∀ x, (write x).Sized n)
    (x₀ : β) (known : good x₀) {tail : Written} (cut : part <+: (write x₀ ++ tail).bytes) {x : β}
    (read : r.run part = .ok (x, rest)) : x = x₀ := by
  obtain ⟨found, front, written, rfl⟩ := (inverts _ _ _).1 read
  obtain ⟨behind, whole⟩ := cut
  have length := (sized x).length written
  cases complete : (write x₀).complete with
  | false =>
    rw [Written.append_of_incomplete complete] at whole
    have short := (sized x₀).short complete
    rw [← whole, List.length_append, List.length_append, length] at short
    omega
  | true =>
    rw [Written.append_of_complete complete] at whole
    have first : write x₀ = .ofBytes (write x₀).bytes := by
      rw [Written.ofBytes, ← complete]
    have here := (inverts (front ++ (rest ++ behind)) x _).2 ⟨found, front, written, rfl⟩
    have there := (inverts (_ ++ tail.bytes) x₀ tail.bytes).2 ⟨known, _, first, rfl⟩
    dsimp only at whole
    rw [← whole, List.append_assoc, here] at there
    exact (Prod.mk.inj (Except.ok.inj there)).1

variable {α : Type} [WordCoded α]

def checkpointFront : Reader (TrainingState α × TransformerConfig) := do
  header
  return (← training, ← config)

theorem inverts_checkpointFront : Inverts (checkpointFront (α := α)) (fun _ => True) fun p =>
    ModelFile.header ++ ModelFile.training p.1 ++ ModelFile.config p.2 := by
  rintro bs ⟨s, c⟩ rest
  simp only [checkpointFront, run_bind_ok, run_pure_ok, inverts_header _ _ _,
    inverts_training _ _ _, inverts_config _ _ _, true_and, Written.append_eq_ofBytes]
  constructor
  · rintro ⟨-, _, ⟨f, header, rfl⟩, _, _, ⟨g, training, rfl⟩, _, _, ⟨h, config, rfl⟩, ⟨⟩, rfl⟩
    exact ⟨_, ⟨_, h, ⟨f, g, header, training, rfl⟩, config, rfl⟩, by simp only [List.append_assoc]⟩
  · rintro ⟨_, ⟨_, h, ⟨f, g, header, training, rfl⟩, config, rfl⟩, rfl⟩
    exact ⟨(), g ++ (h ++ rest), ⟨f, header, by simp only [List.append_assoc]⟩, s, h ++ rest,
      ⟨g, training, rfl⟩, c, rest, ⟨h, config, rfl⟩, rfl, rfl⟩

end Reader

namespace Session

variable {α : Type} [Scalar α] [WordCoded α] {w w₁ w₂ : Workspace α}
  {t u : Transformer α VariableId} {into? : Option (Transformer α VariableId)}
  {part rest : List UInt8}

omit [WordCoded α] in
theorem holds_of_target {c : TransformerConfig} (given : ∀ u ∈ into?, w.Holds u)
    (run : outcome (target c into?) w = (.ok t, w₁)) : t.config = c ∧ w₁.Holds t := by
  cases into? with
  | none =>
    obtain ⟨config, holds, -⟩ := holds_buildTransformer run
    exact ⟨config, holds⟩
  | some u =>
    rw [outcome_target_some] at run
    split at run
    · next same =>
      obtain ⟨⟨⟩, ⟨⟩⟩ := run
      exact ⟨same, given _ rfl⟩
    · cases run

theorem config_of_cut {c : TransformerConfig}
    (cut : part <+: (ModelFile.model t.config (w.arrays t)).bytes)
    (opened : (Reader.header *> Reader.config).run part = .ok (c, rest)) : c = t.config :=
  Reader.inverts_front.eq_of_cut
    (fun c => ModelFile.sized_header.append (ModelFile.sized_config c)) _ trivial cut opened

theorem loadModel_cut_not_ok (holds : w.Holds t)
    (cut : part <+: (ModelFile.model t.config (w.arrays t)).bytes)
    (less : part ≠ (ModelFile.model t.config (w.arrays t)).bytes)
    (given : ∀ u ∈ into?, w₁.Holds u) :
    outcome (loadModel part into?) w₁ ≠ (.ok u, w₂) := by
  intro run
  rw [loadModel_eq, map_eq_pure_bind, outcome_bind_eq_ok] at run
  obtain ⟨⟨t', rest⟩, w', unread, -⟩ := run
  obtain ⟨c, xs, w₃, aimed, shapes, -, front, written, rfl⟩ :=
    outcome_loadModelRest_eq_ok.1 unread
  obtain ⟨_, g, fields, counted, rfl⟩ := Written.append_eq_ofBytes.1 written
  have opened := (Reader.inverts_front _ c _).2 ⟨trivial, _, fields, List.append_assoc _ g rest⟩
  obtain rfl := config_of_cut cut opened
  obtain ⟨config, holds'⟩ := holds_of_target given aimed
  have length := (ModelFile.sized_model _ xs).length written
  have most := (ModelFile.sized_model t.config (w.arrays t)).le
  rw [shapes, holds.same_shapes holds' config] at length
  rw [holds.map_shape] at most
  have short : (_ ++ g ++ rest).length < (ModelFile.model t.config (w.arrays t)).bytes.length :=
    Nat.lt_of_le_of_ne cut.length_le fun same => less (cut.eq_of_length same)
  rw [List.length_append] at short
  omega

theorem loadModel_cut (holds : w.Holds t)
    (cut : part <+: (ModelFile.model t.config (w.arrays t)).bytes)
    (less : part ≠ (ModelFile.model t.config (w.arrays t)).bytes)
    (given : ∀ u ∈ into?, w₁.Holds u) :
    ∃ e, (outcome (loadModel part into?) w₁).1 = .error (.format e) := by
  have ends : Ends (loadModel part into?) w₁ := by
    cases opened : (Reader.header *> Reader.config).run part with
    | error e =>
      refine .inr ⟨e, ?_⟩
      rw [loadModel, opened]
      rfl
    | ok r =>
      obtain ⟨causal, p, plan, -⟩ := holds.planned
      rw [← config_of_cut cut opened] at plan
      exact ends_loadModel_of_plan opened plan given
  refine ends.resolve_left ?_
  rintro ⟨u, loaded⟩
  exact loadModel_cut_not_ok holds cut less given (Prod.ext loaded rfl)

variable {o : OptimizerId} {a : Adam α} {s : TrainingState α}

omit [Scalar α] in
theorem run_checkpointFront {c : TransformerConfig} :
    Reader.checkpointFront.run part = .ok ((s, c), rest) ↔
      ∃ r₁ r₂, Reader.header.run part = .ok ((), r₁) ∧
        (Reader.training (α := α)).run r₁ = .ok (s, r₂) ∧ Reader.config.run r₂ = .ok (c, rest) := by
  simp only [Reader.checkpointFront, Reader.run_bind_ok, Reader.run_pure_ok, Prod.mk.injEq]
  constructor
  · rintro ⟨⟨⟩, r₁, header, _, r₂, training, _, _, config, ⟨rfl, rfl⟩, rfl⟩
    exact ⟨r₁, r₂, header, training, config⟩
  · rintro ⟨r₁, r₂, header, training, config⟩
    exact ⟨(), r₁, header, s, r₂, training, c, rest, config, ⟨rfl, rfl⟩, rfl⟩

theorem loadCheckpoint_of_front_error {e : FormatError}
    (failed : (Reader.checkpointFront (α := α)).run part = .error e) (w : Workspace α) :
    (outcome (loadCheckpoint part) w).1 = .error (.format e) := by
  rw [Reader.checkpointFront, StateT.run_bind] at failed
  cases header : Reader.header.run part with
  | error e' =>
    rw [header] at failed
    rw [loadCheckpoint, header, ← Except.error.inj failed]
    rfl
  | ok r =>
    obtain ⟨⟨⟩, r₁⟩ := r
    rw [header] at failed
    rw [loadCheckpoint, outcome_bind_ok (outcome_ofFormat header)]
    dsimp only
    replace failed : (do return (← Reader.training (α := α), ← Reader.config)).run r₁ =
      .error e := failed
    rw [StateT.run_bind] at failed
    cases training : (Reader.training (α := α)).run r₁ with
    | error e' =>
      rw [training] at failed
      obtain rfl : e' = e := Except.error.inj failed
      rfl
    | ok r =>
      obtain ⟨s, r₂⟩ := r
      rw [training] at failed
      rw [outcome_bind_ok (outcome_ofFormat rfl)]
      dsimp only
      replace failed : (do return (s, ← Reader.config)).run r₂ = .error e := failed
      rw [StateT.run_bind] at failed
      cases config : Reader.config.run r₂ with
      | error e' =>
        rw [config] at failed
        obtain rfl : e' = e := Except.error.inj failed
        rfl
      | ok r =>
        rw [config] at failed
        cases failed

omit [Scalar α] in
theorem front_of_cut {c c' : TransformerConfig} {s' : TrainingState α} {xs : List (Adapted α)}
    (cut : part <+: (ModelFile.checkpoint s c xs).bytes)
    (front : Reader.checkpointFront.run part = .ok ((s', c'), rest)) : (s', c') = (s, c) := by
  have sized (p : TrainingState α × TransformerConfig) :=
    (ModelFile.sized_header.append (ModelFile.sized_training p.1)).append
      (ModelFile.sized_config p.2)
  rw [ModelFile.checkpoint] at cut
  exact Reader.inverts_checkpointFront.eq_of_cut sized (s, c) trivial cut front

theorem not_adapted_of_cut (holds : w.Holds t) (tracks : w.Tracks o t a) {written : Written}
    (saved : written =
      ModelFile.checkpoint s t.config (Adapted.ofLists (w.arrays t) a.first a.second))
    (cut : part <+: written.bytes) (less : part ≠ written.bytes) {s' : TrainingState α}
    {r : List UInt8} (front : Reader.checkpointFront.run part = .ok ((s', t.config), r))
    {es : List Expected} (shapes : es.map Expected.shape = t.parameters.map w.shapeOf)
    (xs : List (Adapted α)) : (Reader.adaptedAll es).run r ≠ .ok (xs, rest) := by
  intro read
  obtain ⟨shaped, g, counted, rfl⟩ := (Reader.inverts_adaptedAll es _ xs rest).1 read
  obtain ⟨-, f, opening, rfl⟩ := (Reader.inverts_checkpointFront _ _ _).1 front
  have whole : ModelFile.checkpoint s' t.config xs = .ofBytes (f ++ g) :=
    Written.append_eq_ofBytes.2 ⟨f, g, opening, counted, rfl⟩
  have shaped' : List.Forall₂ Adapted.Shaped xs (t.parameters.map w.shapeOf) := by
    rw [← shapes]
    exact List.forall₂_map_right_iff.2 shaped
  have length := (ModelFile.sized_checkpoint s' t.config shaped').length whole
  have most := (ModelFile.sized_checkpoint s t.config
    (Adapted.shaped_ofLists holds.map_shape tracks.first tracks.second)).le
  rw [← saved] at most
  have short : (f ++ (g ++ rest)).length < written.bytes.length :=
    Nat.lt_of_le_of_ne cut.length_le fun same => less (cut.eq_of_length same)
  rw [← List.append_assoc, List.length_append] at short
  omega

theorem loadCheckpoint_cut (holds : w.Holds t) (tracks : w.Tracks o t a) {written : Written}
    (saved : written =
      ModelFile.checkpoint s t.config (Adapted.ofLists (w.arrays t) a.first a.second))
    (cut : part <+: written.bytes) (less : part ≠ written.bytes) (w₁ : Workspace α) :
    ∃ e, (outcome (loadCheckpoint part) w₁).1 = .error (.format e) := by
  cases front : (Reader.checkpointFront (α := α)).run part with
  | error e => exact ⟨e, loadCheckpoint_of_front_error front w₁⟩
  | ok r =>
    obtain ⟨⟨s', c⟩, r⟩ := r
    have same : (s', c) = (s, t.config) := by
      rw [saved] at cut
      exact front_of_cut cut front
    obtain ⟨rfl, rfl⟩ := Prod.mk.inj same
    obtain ⟨r₁, r₂, header, training, config⟩ := run_checkpointFront.1 front
    obtain ⟨causal, p, plan, -⟩ := holds.planned
    obtain ⟨t', w₂, o', w₃, a', built, made, config', holds', -⟩ := outcome_rebuilt plan
      Adam.defaultBeta₁ Adam.defaultBeta₂ Adam.defaultEps s'.rate w₁
    have shapes : (t'.parameters.map fun v => (⟨(w₃.var v).name, w₃.shapeOf v⟩ : Expected)).map
        Expected.shape = t.parameters.map w.shapeOf := by
      rw [List.map_map, ← holds.same_shapes holds' config']
      rfl
    cases adapted : (Reader.adaptedAll (α := α) (t'.parameters.map fun v =>
        ⟨(w₃.var v).name, w₃.shapeOf v⟩)).run r with
    | error e =>
      refine ⟨e, ?_⟩
      rw [loadCheckpoint, outcome_bind_ok (outcome_ofFormat header)]
      dsimp only
      rw [outcome_bind_ok (outcome_ofFormat training)]
      dsimp only
      rw [outcome_bind_ok (outcome_ofFormat config)]
      dsimp only
      rw [outcome_bind_ok built, outcome_bind_ok made, outcome_bind_ok (outcome_expected _),
        adapted]
      rfl
    | ok r =>
      exact absurd adapted (not_adapted_of_cut holds tracks saved cut less front shapes r.1)

/-- A file that was cut off anywhere is refused, and as a file: no part of what is written for a
model, short of all of it, can be loaded, into a new model or into one that is there, and no such
part of a checkpoint. This holds also for a file that was not written to its end. -/
theorem prefix_refused :
    (∀ (w : Workspace α) (t : Transformer α VariableId), w.Holds t →
      ∃ written, outcome (saveModel t) w = (.ok written, w) ∧
        ∀ part, part <+: written.bytes → part ≠ written.bytes →
          ∀ (w₁ : Workspace α) into?, (∀ u ∈ into?, w₁.Holds u) →
            ∃ e, (outcome (loadModel part into?) w₁).1 = .error (.format e)) ∧
    ∀ (w : Workspace α) (t : Transformer α VariableId) o a iteration loss, w.Holds t →
      w.Tracks o t a →
      ∃ written, outcome (saveCheckpoint t o iteration loss) w = (.ok written, w) ∧
        ∀ part, part <+: written.bytes → part ≠ written.bytes → ∀ w₁ : Workspace α,
          ∃ e, (outcome (loadCheckpoint part) w₁).1 = .error (.format e) := by
  refine ⟨fun w t holds => ⟨_, outcome_saveModel holds.readable, ?_⟩,
    fun w t o a iteration loss holds tracks =>
      ⟨_, outcome_saveCheckpoint holds tracks iteration loss, ?_⟩⟩
  · intro part cut less w₁ into? given
    exact loadModel_cut holds cut less given
  · intro part cut less w₁
    exact loadCheckpoint_cut holds tracks rfl cut less w₁

theorem prefix_refused_least :
    leastWorkspace.Holds leastModel ∧ leastWorkspace.Tracks ⟨0⟩ leastModel leastMoments ∧
    (∃ bytes, outcome (saveModel leastModel) leastWorkspace =
        (.ok (.ofBytes bytes), leastWorkspace) ∧ bytes.length = 168 ∧
      ∀ n < 168, ∃ e, (outcome (loadModel (bytes.take n) none)
        (.empty (fun _ => 0) : Workspace StoredDouble)).1 = .error (.format e)) ∧
    ∃ bytes, outcome (saveCheckpoint leastModel ⟨0⟩ 7 ⟨0x7ff8000000000001⟩) leastWorkspace =
        (.ok (.ofBytes bytes), leastWorkspace) ∧ bytes.length = 284 ∧
      ∀ n < 284, ∃ e, (outcome (loadCheckpoint (bytes.take n))
        (.empty (fun _ => 0) : Workspace StoredDouble)).1 = .error (.format e) := by
  have strict {bytes : List UInt8} {n : Nat} (less : n < bytes.length) : bytes.take n ≠ bytes :=
    fun same => absurd (congrArg List.length same) (by rw [List.length_take]; omega)
  obtain ⟨models, checkpoints⟩ := prefix_refused (α := StoredDouble)
  refine ⟨holds_leastModel, tracks_leastModel, ?_, ?_⟩
  · obtain ⟨written, saved, refused⟩ := models leastWorkspace leastModel holds_leastModel
    obtain ⟨bytes, whole, size⟩ := exists_saved holds_leastModel fitsFile_leastModel
    rw [outcome_saveModel holds_leastModel.readable, whole] at saved
    obtain rfl : Written.ofBytes bytes = written := Except.ok.inj (Prod.mk.inj saved).1
    rw [map_shapeOf_leastModel] at size
    refine ⟨bytes, ?_, size, fun n less => ?_⟩
    · rw [outcome_saveModel holds_leastModel.readable, whole]
    · have length : bytes.length = 168 := size
      exact refused _ (bytes.take_prefix n) (strict (length ▸ less)) (.empty fun _ => 0) none nofun
  · obtain ⟨written, saved, refused⟩ := checkpoints leastWorkspace leastModel ⟨0⟩ leastMoments 7
      ⟨0x7ff8000000000001⟩ holds_leastModel tracks_leastModel
    obtain ⟨bytes, whole, size⟩ := exists_savedCheckpoint holds_leastModel fitsFile_leastModel
      tracks_leastModel ⟨7, ⟨0x7ff8000000000001⟩, (leastWorkspace.optimizer ⟨0⟩).rate⟩ rfl
    have again := outcome_saveCheckpoint holds_leastModel tracks_leastModel 7
      ⟨0x7ff8000000000001⟩
    rw [whole] at again
    obtain rfl : Written.ofBytes bytes = written :=
      Except.ok.inj (Prod.mk.inj (again.symm.trans saved)).1
    rw [map_shapeOf_leastModel] at size
    refine ⟨bytes, again, size, fun n less => ?_⟩
    have length : bytes.length = 284 := size
    exact refused _ (bytes.take_prefix n) (strict (length ▸ less)) (.empty fun _ => 0)

end Session

end DerivativeEngine
