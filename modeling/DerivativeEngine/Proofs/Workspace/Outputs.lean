import DerivativeEngine.Proofs.Workspace.Making

/-! What becomes of variables and operations. A parameter, a temporary and the output of an
operation are each one new variable that can be read, with a gradient of zeros in the same home
exactly if it asks for one; a record is left exactly if the output asks. What does not go through
changes nothing. -/

namespace DerivativeEngine

variable {α : Type} [Scalar α]

/-- An operation as it goes through: its output is new, and it leaves a record exactly if the output
asks for a gradient. -/
structure Workspace.Applies (w w' : Workspace α) (c : ContextId) (op : Operation α VariableId)
    (t : Tensor α) (y : Variable α) (rs : List (TapeRecord α)) : Prop where
  pushes : w.Pushes w' c [t] [y] rs
  fresh : w'.Fresh ⟨w.vars.size⟩ (op.result w.valueOf) (some c)
  data : y.data = ⟨w.tensors.size⟩
  asks : y.requiresGrad = op.operands.any fun v => (w.var v).requiresGrad
  temporary : y.isParameter = false
  unrecorded : y.requiresGrad = false → rs = []
  recorded : y.requiresGrad = true → ∃ saved, rs = [⟨op, ⟨w.vars.size⟩, saved⟩] ∧
    List.Forall₂ (fun x t => w'.Made x (some c) t)
      ((op.map w.valueOf).saved (op.result w.valueOf)) saved

structure Workspace.Adds (w w' : Workspace α) (c : ContextId) (ts : List (Tensor α))
    (y : Variable α) (x : NDArray α) (home : Option ContextId) : Prop where
  pushes : w.Pushes w' c ts [y] []
  fresh : w'.Fresh ⟨w.vars.size⟩ x home
  tensors : ∀ t ∈ ts, t.Sound w' c

theorem Workspace.Adds.sound {w w' : Workspace α} {c : ContextId} {ts : List (Tensor α)}
    {y : Variable α} {x : NDArray α} {home : Option ContextId} (h : w.Adds w' c ts y x home)
    (s : w.Sound c) (here : home = none ∨ home = some c) : w'.Sound c := by
  have new := h.fresh.sound here
  rw [h.pushes.var_new] at new
  refine h.pushes.sound s h.tensors (List.forall_mem_singleton.2 new) (by simp) ?_
  rw [List.append_nil]
  exact s.ordered

namespace Session

variable {w : Workspace α} {c : ContextId}

theorem outcome_mapM_value (w : Workspace α) (op : Operation α VariableId) :
    (∃ e, outcome (op.mapM value) w = (.error e, w)) ∨
      outcome (op.mapM value) w = (.ok (op.map w.valueOf), w) ∧
        ∀ v ∈ op.operands, w.Alive v := by
  have read := outcome_mapM (fun v => outcome_value (w := w) v) op
  rw [read]
  cases arrays : op.mapM fun v =>
      failAs TensorError.lifetime (w.read (w.tensor (w.var v).data)) with
  | error e => exact .inl ⟨e, rfl⟩
  | ok xs =>
    have single : ∀ v x, failAs TensorError.lifetime (w.read (w.tensor (w.var v).data)) = .ok x →
        x = w.valueOf v := by
      intro v x h
      obtain ⟨-, value⟩ := Workspace.read_eq_ok.1 (ok_of_failAs h)
      rw [Workspace.valueOf, value]
      rfl
    obtain ⟨rfl, each⟩ := (Operation.mapM_eq_ok_iff single).1 arrays
    refine .inr ⟨rfl, fun v hv => ?_⟩
    exact (Workspace.read_eq_ok.1 (ok_of_failAs (each v hv))).1

theorem outcome_apply_refused (current : w.current = some c) {op : Operation α VariableId}
    {e : ShapeError} (check : (op.map w.shapeOf).check = .error e) :
    outcome (apply op) w = (.error (.shape e), w) := by
  unfold apply
  rw [outcome_bind_ok (outcome_current current),
    outcome_bind_ok (outcome_mapM_ok outcome_shapeOf op)]
  have refused : outcome (ofShape (α := α) (op.map w.shapeOf).check) w =
      (.error (.shape e), w) := by
    rw [check]
    rfl
  exact outcome_bind_error refused _

theorem outcome_apply (current : w.current = some c) (known : c.index < w.contexts.size)
    {op : Operation α VariableId} (check : (op.map w.shapeOf).check = .ok ())
    (read : outcome (op.mapM value) w = (.ok (op.map w.valueOf), w)) :
    ∃ t y rs w', outcome (apply op) w = (.ok ⟨w.vars.size⟩, w') ∧
      w.Applies w' c op t y rs := by
  have passed : outcome (ofShape (α := α) (op.map w.shapeOf).check) w = (.ok (), w) := by
    rw [check]
    rfl
  have asks := outcome_anyM (fun v => (rfl : outcome (requiresGrad (α := α) v) w =
    (.ok (w.var v).requiresGrad, w))) op.operands
  have computed : (op.map w.valueOf).value = op.result w.valueOf := rfl
  obtain ⟨t, y, w₁, output, pushes₁, fresh₁, data, asks₁, temporary⟩ :=
    outcome_output (op.result w.valueOf) (some c)
      (op.operands.any fun v => (w.var v).requiresGrad) c w
  unfold apply
  rw [outcome_bind_ok (outcome_current current),
    outcome_bind_ok (outcome_mapM_ok outcome_shapeOf op), outcome_bind_ok passed,
    outcome_bind_ok read, outcome_bind_ok asks]
  dsimp only
  rw [computed, ← bind_assoc, outcome_bind_ok output]
  cases needed : op.operands.any fun v => (w.var v).requiresGrad with
  | false =>
    rw [needed] at asks₁
    refine ⟨t, y, [], w₁, rfl, ?_⟩
    exact
      { pushes := pushes₁
        fresh := fresh₁
        data := data
        asks := asks₁.trans needed.symm
        temporary := temporary
        unrecorded := fun _ => rfl
        recorded := fun asked => absurd (asks₁.symm.trans asked) Bool.false_ne_true }
  | true =>
    rw [needed] at asks₁
    obtain ⟨saved, w₂, wrapped, rearranged, made⟩ :=
      outcome_mapM_wrap ((op.map w.valueOf).saved (op.result w.valueOf)) c w₁
    have pushes₂ := pushes₁.trans (rearranged.pushes c)
    have pushes₃ := w₂.pushes_record (pushes₂.contexts ▸ known) ⟨op, ⟨w.vars.size⟩, saved⟩
    have later := (rearranged.pushes c).trans pushes₃
    refine ⟨t, y, [⟨op, ⟨w.vars.size⟩, saved⟩],
      w₂.modifyContext c fun k => k.record ⟨op, ⟨w.vars.size⟩, saved⟩, ?_, ?_⟩
    · rw [if_pos rfl, outcome_bind_ok wrapped]
      rfl
    · exact
        { pushes := pushes₂.trans pushes₃
          fresh := fresh₁.extend later
          data := data
          asks := asks₁.trans needed.symm
          temporary := temporary
          unrecorded := fun unasked => absurd (asks₁.symm.trans unasked) Bool.noConfusion
          recorded := fun _ => ⟨saved, rfl, made.imp fun _ _ h => h.extend pushes₃.grown⟩ }

theorem outcome_apply_cases (current : w.current = some c) (known : c.index < w.contexts.size)
    (op : Operation α VariableId) :
    (∃ e, outcome (apply op) w = (.error e, w)) ∨
      (op.map w.shapeOf).check = .ok () ∧ (∀ v ∈ op.operands, w.Alive v) ∧
        ∃ t y rs w', outcome (apply op) w = (.ok ⟨w.vars.size⟩, w') ∧
          w.Applies w' c op t y rs := by
  cases check : (op.map w.shapeOf).check with
  | error e => exact .inl ⟨_, outcome_apply_refused current check⟩
  | ok u =>
    rcases outcome_mapM_value w op with ⟨e, failed⟩ | ⟨read, alive⟩
    · have passed : outcome (ofShape (α := α) (op.map w.shapeOf).check) w = (.ok (), w) := by
        rw [check]
        rfl
      refine .inl ⟨e, ?_⟩
      unfold apply
      rw [outcome_bind_ok (outcome_current current),
        outcome_bind_ok (outcome_mapM_ok outcome_shapeOf op), outcome_bind_ok passed,
        outcome_bind_error failed]
    · exact .inr ⟨rfl, alive, outcome_apply current known check read⟩

theorem sound_applies (s : w.Sound c) {op : Operation α VariableId}
    (known : ∀ v ∈ op.operands, v.index < w.vars.size)
    (alive : ∀ v ∈ op.operands, w.Alive v) (check : (op.map w.shapeOf).check = .ok ())
    {w' : Workspace α} {t : Tensor α} {y : Variable α} {rs : List (TapeRecord α)}
    (h : w.Applies w' c op t y rs) : w'.Sound c := by
  have grown := h.pushes.grown
  have output : w'.shapeOf ⟨w.vars.size⟩ = (op.result w.valueOf).shape := h.fresh.data.shape
  have held : ∀ r ∈ rs, r.output = ⟨w.vars.size⟩ ∧ r.Sound w' := by
    intro r hr
    cases asked : y.requiresGrad with
    | false => simp [h.unrecorded asked] at hr
    | true =>
      obtain ⟨saved, rfl, made⟩ := h.recorded asked
      obtain rfl := List.mem_singleton.1 hr
      have applied : op.Applied w.shapeOf w.valueOf :=
        ⟨check, fun v hv => (s.value_valueOf (known v hv)).2⟩
      have same : ∀ v ∈ op.operands, w'.shapeOf v = w.shapeOf v := fun v hv =>
        grown.shapeOf (known v hv) (s.vars v (known v hv)).known
      refine ⟨rfl, ?_⟩
      exact
        { known := h.fresh.known
          older := known
          alive := ⟨h.fresh.data.valid, fun v hv =>
            (grown.alive (known v hv) (s.vars v (known v hv)).known).2 (alive v hv)⟩
          applied := ⟨w.valueOf, applied.congr same, output, Workspace.made_values made⟩
          saved := fun u hu => (Workspace.made_of_mem made u hu).elim fun _ made => made.valid }
  refine h.pushes.sound s ?_ ?_ (fun r hr => (held r hr).2) ?_
  · intro u hu
    obtain rfl := List.mem_singleton.1 hu
    have data := h.fresh.data.sound (.inr rfl) (c := c)
    rwa [h.pushes.var_new, h.data, h.pushes.tensor_new] at data
  · intro z hz
    obtain rfl := List.mem_singleton.1 hz
    have sound := h.fresh.sound (.inr rfl) (c := c)
    rwa [h.pushes.var_new] at sound
  · refine List.pairwise_append.2 ⟨s.ordered, ?_, ?_⟩
    · cases asked : y.requiresGrad with
      | false =>
        rw [h.unrecorded asked]
        exact .nil
      | true =>
        obtain ⟨saved, rfl, -⟩ := h.recorded asked
        exact List.pairwise_singleton _ _
    · intro r hr q hq
      rw [(held q hq).1]
      exact (s.tape r hr).known

theorem sound_apply (s : w.Sound c) {op : Operation α VariableId}
    (known : ∀ v ∈ op.operands, v.index < w.vars.size) : (outcome (apply op) w).2.Sound c := by
  rcases outcome_apply_cases s.current s.known op with
    ⟨e, failed⟩ | ⟨check, alive, t, y, rs, w', run, applies⟩
  · rw [failed]
    exact s
  · rw [run]
    exact sound_applies s known alive check applies

omit [Scalar α] in
theorem outcome_readTarget (w : Workspace α) (target : Target α) :
    ∃ x?, outcome (readTarget target) w = (x?, w) := by
  cases target with
  | numbers x => exact ⟨_, rfl⟩
  | tensor t => exact ⟨_, outcome_read (w.tensor t)⟩
  | var v => exact ⟨_, outcome_value v⟩

theorem outcome_mseLoss_cases (current : w.current = some c) (prediction : VariableId)
    (target : Target α) :
    (∃ e, outcome (mseLoss prediction target) w = (.error e, w)) ∨
      ∃ x, outcome (readTarget target) w = (.ok x, w) ∧
        outcome (mseLoss prediction target) w = outcome (apply (.mse x prediction)) w := by
  unfold mseLoss
  rw [outcome_bind_ok (outcome_current current)]
  obtain ⟨x?, found⟩ := outcome_readTarget w target
  cases x? with
  | error e => exact .inl ⟨e, outcome_bind_error found _⟩
  | ok x =>
    rw [outcome_bind_ok found]
    have read := outcome_value (w := w) prediction
    cases held : failAs TensorError.lifetime (w.read (w.tensor (w.var prediction).data)) with
    | error e =>
      rw [held] at read
      exact .inl ⟨e, outcome_bind_error read _⟩
    | ok y =>
      rw [held] at read
      exact .inr ⟨x, found, outcome_bind_ok read _⟩

theorem sound_mseLoss (s : w.Sound c) {prediction : VariableId} {target : Target α}
    (known : prediction.index < w.vars.size) :
    (outcome (mseLoss prediction target) w).2.Sound c := by
  rcases outcome_mseLoss_cases s.current prediction target with ⟨e, failed⟩ | ⟨x, -, same⟩
  · rw [failed]
    exact s
  · rw [same]
    exact sound_apply s fun v hv => List.mem_singleton.1 hv ▸ known

theorem made_of_read (s : w.Sound c) {t : TensorId} (known : t.index < w.tensors.size)
    {x : NDArray α} (read : w.read (w.tensor t) = .ok x) :
    ∃ home, w.Made x home (w.tensor t) ∧
      (home = none ∧ (w.tensor t).isPersistent = true ∨
        home = some c ∧ (w.tensor t).isPersistent = false) := by
  obtain ⟨valid, value⟩ := Workspace.read_eq_ok.1 read
  obtain ⟨⟨y, filled, shape⟩, placed⟩ := s.tensors t known
  obtain rfl : x = y := Option.some.inj (value.symm.trans filled)
  cases place : (w.tensor t).place with
  | none =>
    refine ⟨none, ⟨shape.symm, value, ?_, valid⟩, .inl ⟨rfl, ?_⟩⟩
    · rw [place]
      rfl
    · rw [Tensor.isPersistent, place]
      rfl
  | some p =>
    refine ⟨some c, ⟨shape.symm, value, ?_, valid⟩, .inr ⟨rfl, ?_⟩⟩
    · rw [place, ← (placed p place).1]
      rfl
    · rw [Tensor.isPersistent, place]
      rfl

theorem not_persistent_of_read (s : w.Sound c) {t : TensorId} (known : t.index < w.tensors.size)
    {e : LifetimeError} (read : w.read (w.tensor t) = .error e) :
    (w.tensor t).isPersistent = false := by
  cases place : (w.tensor t).place with
  | some p => simp [Tensor.isPersistent, place]
  | none =>
    obtain ⟨x, value, -⟩ := (s.tensors t known).filled
    have valid : w.Valid (w.tensor t) := by
      intro p hp
      rw [place] at hp
      cases hp
    rw [Workspace.read_eq_ok.2 ⟨valid, value⟩] at read
    cases read

theorem outcome_persistent (s : w.Sound c) {t : TensorId} (known : t.index < w.tensors.size) :
    (∃ e, outcome (persistent t) w = (.error e, w)) ∨
      ∃ d x ts w', outcome (persistent t) w = (.ok d, w') ∧ w.Pushes w' c ts [] [] ∧
        d.index < w'.tensors.size ∧ w'.Made x none (w'.tensor d) ∧ ∀ u ∈ ts, u.Sound w' c := by
  unfold persistent
  rw [outcome_bind_ok (outcome_tensor t)]
  cases read : w.read (w.tensor t) with
  | error e =>
    rw [if_neg (by simp [not_persistent_of_read s known read])]
    exact .inl ⟨_, outcome_clone_error read none⟩
  | ok x =>
    obtain ⟨home, made, ⟨rfl, kept⟩ | ⟨-, placed⟩⟩ := made_of_read s known read
    · rw [if_pos kept]
      exact .inr ⟨t, x, [], w, rfl, (Workspace.Rearranged.refl w).pushes c, known, made, by simp⟩
    · rw [if_neg (by simp [placed]), outcome_clone read]
      obtain ⟨u, w', run, pushes, copy⟩ := outcome_make x none c w
      refine .inr ⟨_, x, [u], w', run, pushes, ?_, ?_, ?_⟩
      · rw [pushes.size_tensors]
        exact Nat.lt_succ_self _
      · rw [pushes.tensor_new]
        exact copy
      · exact List.forall_mem_singleton.2 (copy.sound (.inl rfl))

theorem outcome_parameter (s : w.Sound c) {t : TensorId} (known : t.index < w.tensors.size)
    (name : String) :
    (∃ e, outcome (parameter t name) w = (.error e, w)) ∨
      ∃ ts y x w', outcome (parameter t name) w = (.ok ⟨w.vars.size⟩, w') ∧
        w.Adds w' c ts y x none ∧ y.requiresGrad = true ∧ y.isParameter = true := by
  unfold parameter
  rcases outcome_persistent s known with
    ⟨e, failed⟩ | ⟨d, x, ts, w₁, run, pushes, there, made, sound⟩
  · exact .inl ⟨e, outcome_bind_error failed _⟩
  · obtain ⟨y, w₂, output, pushes₂, fresh, -, kinds⟩ :=
      outcome_variableOn_made there made true true name c
    have size : w₁.vars.size = w.vars.size := pushes.size_vars
    rw [size] at output fresh
    refine .inr ⟨ts, y, x, w₂, (outcome_bind_ok run _).trans output, ?_, kinds⟩
    have all := pushes.trans pushes₂
    rw [List.append_nil] at all
    exact ⟨all, fresh, fun u hu => pushes₂.grown.tensor_sound (sound u hu)⟩

theorem outcome_temporary (s : w.Sound c) {t : TensorId} (known : t.index < w.tensors.size)
    {x : NDArray α} (read : w.read (w.tensor t) = .ok x) (requiresGrad : Bool) :
    ∃ ts y w', outcome (temporary t requiresGrad) w = (.ok ⟨w.vars.size⟩, w') ∧
      w.Adds w' c ts y x (some c) ∧ y.requiresGrad = requiresGrad ∧ y.isParameter = false := by
  unfold temporary
  rw [outcome_bind_ok (outcome_current s.current), outcome_bind_ok (outcome_tensor t)]
  obtain ⟨home, made, ⟨-, kept⟩ | ⟨rfl, placed⟩⟩ := made_of_read s known read
  · have copy : outcome (do variableOn (← clone t (some c)) requiresGrad false "" (some c)) w =
        outcome (do variableOn (← make x (some c)) requiresGrad false "" (some c)) w := by
      rw [outcome_bind, outcome_clone read, ← outcome_bind]
    obtain ⟨u, y, w', run, pushes, fresh, data, kinds⟩ :=
      outcome_output x (some c) requiresGrad c w
    refine ⟨[u], y, w', ?_, ⟨pushes, fresh, ?_⟩, kinds⟩
    · rw [if_pos kept]
      exact copy.trans run
    · have sound := fresh.data.sound (.inr rfl) (c := c)
      rw [pushes.var_new, data, pushes.tensor_new] at sound
      exact List.forall_mem_singleton.2 sound
  · obtain ⟨y, w', run, pushes, fresh, -, kinds⟩ :=
      outcome_variableOn_made known made requiresGrad false "" c
    refine ⟨[], y, w', ?_, ⟨pushes, fresh, by simp⟩, kinds⟩
    rw [if_neg (by simp [placed])]
    exact run

theorem outcome_input_refused {x : NDArray α} {e : ShapeError} (here : w.current = some c)
    (refused : arrange x none = .error e) (requiresGrad : Bool) :
    outcome (input x requiresGrad) w = (.error (.shape e), w) := by
  have check : outcome (ofShape (α := α) (arrange x none)) w = (.error (.shape e), w) := by
    rw [refused]
    rfl
  have failed : outcome (fromData x none (some c)) w = (.error (.shape e), w) :=
    outcome_bind_error check _
  unfold input
  rw [outcome_bind_ok (outcome_current here), outcome_bind_error failed]

theorem arrange_none {x y : NDArray α} (h : arrange x none = .ok y) : y = x := by
  unfold arrange at h
  cases check : Shape.check (x.shape.map Int.ofNat) with
  | error e =>
    rw [check] at h
    cases h
  | ok s =>
    rw [check] at h
    exact (Except.ok.inj h).symm

theorem outcome_input (s : w.Sound c) {x y : NDArray α} (arranged : arrange x none = .ok y)
    (requiresGrad : Bool) :
    ∃ ts y w', outcome (input x requiresGrad) w = (.ok ⟨w.vars.size⟩, w') ∧
      w.Adds w' c ts y x (some c) ∧ y.requiresGrad = requiresGrad ∧ y.isParameter = false := by
  obtain rfl := arrange_none arranged
  have check : outcome (ofShape (α := α) (arrange y none)) w = (.ok y, w) := by
    rw [arranged]
    rfl
  obtain ⟨t, w₁, made, pushes, held⟩ := outcome_make y (some c) c w
  have placed : outcome (fromData y none (some c)) w = (.ok ⟨w.tensors.size⟩, w₁) :=
    (outcome_bind_ok check _).trans made
  have sound : t.Sound w₁ c := held.sound (.inr rfl)
  have s₁ : w₁.Sound c := by
    refine pushes.sound s (List.forall_mem_singleton.2 sound) (by simp) (by simp) ?_
    rw [List.append_nil]
    exact s.ordered
  have known : w.tensors.size < w₁.tensors.size := by
    rw [pushes.size_tensors]
    exact Nat.lt_succ_self _
  have read : w₁.read (w₁.tensor ⟨w.tensors.size⟩) = .ok y := by
    rw [pushes.tensor_new]
    exact Workspace.read_eq_ok.2 ⟨held.valid, held.value⟩
  obtain ⟨ts, z, w₂, run, adds, kinds⟩ := outcome_temporary s₁ known read requiresGrad
  have size : w₁.vars.size = w.vars.size := pushes.size_vars
  have fresh := adds.fresh
  rw [size] at run fresh
  refine ⟨t :: ts, z, w₂, ?_, ⟨pushes.trans adds.pushes, fresh, ?_⟩, kinds⟩
  · unfold input
    rw [outcome_bind_ok (outcome_current s.current), outcome_bind_ok placed]
    exact run
  · exact List.forall_mem_cons.2 ⟨adds.pushes.grown.tensor_sound sound, adds.tensors⟩

theorem outcome_input_cases (s : w.Sound c) (x : NDArray α) (requiresGrad : Bool) :
    (∃ e, outcome (input x requiresGrad) w = (.error e, w)) ∨
      ∃ ts y w', outcome (input x requiresGrad) w = (.ok ⟨w.vars.size⟩, w') ∧
        w.Adds w' c ts y x (some c) ∧ y.requiresGrad = requiresGrad ∧ y.isParameter = false := by
  cases arranged : arrange x none with
  | error e => exact .inl ⟨_, outcome_input_refused s.current arranged requiresGrad⟩
  | ok y => exact .inr (outcome_input s arranged requiresGrad)

theorem sound_parameter (s : w.Sound c) {t : TensorId} (known : t.index < w.tensors.size)
    (name : String) : (outcome (parameter t name) w).2.Sound c := by
  rcases outcome_parameter s known name with ⟨e, failed⟩ | ⟨ts, y, x, w', run, adds, -⟩
  · rw [failed]
    exact s
  · rw [run]
    exact adds.sound s (.inl rfl)

theorem sound_temporary (s : w.Sound c) {t : TensorId} (known : t.index < w.tensors.size)
    (requiresGrad : Bool) : (outcome (temporary t requiresGrad) w).2.Sound c := by
  cases read : w.read (w.tensor t) with
  | ok x =>
    obtain ⟨ts, y, w', run, adds, -⟩ := outcome_temporary s known read requiresGrad
    rw [run]
    exact adds.sound s (.inr rfl)
  | error e =>
    have placed := not_persistent_of_read s known read
    obtain ⟨grad, w', run, pushes, isSome, zeros⟩ :=
      outcome_variableOn t requiresGrad false "" (some c) c w
    have taken : outcome (temporary t requiresGrad) w = (.ok ⟨w.vars.size⟩, w') := by
      unfold temporary
      rw [outcome_bind_ok (outcome_current s.current), outcome_bind_ok (outcome_tensor t),
        if_neg (by simp [placed])]
      exact run
    have old := pushes.grown.tensor_sound (s.tensors t known)
    have same := pushes.tensor_old known
    rw [taken]
    refine pushes.sound s (by simp) (List.forall_mem_singleton.2 ?_) (by simp) ?_
    · exact
        { known := Nat.lt_of_lt_of_le known pushes.grown.tensors
          asked := by
            intro unasked
            rw [← isSome] at unasked
            simpa using unasked
          grad := by
            intro g hg
            have made := zeros g hg
            refine ⟨made.sound (.inr rfl), ?_, made.outlasts (c := c) ?_ (.inr ⟨rfl, ?_⟩)⟩
            · rw [made.shape, same]
              rfl
            · rw [same]
              exact old
            · rw [same]
              simpa [Tensor.isPersistent, Option.isNone_iff_eq_none, Option.isSome_iff_ne_none]
                using placed }
    · rw [List.append_nil]
      exact s.ordered

end Session

end DerivativeEngine
