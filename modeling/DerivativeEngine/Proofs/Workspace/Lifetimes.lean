import DerivativeEngine.Proofs.Workspace.Backward

/-! How long tensors can be read. A program makes parameters, temporaries and outputs of operations,
runs reverse sweeps, lets optimizers step and ends iterations, in any order, and frees nothing. What
belongs to a parameter is persistent and can always be read. What belongs to any other variable, and
what was saved for the reverse of the operation that made it, has its place in the arena, in the
generation it was made in: it can be read until the next reset of the arena, and never after it. -/

namespace DerivativeEngine

variable {α : Type}

inductive Event (α : Type) where
  | tensor (x : NDArray α) (inArena : Bool)
  | parameter (t : TensorId) (name : String)
  | temporary (t : TensorId) (requiresGrad : Bool)
  /-- A temporary on data that are in no tensor yet. -/
  | input (x : NDArray α) (requiresGrad : Bool)
  | apply (op : Operation α VariableId)
  | mseLoss (prediction : VariableId) (target : Target α)
  | backward (loss? : Option VariableId)
  | zeroGrad (v : VariableId)
  | newOptimizer (parameters : List VariableId) (choice : RuleChoice α) (rate : α)
  | zeroGrads (o : OptimizerId)
  | step (o : OptimizerId)
  | resetIteration

namespace Event

section

variable [Scalar α]

def run : Event α → Session α Unit
  | tensor x inArena => discard do
    let c ← Session.current
    Session.make x (if inArena then some c else none)
  | parameter t name => discard (Session.parameter t name)
  | temporary t requiresGrad => discard (Session.temporary t requiresGrad)
  | input x requiresGrad => discard (Session.input x requiresGrad)
  | apply op => discard (Session.apply op)
  | mseLoss prediction target => discard (Session.mseLoss prediction target)
  | backward loss? => Session.backward loss?
  | zeroGrad v => Session.zeroGrad v
  | newOptimizer parameters choice rate => discard (Session.newOptimizer parameters choice rate)
  | zeroGrads o => Session.zeroGrads o
  | step o => Session.step o
  | resetIteration => Session.resetIteration

/-- The number of resets of the arena: one for the end of an iteration, unless the end fails, as it
does for a period of zero. -/
def resets : Event α → Workspace α → Nat
  | resetIteration, w => Session.completed (Session.outcome Session.resetIteration w).1
  | _, _ => 0

end

/-- What is named was made before, and a temporary is made from persistent data, if from a tensor.
-/
def Known (w : Workspace α) : Event α → Prop
  | parameter t _ => t.index < w.tensors.size
  | temporary t _ => t.index < w.tensors.size ∧ (w.tensor t).isPersistent = true
  | apply op => ∀ v ∈ op.operands, v.index < w.vars.size
  | mseLoss prediction _ => prediction.index < w.vars.size
  | _ => True

instance (w : Workspace α) (e : Event α) : Decidable (e.Known w) :=
  match e with
  | parameter t _ => inferInstanceAs (Decidable (t.index < w.tensors.size))
  | temporary t _ =>
    inferInstanceAs (Decidable (t.index < w.tensors.size ∧ (w.tensor t).isPersistent = true))
  | apply op => inferInstanceAs (Decidable (∀ v ∈ op.operands, v.index < w.vars.size))
  | mseLoss prediction _ => inferInstanceAs (Decidable (prediction.index < w.vars.size))
  | tensor _ _ | input _ _ | backward _ | zeroGrad _ | newOptimizer _ _ _ | zeroGrads _ | step _
  | resetIteration => inferInstanceAs (Decidable True)

def makesParameter : Event α → Bool
  | parameter .. => true
  | _ => false

def home (e : Event α) (c : ContextId) : Option ContextId :=
  if e.makesParameter then none else some c

end Event

variable [Scalar α]

/-- What an event does to a workspace: nothing that was there is moved, and a variable that is new
is as it is made. -/
structure Event.Effect (e : Event α) (c : ContextId) (w w' : Workspace α) : Prop where
  sound : w'.Sound c
  keeps : w.Keeps w'
  generation : w'.generation c = w.generation c + e.resets w
  fresh : ∀ v : VariableId, w.vars.size ≤ v.index → v.index < w'.vars.size →
    (∃ x, w'.Fresh v x (e.home c)) ∧ (w'.var v).isParameter = e.makesParameter ∧
      (e.makesParameter = true → (w'.var v).requiresGrad = true)
  saved : ∀ r ∈ w'.tape c, w.vars.size ≤ r.output.index → ∀ t ∈ r.saved,
    ∃ x, w'.Made x (some c) t

namespace Event.Effect

variable {e : Event α} {w w' : Workspace α} {c : ContextId}

theorem old_record (s : w.Sound c) {r : TapeRecord α} (hr : r ∈ w.tape c)
    (new : w.vars.size ≤ r.output.index) : False :=
  absurd (s.tape r hr).known (Nat.not_lt.2 new)

theorem of_refills (s : w.Sound c) (h : w.Refills w') (none : e.resets w = 0) :
    e.Effect c w w' where
  sound := h.sound s
  keeps := h.toKeeps
  generation := by rw [h.grown.generation, none, Nat.add_zero]
  fresh v new known := by
    rw [h.size_vars] at known
    omega
  saved r hr new := by
    rw [Workspace.tape, h.context] at hr
    exact (old_record s hr new).elim

theorem unchanged (s : w.Sound c) (none : e.resets w = 0) : e.Effect c w w :=
  of_refills s (refl_of Workspace.Refills w) none

theorem of_tensor {t : Tensor α} (s : w.Sound c) (sound : t.Sound w' c)
    (h : w.Pushes w' c [t] [] []) (none : e.resets w = 0) : e.Effect c w w' where
  sound := by
    refine h.sound s (List.forall_mem_singleton.2 sound) (by simp) (by simp) ?_
    rw [List.append_nil]
    exact s.ordered
  keeps := h.keeps
  generation := by rw [h.generation, none, Nat.add_zero]
  fresh v new known := by
    rw [h.size_vars] at known
    exact absurd known (Nat.not_lt.2 new)
  saved r hr new := by
    rw [h.tape, List.append_nil] at hr
    exact (old_record s hr new).elim

theorem of_fresh {ts : List (Tensor α)} {y : Variable α} {rs : List (TapeRecord α)} {x : NDArray α}
    (s : w.Sound c) (sound : w'.Sound c) (pushes : w.Pushes w' c ts [y] rs)
    (fresh : w'.Fresh ⟨w.vars.size⟩ x (e.home c)) (kind : y.isParameter = e.makesParameter)
    (asks : e.makesParameter = true → y.requiresGrad = true) (none : e.resets w = 0)
    (saved : ∀ r ∈ rs, ∀ t ∈ r.saved, ∃ x, w'.Made x (some c) t) : e.Effect c w w' where
  sound := sound
  keeps := pushes.keeps
  generation := by rw [pushes.generation, none, Nat.add_zero]
  fresh v new known := by
    rw [pushes.size_vars] at known
    obtain rfl : v = ⟨w.vars.size⟩ :=
      congrArg VariableId.mk (Nat.le_antisymm (Nat.le_of_lt_succ known) new)
    rw [pushes.var_new]
    exact ⟨⟨x, fresh⟩, kind, asks⟩
  saved r hr new := by
    rw [pushes.tape] at hr
    rcases List.mem_append.1 hr with old | here
    · exact (old_record s old new).elim
    · exact saved r here

theorem of_adds {ts : List (Tensor α)} {y : Variable α} {x : NDArray α} (s : w.Sound c)
    (h : w.Adds w' c ts y x (e.home c)) (kind : y.isParameter = e.makesParameter)
    (asks : e.makesParameter = true → y.requiresGrad = true) (none : e.resets w = 0) :
    e.Effect c w w' := by
  have here : e.home c = Option.none ∨ e.home c = some c := by
    unfold Event.home
    split
    · exact .inl rfl
    · exact .inr rfl
  exact of_fresh s (h.sound s here) h.pushes h.fresh kind asks none (by simp)

theorem of_apply (s : w.Sound c) {op : Operation α VariableId}
    (known : ∀ v ∈ op.operands, v.index < w.vars.size) (kind : e.makesParameter = false)
    (none : e.resets w = 0) : e.Effect c w (Session.outcome (Session.apply op) w).2 := by
  have home : e.home c = some c := by
    rw [Event.home, kind]
    rfl
  rcases Session.outcome_apply_cases s.current s.known op with
    ⟨e, failed⟩ | ⟨check, alive, t, y, rs, w', run, applies⟩
  · rw [failed]
    exact unchanged s none
  · rw [run]
    refine of_fresh s (Session.sound_applies s known alive check applies) applies.pushes
      (home ▸ applies.fresh) (applies.temporary.trans kind.symm) (by simp [kind]) none ?_
    intro r hr
    cases asked : y.requiresGrad with
    | false => simp [applies.unrecorded asked] at hr
    | true =>
      obtain ⟨saved, rfl, made⟩ := applies.recorded asked
      obtain rfl := List.mem_singleton.1 hr
      exact Workspace.made_of_mem made

end Event.Effect

open Session in
theorem Event.effect {w : Workspace α} {c : ContextId} (s : w.Sound c) {e : Event α}
    (known : e.Known w) : e.Effect c w (outcome e.run w).2 := by
  cases e with
  | tensor x inArena =>
    have here : (if inArena then some c else none) = none ∨
        (if inArena then some c else none) = some c := by
      cases inArena with
      | false => exact .inl rfl
      | true => exact .inr rfl
    obtain ⟨t, w', made, pushes, held⟩ := outcome_make x (if inArena then some c else none) c w
    rw [run, outcome_discard, outcome_bind_ok (outcome_current s.current), made]
    exact .of_tensor s (held.sound here) pushes rfl
  | parameter t name =>
    rw [run, outcome_discard]
    rcases outcome_parameter s known name with ⟨e, failed⟩ | ⟨ts, y, x, w', run, adds, asks, kind⟩
    · rw [failed]
      exact .unchanged s rfl
    · rw [run]
      exact .of_adds s adds kind (fun _ => asks) rfl
  | temporary t requiresGrad =>
    rw [run, outcome_discard]
    obtain ⟨x, read⟩ : ∃ x, w.read (w.tensor t) = .ok x := by
      cases read : w.read (w.tensor t) with
      | ok x => exact ⟨x, rfl⟩
      | error e =>
        have kept := known.2
        rw [not_persistent_of_read s known.1 read] at kept
        cases kept
    obtain ⟨ts, y, w', run, adds, -, kind⟩ := outcome_temporary s known.1 read requiresGrad
    rw [run]
    exact .of_adds s adds kind nofun rfl
  | input x requiresGrad =>
    rw [run, outcome_discard]
    rcases outcome_input_cases s x requiresGrad with ⟨e, failed⟩ | ⟨ts, y, w', run, adds, -, kind⟩
    · rw [failed]
      exact .unchanged s rfl
    · rw [run]
      exact .of_adds s adds kind nofun rfl
  | apply op =>
    rw [run, outcome_discard]
    exact .of_apply s known rfl rfl
  | mseLoss prediction target =>
    rw [run, outcome_discard]
    rcases outcome_mseLoss_cases s.current prediction target with ⟨e, failed⟩ | ⟨x, -, same⟩
    · rw [failed]
      exact .unchanged s rfl
    · rw [same]
      exact .of_apply s (fun v hv => List.mem_singleton.1 hv ▸ known) rfl rfl
  | backward loss? => exact .of_refills s (refills_backward s.current loss?) rfl
  | zeroGrad v => exact .of_refills s (refills_zeroGrad v w) rfl
  | newOptimizer parameters choice rate =>
    rw [run, outcome_discard]
    exact .of_refills s (refills_newOptimizer parameters choice rate w) rfl
  | zeroGrads o => exact .of_refills s (refills_zeroGrads o w) rfl
  | step o => exact .of_refills s (refills_step o w) rfl
  | resetIteration =>
    have ends := ends_resetIteration s.current s.known
    exact
      { sound := ends.sound s
        keeps := .of_eq ends.tensors ends.vars
        generation := ends.generation
        fresh := by
          intro v new known
          rw [run, ends.vars] at known
          omega
        saved := by
          intro r hr
          rw [run, ends.tape] at hr
          cases hr }

namespace Workspace

/-- From the first workspace a program can come to the other, over so many resets of the arena. -/
inductive Runs : Workspace α → Nat → Workspace α → Prop
  | refl (w : Workspace α) : Runs w 0 w
  | step {w w' : Workspace α} {n : Nat} {e : Event α} (before : Runs w n w') (known : e.Known w') :
    Runs w (n + e.resets w') (Session.outcome e.run w').2

/-- What holds whenever nothing was freed and no gradient was taken away: a variable has a gradient
exactly if it asks for one, and a parameter asks, and is persistent. -/
structure Kept (w : Workspace α) (c : ContextId) : Prop where
  sound : w.Sound c
  asked : ∀ v : VariableId, v.index < w.vars.size →
    (w.var v).grad.isSome = (w.var v).requiresGrad
  parameter : ∀ v : VariableId, v.index < w.vars.size → (w.var v).isParameter = true →
    (w.var v).requiresGrad = true ∧ (w.tensor (w.var v).data).place = none

variable {w w' : Workspace α} {c : ContextId}

theorem kept_ofContext (arena : Arena) (period : Int) (draws : Draws) :
    (ofContext (.ofArena arena period) draws : Workspace α).Kept ⟨0⟩ where
  sound := (Reachable.start arena period draws).sound
  asked _ known := absurd known (Nat.not_lt_zero _)
  parameter _ known := absurd known (Nat.not_lt_zero _)

theorem Kept.effect {e : Event α} (k : w.Kept c) (h : e.Effect c w w') : w'.Kept c where
  sound := h.sound
  asked v known := by
    by_cases old : v.index < w.vars.size
    · rw [h.keeps.isSome v old, h.keeps.requiresGrad old, k.asked v old]
    · obtain ⟨⟨x, fresh⟩, -⟩ := h.fresh v (Nat.le_of_not_lt old) known
      exact fresh.asked
  parameter v known kind := by
    by_cases old : v.index < w.vars.size
    · rw [h.keeps.isParameter old] at kind
      obtain ⟨asks, place⟩ := k.parameter v old kind
      have data := h.keeps.tensor _ (k.sound.vars v old).known
      rw [h.keeps.requiresGrad old, h.keeps.data old, data.place]
      exact ⟨asks, place⟩
    · obtain ⟨⟨x, fresh⟩, made, asks⟩ := h.fresh v (Nat.le_of_not_lt old) known
      rw [made] at kind
      have home := fresh.data.home
      rw [Event.home, if_pos kind, Option.map_eq_none_iff] at home
      exact ⟨asks kind, home⟩

/-- Nothing is moved in a whole run, and the generation counts the resets. -/
theorem Runs.kept {n : Nat} (h : w.Runs n w') (k : w.Kept c) :
    w'.Kept c ∧ w.Keeps w' ∧ w'.generation c = w.generation c + n := by
  induction h with
  | refl => exact ⟨k, .refl w, rfl⟩
  | step before known ih =>
    obtain ⟨kept, keeps, generation⟩ := ih
    have effect := Event.effect kept.sound known
    refine ⟨kept.effect effect, keeps.trans effect.keeps, ?_⟩
    rw [effect.generation, generation, Nat.add_assoc]

def Readable (w : Workspace α) (t : Tensor α) : Prop :=
  ∃ x, Session.outcome (Session.read t) w = (.ok x, w)

/-- Whoever reads is told that the arena was reset. -/
def Gone (w : Workspace α) (t : Tensor α) : Prop :=
  ∃ b, Session.outcome (Session.read t) w = (.error (.lifetime (.stale b)), w)

omit [Scalar α] in
theorem readable_of_valid {t : Tensor α} (valid : w.Valid t) (filled : t.Filled) :
    w.Readable t := by
  obtain ⟨x, value, -⟩ := filled
  exact ⟨x, Session.outcome_read_ok valid value⟩

omit [Scalar α] in
theorem gone_of_place {t : Tensor α} {p : Place} (place : t.place = some p)
    (stale : p.block.generation ≠ w.generation p.context) : w.Gone t := by
  refine ⟨⟨p.block.generation, w.generation p.context⟩, ?_⟩
  have check : w.checkPlace t =
      .error (.stale ⟨p.block.generation, w.generation p.context⟩) := by
    have invalid : ((w.context p.context).arena.isValid p.block) = false := by
      simpa [Arena.isValid, generation] using stale
    unfold checkPlace
    rw [place]
    simp only [Arena.check, invalid]
    rfl
  rw [Session.outcome_read, read, check]
  rfl

omit [Scalar α] in
theorem reading_of_made {t t' : Tensor α} {x : NDArray α} {n : Nat} (made : w.Made x (some c) t)
    (later : t.Refills t') (generation : w'.generation c = w.generation c + n) :
    (n = 0 → w'.Readable t') ∧ (0 < n → w'.Gone t') := by
  obtain ⟨p, place, home⟩ := Option.map_eq_some_iff.1 made.home
  have now : p.block.generation = w.generation c := home ▸ made.valid p place
  refine ⟨fun none => readable_of_valid ?_ (later.filled ⟨x, made.value, made.shape.symm⟩),
    fun some => gone_of_place (later.place.trans place) ?_⟩
  · intro q hq
    rw [later.place, place] at hq
    obtain rfl := Option.mem_some.1 hq
    rw [home, now, generation, none, Nat.add_zero]
  · rw [home, now, generation]
    omega

omit [Scalar α] in
theorem readable_of_made {t t' : Tensor α} {x : NDArray α} (made : w.Made x none t)
    (later : t.Refills t') : w'.Readable t' := by
  refine readable_of_valid ?_ (later.filled ⟨x, made.value, made.shape.symm⟩)
  intro q hq
  rw [later.place, Option.map_eq_none_iff.1 made.home] at hq
  cases hq

/-- The data of a variable, and its gradient if there is one. -/
def belongings (w : Workspace α) (v : VariableId) : List (Tensor α) :=
  w.tensor (w.var v).data :: (w.var v).grad.toList

/-- What was saved for the reverse of the operation that gave the variable. -/
def activations (w : Workspace α) (v : VariableId) : List (Tensor α) :=
  (w.recorded.filter fun r => r.output = v).flatMap TapeRecord.saved

theorem Fresh.belongings {v : VariableId} {x : NDArray α} {home : Option ContextId}
    (h : w.Fresh v x home) (later : w.Keeps w') :
    ∀ t' ∈ w'.belongings v, ∃ t y, w.Made y home t ∧ t.Refills t' := by
  refine List.forall_mem_cons.2 ⟨?_, fun g' hg' => ?_⟩
  · rw [later.data h.known]
    exact ⟨_, x, h.data, later.tensor _ h.there⟩
  · have hg' := Option.mem_toList.1 hg'
    have there : (w.var v).grad.isSome = true := by
      rw [← later.isSome v h.known, hg']
      rfl
    obtain ⟨g, hg⟩ := Option.isSome_iff_exists.1 there
    exact ⟨g, _, h.grad g hg, later.grad v h.known g hg g' hg'⟩

/-- In every run, a variable has a gradient exactly if it asks for one, in the shape of its data.
What belongs to a parameter, a gradient among it, can always be read. What belongs to any other
variable, and what was saved for it, can be read until the first reset after the event that made it,
and every later attempt fails. -/
theorem Runs.lifetimes {arena : Arena} {period : Int} {draws : Draws} {m n : Nat} {e : Event α}
    (reached : Runs (ofContext (.ofArena arena period) draws) m w) (known : e.Known w)
    (later : Runs (Session.outcome e.run w).2 n w') :
    (∀ v : VariableId, v.index < w'.vars.size →
      (w'.var v).grad.isSome = (w'.var v).requiresGrad ∧
        ∀ g ∈ (w'.var v).grad, g.shape = w'.shapeOf v) ∧
    ∀ v : VariableId, w.vars.size ≤ v.index → v.index < (Session.outcome e.run w).2.vars.size →
      (e.makesParameter = true →
        (w'.var v).grad.isSome = true ∧ ∀ t ∈ w'.belongings v, w'.Readable t) ∧
      (e.makesParameter = false →
        ∀ t ∈ w'.belongings v ++ (Session.outcome e.run w).2.activations v,
          (n = 0 → w'.Readable t) ∧ (0 < n → w'.Gone t)) := by
  obtain ⟨kept, -, -⟩ := reached.kept (kept_ofContext arena period draws)
  have effect := Event.effect kept.sound known
  obtain ⟨kept', keeps, generation⟩ := later.kept (kept.effect effect)
  refine ⟨fun v there => ⟨kept'.asked v there, fun g hg => ?_⟩, fun v new there => ?_⟩
  · exact ((kept'.sound.vars v there).grad g hg).2.1
  · obtain ⟨⟨x, fresh⟩, made, asks⟩ := effect.fresh v new there
    refine ⟨fun kind => ⟨?_, fun t ht => ?_⟩, fun kind t ht => ?_⟩
    · rw [keeps.isSome v there, fresh.asked, asks kind]
    · obtain ⟨u, y, made, refilled⟩ := fresh.belongings keeps t ht
      rw [Event.home, if_pos kind] at made
      exact readable_of_made made refilled
    · rcases List.mem_append.1 ht with own | saved
      · obtain ⟨u, y, made, refilled⟩ := fresh.belongings keeps t own
        rw [Event.home, if_neg (by simp [kind])] at made
        exact reading_of_made made refilled generation
      · obtain ⟨r, hr, ht⟩ := List.mem_flatMap.1 saved
        obtain ⟨hr, output⟩ := List.mem_filter.1 hr
        have output : r.output = v := by simpa using output
        rw [recorded, effect.sound.current] at hr
        obtain ⟨y, made⟩ := effect.saved r hr (output ▸ new) t ht
        exact reading_of_made made (.refl t) generation

def three : Workspace Float :=
  let start := .ofContext (.ofArena (.ofChunkSize 64) 10) fun _ => 0
  let tensor := (Session.outcome (Event.tensor (.fill [1] 3) false).run start).2
  (Session.outcome (Event.parameter ⟨0⟩ "x").run tensor).2

theorem known_three : (Event.parameter ⟨0⟩ "x").Known
    (Session.outcome (Event.tensor (.fill [1] (3 : Float)) false).run
      (ofContext (.ofArena (.ofChunkSize 64) 10) fun _ => 0)).2 := by
  decide +kernel

theorem runs_three : Runs (ofContext (.ofArena (.ofChunkSize 64) 10) fun _ => 0) 0 three :=
  ((Runs.refl _).step (e := .tensor (.fill [1] 3) false) trivial).step known_three

def square : Event Float := .apply (.multiply ⟨0⟩ ⟨0⟩)

theorem lifetimes_square :
    Runs (ofContext (.ofArena (.ofChunkSize 64) 10) fun _ => 0) 0 three ∧ square.Known three ∧
      ∃ w', Runs (Session.outcome square.run three).2 1 w' ∧
        (w'.belongings ⟨1⟩).length = 2 ∧
        ((Session.outcome square.run three).2.activations ⟨1⟩).length = 2 ∧
        (∀ t ∈ w'.belongings ⟨0⟩, w'.Readable t) ∧
        ∀ t ∈ w'.belongings ⟨1⟩ ++ (Session.outcome square.run three).2.activations ⟨1⟩,
          w'.Gone t := by
  have tensor :=
    (Runs.refl (ofContext (.ofArena (.ofChunkSize 64) 10) (fun _ => 0) : Workspace Float)).step
      (e := .tensor (.fill [1] 3) false) trivial
  have known : square.Known three := by decide +kernel
  have after := (Runs.refl (Session.outcome square.run three).2).step
    (e := .resetIteration) trivial
  have once : 0 + Event.resetIteration.resets (Session.outcome square.run three).2 = 1 := by
    decide +kernel
  rw [once] at after
  have parameter := (Runs.lifetimes tensor known_three
    ((Runs.refl three).step known |>.step (e := .resetIteration) trivial)).2 ⟨0⟩
  have lifetimes := (Runs.lifetimes runs_three known after).2 ⟨1⟩ (by decide +kernel)
    (by decide +kernel)
  refine ⟨runs_three, known, _, after, by decide +kernel, by decide +kernel, ?_, fun t ht => ?_⟩
  · exact ((parameter (by decide +kernel) (by decide +kernel)).1 rfl).2
  · exact (lifetimes.2 rfl t ht).2 Nat.one_pos

end Workspace

end DerivativeEngine
