import DerivativeEngine.Proofs.Training.Iteration
import DerivativeEngine.Proofs.Workspace.Allocation

/-! Iterations do not depend on what was before them. Once an iteration is over, the tape is empty,
and a pass over parameters sees nothing of the workspace but their values: it comes to what it comes
to in a fresh context, where nothing was made but parameters of the same values, and adds the same
to their gradients. So gradients that were set to zero before are those of the fresh context, and
gradients that were not have what every iteration added, one after another. -/

namespace DerivativeEngine

variable {α : Type} {m n : Nat} [Scalar α]

namespace Session

def parameters (values : Fin n → NDArray α) : Session α Unit :=
  (List.ofFn values).forM fun x => discard (make x none >>= fun t => parameter t "")

end Session

def Numbering.first (n : Nat) : Numbering n := fun i => ⟨i⟩

/-- The gradient of a parameter of this value that had a gradient of zeros. -/
def Iteration.own (it : Iteration α n) (i : Fin n) (x : NDArray α) : NDArray α :=
  it.gradient i (.fill x.shape 0)

namespace Forward

def gradients (P : Forward α n) (ps : Numbering n) :
    Session α (Iteration α n × (Fin n → Option (NDArray α))) := do
  let it ← P.iterate ps
  let w ← get
  return (it, fun i => w.gradient? (ps i))

/-- On its own, the iteration has parameters of these values and gradients of zeros, in a context in
which nothing else was made. -/
def alone (P : Forward α n) (k : Context α) (draws : Draws) (values : Fin n → NDArray α) :
    Except TensorError (Iteration α n × (Fin n → Option (NDArray α))) :=
  (Session.outcome (do
    Session.parameters values
    P.gradients (.first n)) (.ofContext k draws)).1

/-- With the optimizers that step when it is done. What is told is which values the parameters had
in it, and what it came to. -/
def iteration (ps : Numbering n) (P : Forward α n × List OptimizerId) :
    Session α ((Fin n → NDArray α) × Iteration α n) := do
  let w ← get
  let it ← P.1.iterate ps
  P.2.forM Session.step
  Session.resetIteration
  return (fun i => w.valueOf (ps i), it)

def iterations (ps : Numbering n) (Ps : List (Forward α n × List OptimizerId)) :
    Session α (List ((Fin n → NDArray α) × Iteration α n)) :=
  Ps.mapM (iteration ps)

end Forward

namespace Workspace

variable {w w' w₁ : Workspace α} {c c' : ContextId} {ps ps' : Numbering n}

theorem Runs.trans {w'' : Workspace α} {k l : Nat} (h : w.Runs k w') (h' : w'.Runs l w'') :
    w.Runs (k + l) w'' := by
  induction h' with
  | refl => exact h
  | step _ known ih =>
    rw [← Nat.add_assoc]
    exact ih.step known

def Reaches (w w' : Workspace α) : Prop := ∃ k, w.Runs k w'

instance : IsPreorder (Workspace α) Reaches where
  refl w := ⟨0, .refl w⟩
  trans _ _ _ := fun ⟨_, h⟩ ⟨_, h'⟩ => ⟨_, h.trans h'⟩

theorem Reaches.kept (h : w.Reaches w') (k : w.Kept c) : w'.Kept c ∧ w.Keeps w' := by
  obtain ⟨_, runs⟩ := h
  obtain ⟨kept, keeps, -⟩ := runs.kept k
  exact ⟨kept, keeps⟩

theorem reaches_event {e : Event α} (known : e.Known w) : Session.Leads Reaches e.run w :=
  ⟨_, (Runs.refl w).step known⟩

theorem reaches_run (P : Forward α m) {ρ : Numbering m} {w : Workspace α} (k : w.Kept c)
    (known : ∀ i, (ρ i).index < w.vars.size) : Session.Leads Reaches (P.run ρ) w := by
  induction P generalizing w with
  | loss k => exact .of_reads rfl
  | input x requiresGrad next ih =>
    have made : Session.Leads Reaches (Session.input x requiresGrad) w := by
      have event := reaches_event (e := .input x requiresGrad) (w := w) trivial
      rwa [Session.Leads, Event.run, Session.outcome_discard] at event
    refine made.bind fun v w₁ run => ?_
    rw [Session.Leads, run] at made
    rcases Session.outcome_input_cases k.sound x requiresGrad with
      ⟨e, failed⟩ | ⟨ts, y, w', run', adds, -⟩
    · cases failed.symm.trans run
    · cases run'.symm.trans run
      exact ih (made.kept k).1 (adds.pushes.known_snoc known)
  | apply op next ih =>
    have operands : ∀ v ∈ (op.map ρ).operands, v.index < w.vars.size := by
      rw [Operation.operands_map]
      exact List.forall_mem_map.2 fun i _ => known i
    have made : Session.Leads Reaches (Session.apply (op.map ρ)) w := by
      have event := reaches_event (e := .apply (op.map ρ)) operands
      rwa [Session.Leads, Event.run, Session.outcome_discard] at event
    refine made.bind fun v w₁ run => ?_
    rw [Session.Leads, run] at made
    rcases Session.outcome_apply_cases k.sound.current k.sound.known (op.map ρ) with
      ⟨e, failed⟩ | ⟨-, -, t, y, rs, w', run', applies⟩
    · cases failed.symm.trans run
    · cases run'.symm.trans run
      exact ih (made.kept k).1 (applies.pushes.known_snoc known)
  | read k' next ih => exact .after (Session.outcome_value (ρ k')) fun x _ => ih x k known

theorem reaches_iterate (P : Forward α n) (k : w.Kept c)
    (known : ∀ i, (ps i).index < w.vars.size) : Session.Leads Reaches (P.iterate ps) w := by
  refine (reaches_run P k known).bind fun loss w₁ _ => ?_
  refine .after (Session.outcome_value loss) fun x _ => .after Session.outcome_get fun _ _ => ?_
  exact (reaches_event (e := .backward (some loss)) trivial).bind fun _ _ _ => .of_reads rfl

/-- Nothing is recorded, and these are parameters, no two of them the same. -/
structure Ready (w : Workspace α) (c : ContextId) (ps : Numbering n) : Prop where
  kept : w.Kept c
  empty : w.tape c = []
  distinct : Function.Injective ps
  known : ∀ i, (ps i).index < w.vars.size
  parameter : ∀ i, (w.var (ps i)).isParameter = true

theorem Kept.alive (k : w.Kept c) {v : VariableId} (known : v.index < w.vars.size)
    (parameter : (w.var v).isParameter = true) : w.Alive v := by
  intro p hp
  rw [(k.parameter v known parameter).2] at hp
  cases hp

namespace Ready

theorem asks (h : w.Ready c ps) (i : Fin n) : (w.var (ps i)).requiresGrad = true :=
  (h.kept.parameter _ (h.known i) (h.parameter i)).1

theorem names (h : w.Ready c ps) : w.Names c ps where
  sound := h.kept.sound
  distinct := h.distinct
  known := h.known
  alive i := h.kept.alive (h.known i) (h.parameter i)
  asked i := h.kept.asked _ (h.known i)

theorem shape (h : w.Ready c ps) (i : Fin n) : (w.valueOf (ps i)).shape = w.shapeOf (ps i) :=
  (h.kept.sound.value_valueOf (h.known i)).2

theorem twin (h : w.Ready c ps) (h' : w'.Ready c' ps')
    (values : ∀ i, w'.valueOf (ps' i) = w.valueOf (ps i)) : Twin n c c' ps ps' w w' where
  left := h.names
  right := h'.names
  agree :=
    { value := values
      shape := fun i => by rw [← h'.shape, values, h.shape]
      gradient := fun i inner => absurd i.isLt (Nat.not_lt.2 inner) }
  asks i := (h'.asks i).trans (h.asks i).symm
  tape := by
    rw [h.empty, h'.empty]
    exact .nil

theorem gradient (h : w.Ready c ps) (i : Fin n) : ∃ g, w.gradient? (ps i) = some g :=
  h.names.gradient_isSome (h.asks i)

theorem stays (h : w.Ready c ps) (kept : w'.Kept c) (keeps : w.Keeps w') (empty : w'.tape c = []) :
    w'.Ready c ps where
  kept := kept
  empty := empty
  distinct := h.distinct
  known i := Nat.lt_of_lt_of_le (h.known i) keeps.vars
  parameter i := (keeps.isParameter (h.known i)).trans (h.parameter i)

end Ready

theorem Kept.ready (k : w.Kept c) (distinct : Function.Injective ps)
    (known : ∀ i, (ps i).index < w.vars.size)
    (parameters : ∀ i, (w.var (ps i)).isParameter = true) :
    (Session.outcome Session.resetIteration w).2.Ready c ps := by
  have ends := Session.ends_resetIteration k.sound.current k.sound.known
  exact
    { kept := (Reaches.kept (reaches_event (e := .resetIteration) trivial) k).1
      empty := ends.tape
      distinct := distinct
      known := fun i => by
        rw [ends.vars]
        exact known i
      parameter := fun i => by
        rw [ends.var]
        exact parameters i }

theorem Ready.ends (h : w.Ready c ps) (reached : w.Reaches w') :
    (Session.outcome Session.resetIteration w').2.Ready c ps := by
  obtain ⟨kept, keeps⟩ := reached.kept h.kept
  exact kept.ready h.distinct (fun i => Nat.lt_of_lt_of_le (h.known i) keeps.vars)
    fun i => (keeps.isParameter (h.known i)).trans (h.parameter i)

def SameVariables (w w' : Workspace α) : Prop := w'.vars = w.vars

omit [Scalar α] in
theorem SameVariables.gradient? (h : w.SameVariables w') (v : VariableId) :
    w'.gradient? v = w.gradient? v := by
  have same : w'.vars = w.vars := h
  unfold Workspace.gradient? Workspace.var
  rw [same]

omit [Scalar α] in
instance : IsPreorder (Workspace α) SameVariables where
  refl _ := rfl
  trans _ _ _ h h' := h'.trans h

omit [Scalar α] in
theorem sameVariables_assign (t : TensorId) (x : NDArray α) (w : Workspace α) :
    Session.Leads SameVariables (Session.assign t x) w := by
  refine .after (Session.outcome_tensor t) fun old _ => .after Session.outcome_get fun w' same => ?_
  obtain rfl := Except.ok.inj same
  exact .after (Session.outcome_ofExcept _) fun new _ => rfl

theorem gradient?_ended {os : List OptimizerId} {w₂ : Workspace α} (here : w₁.current = some c)
    (there : c.index < w₁.contexts.size)
    (stepped : Session.outcome (os.forM Session.step) w = (.ok (), w₁))
    (ended : Session.outcome Session.resetIteration w₁ = (.ok (), w₂)) (v : VariableId) :
    w₂.gradient? v = w.gradient? v := by
  have steps : Session.Leads SameVariables (os.forM Session.step) w :=
    .forM fun o _ w => .step sameVariables_assign (fun _ _ _ => rfl) o w
  rw [Session.Leads, stepped] at steps
  have ends := Session.ends_resetIteration here there
  rw [ended] at ends
  have same : w₁.SameVariables w₂ := ends.vars
  rw [same.gradient?, steps.gradient?]

theorem outcome_zeroGrad (s : w.Sound c) {v : VariableId} (alive : w.Alive v)
    (asked : (w.var v).grad.isSome = true) :
    ∃ w', Session.outcome (Session.zeroGrad v) w = (.ok (), w') ∧ w'.Sound c ∧ w.Frame w' ∧
      ∀ u, w'.gradient? u = if u = v then some (.fill (w.shapeOf v) 0) else w.gradient? u := by
  obtain ⟨g, hg⟩ := Option.isSome_iff_exists.1 asked
  obtain ⟨w', run, rest⟩ := Session.outcome_fillGrad s alive hg 0
  refine ⟨w', ?_, rest⟩
  unfold Session.zeroGrad
  rw [Session.outcome_bind_ok (Session.outcome_var v), hg]
  exact run

theorem outcome_zeroAll {zs : List VariableId} {w : Workspace α} (s : w.Sound c)
    (each : ∀ v ∈ zs, w.Alive v ∧ (w.gradient? v).isSome = true) :
    ∃ w', Session.outcome (zs.forM Session.zeroGrad) w = (.ok (), w') ∧ w'.Sound c ∧ w.Frame w' ∧
      ∀ u, w'.gradient? u = if u ∈ zs then some (.fill (w.shapeOf u) 0) else w.gradient? u := by
  induction zs generalizing w with
  | nil => exact ⟨w, rfl, s, .refl w, fun u => (if_neg List.not_mem_nil).symm⟩
  | cons v zs ih =>
    obtain ⟨⟨alive, there⟩, others⟩ := List.forall_mem_cons.1 each
    obtain ⟨w₁, zeroed, s₁, frame, first⟩ :=
      outcome_zeroGrad s alive (Option.isSome_of_isSome_bind there)
    obtain ⟨w₂, run, s₂, frame', rest⟩ := ih s₁ fun u hu => by
      obtain ⟨alive, there⟩ := others u hu
      obtain ⟨g, hg⟩ := Option.isSome_iff_exists.1 (Option.isSome_of_isSome_bind there)
      have known := known_of_grad hg
      refine ⟨(frame.grown.alive known (s.vars u known).known).2 alive, ?_⟩
      rw [first]
      split
      · rfl
      · exact there
    refine ⟨w₂, (Session.outcome_bind_ok zeroed _).trans run, s₂, frame.trans frame', fun u => ?_⟩
    rw [rest, first, frame.shapeOf]
    by_cases there : u ∈ zs
    · rw [if_pos there, if_pos (List.mem_cons_of_mem v there)]
    · rw [if_neg there]
      by_cases same : u = v
      · rw [if_pos same, if_pos (same ▸ List.mem_cons_self), same]
      · have new : u ∉ v :: zs := by simp [same, there]
        rw [if_neg same, if_neg new]

theorem Ready.zero {zs : List VariableId} {w : Workspace α} (h : w.Ready c ps)
    (parameters : ∀ v ∈ zs, v.index < w.vars.size ∧ (w.var v).isParameter = true) :
    ∃ w', Session.outcome (zs.forM Session.zeroGrad) w = (.ok (), w') ∧ w'.Ready c ps ∧
      w'.valueOf = w.valueOf ∧
      ∀ u, w'.gradient? u = if u ∈ zs then some (.fill (w.shapeOf u) 0) else w.gradient? u := by
  obtain ⟨w', run, -, frame, gradients⟩ := outcome_zeroAll h.kept.sound fun v hv => by
    obtain ⟨known, parameter⟩ := parameters v hv
    have asks := (h.kept.parameter v known parameter).1
    refine ⟨h.kept.alive known parameter, ?_⟩
    rw [h.kept.sound.gradient_isSome known, h.kept.asked v known, asks]
  have reached : Session.Leads Reaches (zs.forM Session.zeroGrad) w :=
    .forM fun v _ w => reaches_event (e := .zeroGrad v) trivial
  rw [Session.Leads, run] at reached
  obtain ⟨kept, keeps⟩ := reached.kept h.kept
  have empty : w'.tape c = [] := by
    rw [tape, frame.context]
    exact h.empty
  exact ⟨w', run, h.stays kept keeps empty, frame.valueOf, gradients⟩

theorem adds_grown (w : Workspace α) (c : ContextId) (name : String) (x : NDArray α)
    (draws : Draws) :
    ∃ ts y, w.Adds (w.grown name x draws) c ts y x none ∧ y.requiresGrad = true ∧
      y.isParameter = true := by
  have persistent (z : NDArray α) :
      (w.grown name x draws).Made z none ⟨z.shape, some z, none⟩ :=
    ⟨rfl, rfl, rfl, fun _ hp => by cases hp⟩
  have pushes : w.Pushes (w.grown name x draws) c [⟨x.shape, some x, none⟩]
      [⟨⟨w.tensors.size⟩, some ⟨x.shape, some (.fill x.shape 0), none⟩, true, true, name⟩] [] :=
    { tensors := Array.toList_push
      vars := Array.toList_push
      tape := (List.append_nil _).symm
      current := rfl
      contexts := rfl
      generation := fun _ => rfl
      optimizers := rfl }
  have newest := pushes.var_new
  refine ⟨_, _, ⟨pushes, ?_, List.forall_mem_singleton.2 ((persistent x).sound (.inl rfl))⟩, rfl,
    rfl⟩
  exact
    { known := by
        rw [pushes.size_vars]
        exact Nat.lt_succ_self _
      there := by
        rw [newest, pushes.size_tensors]
        exact Nat.lt_succ_self _
      data := by
        rw [newest, pushes.tensor_new]
        exact persistent x
      asked := by
        rw [newest]
        rfl
      grad := by
        rw [newest]
        intro g hg
        obtain rfl := Option.mem_some.1 hg
        exact persistent _ }

theorem outcome_parameters {w : Workspace α} (k : w.Kept c) (xs : List (NDArray α)) :
    ∃ ts ys w', Session.outcome (xs.forM fun x => discard
        (Session.make x none >>= fun t => Session.parameter t "")) w = (.ok (), w') ∧
      w'.Kept c ∧ w.Pushes w' c ts ys [] ∧
      ∀ (i : Nat) (x : NDArray α), xs[i]? = some x →
        w'.Fresh ⟨w.vars.size + i⟩ x none ∧
          (w'.var ⟨w.vars.size + i⟩).isParameter = true := by
  induction xs generalizing w with
  | nil => exact ⟨[], [], w, rfl, k, (Rearranged.refl w).pushes c, by simp⟩
  | cons x xs ih =>
    obtain ⟨_, y, adds, asks, kind⟩ := w.adds_grown c "" x w.draws
    have effect : (Event.parameter ⟨0⟩ "" : Event α).Effect c w (w.grown "" x w.draws) :=
      .of_adds k.sound adds kind (fun _ => asks) rfl
    have size : (w.grown "" x w.draws).vars.size = w.vars.size + 1 := adds.pushes.size_vars
    obtain ⟨ts, ys, w', run, kept, pushes, fresh⟩ := ih (k.effect effect)
    have made := Session.outcome_map_ok (Session.outcome_makeParameter x "" w) fun _ => ()
    refine ⟨_, _, w', (Session.outcome_bind_ok made _).trans run, kept,
      adds.pushes.trans pushes, fun i z hz => ?_⟩
    cases i with
    | zero =>
      obtain rfl := Option.some.inj hz
      refine ⟨adds.fresh.extend pushes, ?_⟩
      rw [Nat.add_zero, pushes.var_old adds.fresh.known, adds.pushes.var_new]
      exact kind
    | succ i =>
      have later := fresh i z hz
      rw [size, Nat.add_assoc, Nat.add_comm 1 i] at later
      exact later

theorem ready_parameters (arena : Arena) (period : Int) (draws : Draws)
    (values : Fin n → NDArray α) :
    ∃ w, Session.outcome (Session.parameters values) (ofContext (.ofArena arena period) draws) =
        (.ok (), w) ∧ w.Ready ⟨0⟩ (.first n) ∧
      ∀ i, w.valueOf (Numbering.first n i) = values i ∧
        w.gradient? (Numbering.first n i) = some (.fill (values i).shape 0) := by
  obtain ⟨ts, ys, w, run, kept, pushes, fresh⟩ :=
    outcome_parameters (kept_ofContext arena period draws) (List.ofFn values)
  have each : ∀ i : Fin n, w.Fresh (Numbering.first n i) (values i) none ∧
      (w.var (Numbering.first n i)).isParameter = true := by
    intro i
    have here : (List.ofFn values)[i.val]? = some (values i) := by simp
    have made := fresh i.val (values i) here
    rw [show (ofContext (.ofArena arena period) draws : Workspace α).vars.size = 0 from rfl,
      Nat.zero_add] at made
    exact made
  refine ⟨w, run, ?_, fun i => ⟨(each i).1.valueOf, ?_⟩⟩
  · exact
      { kept := kept
        empty := pushes.tape
        distinct := fun i j same => Fin.ext (congrArg VariableId.index same)
        known := fun i => (each i).1.known
        parameter := fun i => (each i).2 }
  · rw [(each i).1.gradient?, (kept.parameter _ (each i).1.known (each i).2).1]
    rfl

theorem Ready.gradients (h : w.Ready c ps) (P : Forward α n) (arena : Arena) (period : Int)
    (draws : Draws) :
    (∃ e, (Session.outcome (P.gradients ps) w).1 = .error e ∧
      P.alone (.ofArena arena period) draws (fun i => w.valueOf (ps i)) = .error e) ∨
    ∃ it, (Session.outcome (P.gradients ps) w).1 =
        .ok (it, fun i => (w.gradient? (ps i)).map (it.gradient i)) ∧
      P.alone (.ofArena arena period) draws (fun i => w.valueOf (ps i)) =
        .ok (it, fun i => some (it.own i (w.valueOf (ps i)))) := by
  obtain ⟨u, made, ready, holds⟩ := ready_parameters arena period draws fun i => w.valueOf (ps i)
  unfold Forward.alone
  rw [Session.outcome_bind_ok made]
  rcases (h.twin ready fun i => (holds i).1).iterate P h.asks with
    ⟨e, failed, failed'⟩ | ⟨it, w₁, u₁, run, run', gradients, gradients', -⟩
  · exact .inl ⟨e, Session.outcome_bind_failed failed _, Session.outcome_bind_failed failed' _⟩
  · refine .inr ⟨it, ?_, ?_⟩
    · unfold Forward.gradients
      rw [Session.outcome_bind_ok run, Session.outcome_bind_ok Session.outcome_get]
      simp only [gradients]
      rfl
    · unfold Forward.gradients
      rw [Session.outcome_bind_ok run', Session.outcome_bind_ok Session.outcome_get]
      simp only [gradients', (holds _).2]
      rfl

theorem Ready.iterate (h : w.Ready c ps) {P : Forward α n} {it : Iteration α n}
    (run : Session.outcome (P.iterate ps) w = (.ok it, w₁)) (arena : Arena) (period : Int)
    (draws : Draws) :
    P.alone (.ofArena arena period) draws (fun i => w.valueOf (ps i)) =
        .ok (it, fun i => some (it.own i (w.valueOf (ps i)))) ∧
      ∀ i, w₁.gradient? (ps i) = (w.gradient? (ps i)).map (it.gradient i) := by
  have told : (Session.outcome (P.gradients ps) w).1 = .ok (it, fun i => w₁.gradient? (ps i)) := by
    unfold Forward.gradients
    rw [Session.outcome_bind_ok run, Session.outcome_bind_ok Session.outcome_get]
    rfl
  rcases h.gradients P arena period draws with ⟨e, failed, -⟩ | ⟨it', known, alone⟩
  · cases failed.symm.trans told
  · obtain ⟨rfl, same⟩ := Prod.mk.inj (Except.ok.inj (known.symm.trans told))
    exact ⟨alone, fun i => (congrFun same i).symm⟩

theorem Ready.iteration (h : w.Ready c ps) {P : Forward α n × List OptimizerId}
    {x : (Fin n → NDArray α) × Iteration α n}
    (run : Session.outcome (Forward.iteration ps P) w = (.ok x, w₁)) (arena : Arena)
    (period : Int) (draws : Draws) :
    w₁.Ready c ps ∧ (∀ i, w₁.shapeOf (ps i) = w.shapeOf (ps i)) ∧
      (∀ i, (x.1 i).shape = w.shapeOf (ps i)) ∧
      P.1.alone (.ofArena arena period) draws x.1 = .ok (x.2, fun i => some (x.2.own i (x.1 i))) ∧
      ∀ i, w₁.gradient? (ps i) = (w.gradient? (ps i)).map (x.2.gradient i) := by
  unfold Forward.iteration at run
  rw [Session.outcome_bind_ok Session.outcome_get] at run
  obtain ⟨it, u₁, iterated, run⟩ := Session.outcome_bind_eq_ok.1 run
  obtain ⟨⟨⟩, u₂, stepped, run⟩ := Session.outcome_bind_eq_ok.1 run
  obtain ⟨⟨⟩, u, ended, told⟩ := Session.outcome_bind_eq_ok.1 run
  obtain ⟨rfl, rfl⟩ := Session.outcome_pure_eq_ok.1 told
  obtain ⟨alone, gradients⟩ := h.iterate iterated arena period draws
  have reached : w.Reaches u₂ := by
    have iteration := reaches_iterate P.1 h.kept h.known
    have steps : Session.Leads Reaches (P.2.forM Session.step) u₁ :=
      .forM fun o _ w => reaches_event (e := .step o) trivial
    rw [Session.Leads, iterated] at iteration
    rw [Session.Leads, stepped] at steps
    exact trans_of Reaches iteration steps
  have ready := h.ends reached
  have reset : Session.Leads Reaches Session.resetIteration u₂ :=
    reaches_event (e := .resetIteration) trivial
  rw [ended] at ready
  rw [Session.Leads, ended] at reset
  have keeps := ((trans_of Reaches reached reset).kept h.kept).2
  have kept := (reached.kept h.kept).1
  have same := gradient?_ended kept.sound.current kept.sound.known stepped ended
  exact ⟨ready, fun i => keeps.shapeOf h.kept.sound (h.known i), h.shape, alone, fun i =>
    (same (ps i)).trans (gradients i)⟩

theorem Ready.iterations {Ps : List (Forward α n × List OptimizerId)}
    {its : List ((Fin n → NDArray α) × Iteration α n)} {w : Workspace α} (h : w.Ready c ps)
    (run : Session.outcome (Forward.iterations ps Ps) w = (.ok its, w₁)) (arena : Arena)
    (period : Int) (draws : Draws) :
    (∀ x ∈ its, ∀ i, (x.1 i).shape = w.shapeOf (ps i)) ∧
      List.Forall₂ (fun P x => P.1.alone (.ofArena arena period) draws x.1 =
        .ok (x.2, fun i => some (x.2.own i (x.1 i)))) Ps its ∧
      ∀ i, w₁.gradient? (ps i) =
        (w.gradient? (ps i)).map fun g => its.foldl (fun g x => x.2.gradient i g) g := by
  -- Each iteration starts where the one before has left nothing but values and gradients.
  induction Ps generalizing its w with
  | nil =>
    obtain ⟨rfl, rfl⟩ := Session.outcome_pure_eq_ok.1 run
    exact ⟨by simp, .nil, fun i => Option.map_id'.symm⟩
  | cons P Ps ih =>
    unfold Forward.iterations at run
    rw [List.mapM_cons] at run
    obtain ⟨x, u, one, run⟩ := Session.outcome_bind_eq_ok.1 run
    obtain ⟨xs, u', rest, told⟩ := Session.outcome_bind_eq_ok.1 run
    obtain ⟨rfl, rfl⟩ := Session.outcome_pure_eq_ok.1 told
    obtain ⟨ready, kept, shape, alone, gradients⟩ := h.iteration one arena period draws
    obtain ⟨shapes, others, final⟩ := ih ready rest
    refine ⟨List.forall_mem_cons.2 ⟨shape, fun y hy i => ?_⟩, .cons alone others, fun i => ?_⟩
    · rw [shapes y hy, kept]
    · rw [final, gradients, Option.map_map]
      rfl

end Workspace

namespace Iteration

/-- Where sums can be regrouped, a parameter gets the gradient that it would have on its own. -/
theorem gradient_eq_add (assoc : ∀ x y z : α, x + y + z = x + (y + z)) (zero : ∀ x : α, x + 0 = x)
    (it : Iteration α n) {i : Fin n} (unseeded : it.seeded i = false) {x g : NDArray α}
    (shape : x.shape = g.shape) : it.gradient i g = g.add (it.own i x) := by
  unfold own gradient
  rw [unseeded, shape]
  exact NDArray.foldl_add assoc zero _ g

theorem foldl_gradient (assoc : ∀ x y z : α, x + y + z = x + (y + z)) (zero : ∀ x : α, x + 0 = x)
    {i : Fin n} {its : List ((Fin n → NDArray α) × Iteration α n)}
    (unseeded : ∀ x ∈ its, x.2.seeded i = false) {g : NDArray α}
    (shapes : ∀ x ∈ its, (x.1 i).shape = g.shape) :
    its.foldl (fun g x => x.2.gradient i g) g =
      (its.map fun x => x.2.own i (x.1 i)).foldl .add g := by
  induction its generalizing g with
  | nil => rfl
  | cons x its ih =>
    obtain ⟨here, others⟩ := List.forall_mem_cons.1 unseeded
    obtain ⟨shape, shapes⟩ := List.forall_mem_cons.1 shapes
    rw [List.foldl_cons, List.map_cons, List.foldl_cons,
      x.2.gradient_eq_add assoc zero here shape]
    exact ih others shapes

end Iteration

namespace Workspace

def ended (w : Workspace α) : Workspace α := (Session.outcome Session.resetIteration w).2

/-- After any run that ends with a reset, an iteration over parameters comes to what it comes to in
a fresh context with parameters of the same values: it fails alike, or has the same loss and adds
the same amounts to the gradients. If these were set to zero before, they are those of the fresh
context. If not, iterations one after another all add their amounts; and where sums can be
regrouped, this is the sum of the gradients that the fresh contexts give, for a parameter that is
not itself a loss. -/
theorem Runs.iterations_independent {w : Workspace α} {arena : Arena} {period : Int} {draws : Draws}
    {resets : Nat} (reached : Runs (ofContext (.ofArena arena period) draws) resets w)
    {ps : Numbering n} (distinct : Function.Injective ps) (known : ∀ i, (ps i).index < w.vars.size)
    (parameters : ∀ i, (w.var (ps i)).isParameter = true) (arena' : Arena) (period' : Int)
    (draws' : Draws) :
    let alone := fun P : Forward α n => P.alone (.ofArena arena' period') draws'
    (∀ P, (Session.outcome (P.gradients ps) w.ended).1 =
      (alone P fun i => w.ended.valueOf (ps i)).map fun x =>
        (x.1, fun i => (w.ended.gradient? (ps i)).map (x.1.gradient i))) ∧
    (∀ P it gs, alone P (fun i => w.ended.valueOf (ps i)) = .ok (it, gs) →
      ∀ i, gs i = some (it.own i (w.ended.valueOf (ps i)))) ∧
    (∀ zs : List VariableId,
      (∀ v ∈ zs, v.index < w.vars.size ∧ (w.var v).isParameter = true) → (∀ i, ps i ∈ zs) →
        ∀ P, (Session.outcome (do
            zs.forM Session.zeroGrad
            P.gradients ps) w.ended).1 = alone P fun i => w.ended.valueOf (ps i)) ∧
    ∀ Ps its w₁, Session.outcome (Forward.iterations ps Ps) w.ended = (.ok its, w₁) →
      List.Forall₂ (fun P x =>
        alone P.1 x.1 = .ok (x.2, fun i => some (x.2.own i (x.1 i)))) Ps its ∧
      (∀ i, w₁.gradient? (ps i) = (w.ended.gradient? (ps i)).map fun g =>
        its.foldl (fun g x => x.2.gradient i g) g) ∧
      ((∀ x y z : α, x + y + z = x + (y + z)) → (∀ x : α, x + 0 = x) →
        ∀ i, (∀ x ∈ its, x.2.seeded i = false) →
          w₁.gradient? (ps i) = (w.ended.gradient? (ps i)).map fun g =>
            (its.map fun x => x.2.own i (x.1 i)).foldl .add g) := by
  obtain ⟨kept, -, -⟩ := reached.kept (kept_ofContext arena period draws)
  have ready : w.ended.Ready ⟨0⟩ ps := kept.ready distinct known parameters
  have ends := Session.ends_resetIteration kept.sound.current kept.sound.known
  refine ⟨fun P => ?_, fun P it gs alone i => ?_, fun zs zeroes all P => ?_,
    fun Ps its w₁ run => ?_⟩
  · rcases ready.gradients P arena' period' draws' with ⟨e, failed, failed'⟩ | ⟨it, told, alone⟩
    · dsimp only
      rw [failed, failed']
      rfl
    · dsimp only
      rw [told, alone]
      rfl
  · rcases ready.gradients P arena' period' draws' with ⟨e, -, failed⟩ | ⟨it', -, alone'⟩
    · cases failed.symm.trans alone
    · obtain ⟨rfl, rfl⟩ := Prod.mk.inj (Except.ok.inj (alone'.symm.trans alone))
      rfl
  · have zeroes' : ∀ v ∈ zs, v.index < w.ended.vars.size ∧ (w.ended.var v).isParameter = true := by
      intro v hv
      rw [ended, ends.vars, ends.var]
      exact zeroes v hv
    obtain ⟨w₁, zeroed, ready₁, values, zeros⟩ := ready.zero zeroes'
    dsimp only
    rw [Session.outcome_bind_ok zeroed, ← values]
    rcases ready₁.gradients P arena' period' draws' with ⟨e, failed, failed'⟩ | ⟨it, told, alone⟩
    · rw [failed, failed']
    · rw [told, alone]
      simp only [zeros, if_pos (all _), ← ready.shape, ← values]
      rfl
  · obtain ⟨shapes, each, final⟩ := ready.iterations run arena' period' draws'
    refine ⟨each, final, fun assoc zero i unseeded => ?_⟩
    obtain ⟨g, hg⟩ := ready.gradient i
    have shape := ready.kept.sound.gradient_shape (ready.known i) hg
    rw [final, hg, Option.map_some, Option.map_some,
      Iteration.foldl_gradient assoc zero unseeded fun x hx => (shapes x hx i).trans shape.symm]

def squared : Forward Float 1 := .apply (.multiply 0 0) (.loss 1)

theorem iterations_independent_square :
    Runs (ofContext (.ofArena (.ofChunkSize 64) 10) fun _ => 0) 0 three ∧
      Function.Injective (fun _ => ⟨0⟩ : Numbering 1) ∧
      (0 < three.vars.size ∧ (three.var ⟨0⟩).isParameter = true) ∧
      (Session.outcome (do
          [⟨0⟩].forM Session.zeroGrad
          squared.gradients fun _ => ⟨0⟩) three.ended).1 =
        squared.alone (.ofArena (.ofChunkSize 8) 1) (fun _ => 0)
          (fun _ => three.ended.valueOf ⟨0⟩) ∧
      ∃ its w₁, Session.outcome
          (Forward.iterations (fun _ => ⟨0⟩) [(squared, []), (squared, [])])
          three.ended = (.ok its, w₁) ∧
        w₁.gradient? ⟨0⟩ = (three.ended.gradient? ⟨0⟩).map (fun g =>
          its.foldl (fun g x => x.2.gradient 0 g) g) ∧
        (w₁.gradient? ⟨0⟩).map NDArray.toList = some [12] := by
  have distinct : Function.Injective (fun _ => ⟨0⟩ : Numbering 1) :=
    Function.injective_of_subsingleton _
  have parameter : 0 < three.vars.size ∧ (three.var ⟨0⟩).isParameter = true := by decide +kernel
  obtain ⟨-, -, zeroed, iterations⟩ := Runs.iterations_independent runs_three distinct
    (fun _ => parameter.1) (fun _ => parameter.2) (.ofChunkSize 8) 1 fun _ => 0
  cases run : Session.outcome
      (Forward.iterations (fun _ => ⟨0⟩) [(squared, []), (squared, [])])
      three.ended with
  | mk x w₁ =>
    have final : (w₁.gradient? ⟨0⟩).map NDArray.toList = some [12] := by
      obtain rfl : (Session.outcome (Forward.iterations (fun _ => ⟨0⟩)
        [(squared, []), (squared, [])]) three.ended).2 = w₁ := by rw [run]
      decide +kernel
    have through : (Session.outcome (Forward.iterations (fun _ => ⟨0⟩)
        [(squared, []), (squared, [])]) three.ended).1.isOk = true := by
      decide +kernel
    rw [run] at through
    cases x with
    | error e => cases through
    | ok its =>
      obtain ⟨-, gradients, -⟩ := iterations _ its w₁ run
      exact ⟨runs_three, distinct, parameter,
        zeroed [⟨0⟩] (List.forall_mem_singleton.2 parameter) (fun _ => List.mem_cons_self) _,
        its, w₁, rfl, gradients 0, final⟩

/-- A parameter, with a large multiple of it taken away and added again. -/
def cancelling : Forward Float 1 :=
  .apply (.scale 1 0) <| .apply (.scale (-1e20) 0) <| .apply (.scale 1e20 0) <|
    .apply (.add 1 2) <| .apply (.add 4 3) <| .loss 5

def onceAndTwice (P : Forward Float 1) : Option (List Float) × Option (List Float) :=
  let alone := P.alone (.ofArena (.ofChunkSize 64) 10) (fun _ => 0) fun _ => three.ended.valueOf ⟨0⟩
  let twice := (Session.outcome (Forward.iterations (fun _ => ⟨0⟩) [(P, []), (P, [])])
    three.ended).2
  (alone.toOption.bind fun x => (x.2 0).map NDArray.toList,
    (twice.gradient? ⟨0⟩).map NDArray.toList)

/-- Two iterations with gradients of one can leave a gradient of one: a loss starts from ones,
whatever was there before, and in floating point large amounts swallow what was there before. -/
theorem iterations_not_summed :
    (three.ended.gradient? ⟨0⟩).map NDArray.toList = some [0] ∧
      onceAndTwice (.loss 0) = (some [1], some [1]) ∧
      onceAndTwice cancelling = (some [1], some [1]) := by
  decide +kernel

end Workspace

end DerivativeEngine
