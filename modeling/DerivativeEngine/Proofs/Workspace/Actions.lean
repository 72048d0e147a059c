import DerivativeEngine.Proofs.Workspace.Contents

/-! What a program does with the context in use, and what it can come to. It makes tensors and
variables, gives them other contents, applies operations and ends iterations; an action that fails
leaves what it changed before. All of this keeps a workspace sound, starting from a context in which
nothing was made. -/

namespace DerivativeEngine

variable {α : Type}

namespace Session

variable {w : Workspace α} {c : ContextId} [Scalar α]

theorem sound_assign (s : w.Sound c) (t : TensorId) (x : NDArray α) :
    (outcome (assign t x) w).2.Sound c :=
  (refills_assign t x w).sound s

theorem sound_dropGrad (s : w.Sound c) (v : VariableId) : (outcome (dropGrad v) w).2.Sound c := by
  refine s.setGrad (fun _ => rfl) ?_
  intro g hg
  cases hg

theorem sound_assignGrad (s : w.Sound c) {v : VariableId} {g : Tensor α}
    (hg : (w.var v).grad = some g) (x : NDArray α) :
    (outcome (assignGrad v g x) w).2.Sound c :=
  (refills_assignGrad hg x).sound s

omit [Scalar α] in
theorem ends_modifyContext (known : c.index < w.contexts.size) (f : Context α → Context α)
    (said : Array String) {n : Nat} (cleared : (f (w.context c)).tape = #[])
    (later : (f (w.context c)).arena.generation = w.generation c + n) :
    w.Ends { w.modifyContext c f with said } c n where
  tensors := rfl
  vars := rfl
  current := rfl
  contexts := Array.size_modify
  tape := by
    have here := (Workspace.context_modifyContext w c f c).trans (if_pos ⟨rfl, known⟩)
    change ((w.modifyContext c f).context c).tape.toList = []
    rw [here, cleared]
  generation := by
    have here := (Workspace.context_modifyContext w c f c).trans (if_pos ⟨rfl, known⟩)
    change ((w.modifyContext c f).context c).arena.generation = _
    rw [here, later]

def completed {β : Type} (x : Except TensorError β) : Nat :=
  match x with
  | .ok _ => 1
  | .error _ => 0

omit [Scalar α] in
theorem ends_resetIteration (here : w.current = some c) (known : c.index < w.contexts.size) :
    w.Ends (outcome resetIteration w).2 c (completed (outcome resetIteration w).1) := by
  let clear : Context α → Context α := fun k =>
    { k.clearTape with iterations := k.iterations + 1 }
  have first : w.Ends (w.modifyContext c clear) c 0 := ends_modifyContext known clear w.said rfl rfl
  have cleared : outcome (modify fun w : Workspace α => w.modifyContext c clear) w =
      (.ok (), w.modifyContext c clear) := outcome_modify _
  unfold resetIteration
  rw [outcome_bind_ok (outcome_current here), outcome_bind_ok cleared]
  generalize w.modifyContext c clear = w₁ at first
  have there : outcome (context c) w₁ = (.ok (w₁.context c), w₁) := rfl
  have empty : (w₁.context c).tape = #[] := Array.toList_eq_nil_iff.1 first.tape
  have known₁ : c.index < w₁.contexts.size := first.contexts ▸ known
  rw [outcome_bind_ok there]
  dsimp only
  by_cases zero : ((w₁.context c).period == 0) = true
  · rw [if_pos zero]
    exact first
  · rw [if_neg zero]
    have reset : ∀ (f : Arena → Arena) (told : Arena → Arena → Option String),
        (f (w₁.context c).arena).generation = w₁.generation c + 1 →
          w.Ends (outcome (modifyArena c f told) w₁).2 c 1 := by
      intro f told later
      exact first.trans (ends_modifyContext known₁
        (fun k => { k with arena := f (w₁.context c).arena })
        (w₁.said ++ (told (w₁.context c).arena (f (w₁.context c).arena)).toArray) empty later)
    split
    · exact reset Arena.resetAggressive Arena.releaseText? rfl
    · exact reset Arena.reset (fun _ _ => none) rfl

theorem sound_resetIteration (s : w.Sound c) : (outcome resetIteration w).2.Sound c :=
  (ends_resetIteration s.current s.known).sound s

end Session

inductive Action (α : Type) where
  | tensor (x : NDArray α) (inArena : Bool)
  | parameter (t : TensorId) (name : String)
  | temporary (t : TensorId) (requiresGrad : Bool)
  | assign (t : TensorId) (x : NDArray α)
  /-- To accumulate a gradient, to set it to zero or to ones is to assign it. -/
  | assignGrad (v : VariableId) (x : NDArray α)
  | dropGrad (v : VariableId)
  | apply (op : Operation α VariableId)
  | mseLoss (prediction : VariableId) (target : Target α)
  | resetIteration

variable [Scalar α]

namespace Action

def run : Action α → Session α Unit
  | tensor x inArena => discard do
    let c ← Session.current
    Session.make x (if inArena then some c else none)
  | parameter t name => discard (Session.parameter t name)
  | temporary t requiresGrad => discard (Session.temporary t requiresGrad)
  | assign t x => Session.assign t x
  | assignGrad v x => do
    match (← Session.var v).grad with
    | some grad => Session.assignGrad v grad x
    | none => return ()
  | dropGrad v => Session.dropGrad v
  | apply op => discard (Session.apply op)
  | mseLoss prediction target => discard (Session.mseLoss prediction target)
  | resetIteration => Session.resetIteration

/-- The tensors and variables an action names were made before. -/
def Known (w : Workspace α) : Action α → Prop
  | parameter t _ | temporary t _ => t.index < w.tensors.size
  | apply op => ∀ v ∈ op.operands, v.index < w.vars.size
  | mseLoss prediction _ => prediction.index < w.vars.size
  | _ => True

instance (w : Workspace α) (a : Action α) : Decidable (a.Known w) :=
  match a with
  | parameter t _ | temporary t _ => inferInstanceAs (Decidable (t.index < w.tensors.size))
  | apply op => inferInstanceAs (Decidable (∀ v ∈ op.operands, v.index < w.vars.size))
  | mseLoss prediction _ => inferInstanceAs (Decidable (prediction.index < w.vars.size))
  | tensor _ _ | assign _ _ | assignGrad _ _ | dropGrad _ | resetIteration =>
    inferInstanceAs (Decidable True)

open Session in
theorem sound_run {w : Workspace α} {c : ContextId} (s : w.Sound c) {a : Action α}
    (known : a.Known w) : (outcome a.run w).2.Sound c := by
  cases a with
  | tensor x inArena =>
    have here : (if inArena then some c else none) = none ∨
        (if inArena then some c else none) = some c := by
      cases inArena with
      | false => exact .inl rfl
      | true => exact .inr rfl
    obtain ⟨t, w', made, pushes, held⟩ := outcome_make x (if inArena then some c else none) c w
    rw [run, outcome_discard, outcome_bind_ok (outcome_current s.current), made]
    refine pushes.sound s (List.forall_mem_singleton.2 (held.sound here)) (by simp) (by simp) ?_
    rw [List.append_nil]
    exact s.ordered
  | parameter t name =>
    rw [run, outcome_discard]
    exact sound_parameter s known name
  | temporary t requiresGrad =>
    rw [run, outcome_discard]
    exact sound_temporary s known requiresGrad
  | assign t x => exact sound_assign s t x
  | assignGrad v x =>
    rw [run, outcome_bind_ok (outcome_var v)]
    cases grad : (w.var v).grad with
    | none => exact s
    | some g => exact sound_assignGrad s grad x
  | dropGrad v => exact sound_dropGrad s v
  | apply op =>
    rw [run, outcome_discard]
    exact sound_apply s known
  | mseLoss prediction target =>
    rw [run, outcome_discard]
    exact sound_mseLoss s known
  | resetIteration => exact sound_resetIteration s

end Action

/-- What a program can come to from a context in which nothing was made. -/
inductive Workspace.Reachable : Workspace α → Prop
  | start (arena : Arena) (period : Int) (draws : Draws) :
    Reachable (.ofContext (.ofArena arena period) draws)
  | step {w : Workspace α} {a : Action α} (reached : Reachable w) (known : a.Known w) :
    Reachable (Session.outcome a.run w).2

theorem Workspace.Reachable.sound {w : Workspace α} (h : w.Reachable) : w.Sound ⟨0⟩ := by
  induction h with
  | start arena period draws =>
    exact
      { current := rfl
        known := Nat.zero_lt_one
        tensors := fun t ht => absurd ht (Nat.not_lt_zero _)
        vars := fun v hv => absurd hv (Nat.not_lt_zero _)
        tape := by
          intro r hr
          cases hr
        ordered := .nil }
  | step reached known ih => exact Action.sound_run ih known

end DerivativeEngine
