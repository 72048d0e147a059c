import DerivativeEngine.Proofs.Workspace.Backward
import DerivativeEngine.Proofs.Workspace.Filling

/-! Variables that get other contents between a pass forward and the pass back. A record has kept
what its reverse needs, and of its operands the sweep asks only for the shapes, with one exception:
a layer normalisation reads its gain again. So two workspaces that differ in the contents of
tensors, but not of such gains, are swept alike, and end with the same gradients. -/

namespace DerivativeEngine

variable {α β γ : Type}

namespace Workspace

/-- Two workspaces on the same tape that differ in the contents of tensors, but not of the gains on
the tape. -/
structure Alike (tape : List (TapeRecord α)) (w w₁ : Workspace α) : Prop where
  rest : w₁ = { w with tensors := w₁.tensors }
  recorded : w.recorded = tape
  shape : ∀ t, (w₁.tensor t).shape = (w.tensor t).shape
  gains : ∀ r ∈ tape, ∀ v ∈ r.operation.gain?,
    w₁.tensor (w.var v).data = w.tensor (w.var v).data

namespace Alike

variable {tape : List (TapeRecord α)} {w w₁ : Workspace α}

theorem var (h : w.Alike tape w₁) (v : VariableId) : w₁.var v = w.var v := by
  rw [h.rest]
  rfl

theorem shapeOf (h : w.Alike tape w₁) : w₁.shapeOf = w.shapeOf := by
  funext v
  unfold Workspace.shapeOf
  rw [h.var, h.shape]

theorem read (h : w.Alike tape w₁) (t : Tensor α) : w₁.read t = w.read t := by
  rw [h.rest]
  rfl

theorem assigned (h : w.Alike tape w₁) (t : Tensor α) (x : NDArray α) :
    w₁.assigned t x = w.assigned t x := by
  rw [h.rest]
  rfl

theorem setGrad (h : w.Alike tape w₁) (v : VariableId) (grad : Option (Tensor α)) :
    (w.setVariable v { w.var v with grad }).Alike tape
      (w₁.setVariable v { w₁.var v with grad }) where
  rest := by
    rw [h.rest]
    rfl
  recorded := h.recorded
  shape := h.shape
  gains r hr u hu := by
    rw [(w.frame_setGrad v grad).data]
    exact h.gains r hr u hu

end Alike

def started (w : Workspace α) : Workspace α :=
  { w with contexts := w.contexts.push .default, current := some ⟨w.contexts.size⟩ }

theorem context_started (w : Workspace α) (c : ContextId) : w.started.context c = w.context c := by
  simp only [started, Workspace.context, Array.getD_eq_getD_getElem?, Array.getElem?_push]
  split
  · next last => simp [last]
  · rfl

theorem tape_started (w : Workspace α) : (w.started.context ⟨w.contexts.size⟩).tape = #[] := by
  simp [started, Workspace.context, Context.default, Context.ofArena]

end Workspace

namespace Session

open Workspace (Alike recorded tape_started)

variable {w : Workspace α}

theorem outcome_current_none (here : w.current = none) :
    outcome current w = (.ok ⟨w.contexts.size⟩, w.started) := by
  rw [current, outcome_bind_ok outcome_get, here]
  rfl

/-- On workspaces that are alike the session gives the same, and leaves them alike. -/
def Blind (tape : List (TapeRecord α)) (p : Session α β) : Prop :=
  ∀ w w₁ : Workspace α, w.Alike tape w₁ → (outcome p w₁).1 = (outcome p w).1 ∧
    (outcome p w).2.Alike tape (outcome p w₁).2

namespace Blind

variable {tape : List (TapeRecord α)}

theorem of_reads {p : Session α β} {f : Workspace α → Except TensorError β}
    (reads : ∀ w, outcome p w = (f w, w)) (same : ∀ {w w₁}, w.Alike tape w₁ → f w₁ = f w) :
    Blind tape p := by
  intro w w₁ alike
  rw [reads w, reads w₁]
  exact ⟨same alike, alike⟩

theorem pure (x : β) : Blind tape (pure x) := of_reads (fun _ => rfl) fun _ => rfl

theorem throw (e : TensorError) : Blind (β := β) tape (throw e) :=
  of_reads (fun _ => rfl) fun _ => rfl

theorem bind {p : Session α β} {f : β → Session α γ} (first : Blind tape p)
    (second : ∀ x, Blind tape (f x)) : Blind tape (p >>= f) := by
  intro w w₁ alike
  have firsts := first w w₁ alike
  rw [outcome_bind, outcome_bind]
  generalize outcome p w = o, outcome p w₁ = o₁ at firsts
  obtain ⟨y, w'⟩ := o
  obtain ⟨y₁, w₁'⟩ := o₁
  obtain ⟨same, alike⟩ := firsts
  obtain rfl : y₁ = y := same
  cases y₁ with
  | error e => exact ⟨rfl, alike⟩
  | ok x => exact second x w' w₁' alike

theorem map {p : Session α β} (f : β → γ) (h : Blind tape p) : Blind tape (f <$> p) := by
  rw [map_eq_pure_bind]
  exact h.bind fun x => pure (f x)

theorem forM {f : β → Session α Unit} : ∀ {xs : List β}, (∀ x ∈ xs, Blind tape (f x)) →
    Blind tape (xs.forM f)
  | [], _ => pure ()
  | _ :: _, each => (each _ List.mem_cons_self).bind fun _ =>
    forM fun x hx => each x (List.mem_cons_of_mem _ hx)

theorem mapM {f : β → Session α γ} (each : ∀ x, Blind tape (f x)) :
    ∀ xs : List β, Blind tape (xs.mapM f)
  | [] => pure []
  | x :: xs => by
    rw [List.mapM_cons]
    exact (each x).bind fun y => (mapM each xs).bind fun ys => pure (y :: ys)

theorem var (v : VariableId) : Blind tape (var v) :=
  of_reads (fun _ => outcome_var v) fun alike => congrArg Except.ok (alike.var v)

theorem read (t : Tensor α) : Blind tape (read t) :=
  of_reads (fun _ => outcome_read t) fun alike =>
    congrArg (failAs TensorError.lifetime) (alike.read t)

theorem requiresGrad (v : VariableId) : Blind tape (requiresGrad v) :=
  (var v).bind fun x => pure x.requiresGrad

theorem assignGrad (v : VariableId) (grad : Tensor α) (x : NDArray α) :
    Blind tape (assignGrad v grad x) := by
  have assigned : Blind tape (do ofExcept ((← get).assigned grad x)) :=
    of_reads (fun _ => rfl) fun alike => alike.assigned grad x
  have set (new : Tensor α) : Blind tape (setGrad v (some new)) := fun w w₁ alike =>
    ⟨rfl, alike.setGrad v (some new)⟩
  exact assigned.bind set

theorem fillGrad (v : VariableId) (grad : Tensor α) (x : α) : Blind tape (fillGrad v grad x) :=
  (read grad).bind fun _ => assignGrad v grad (.fill grad.shape x)

theorem readGrad? (v : VariableId) : Blind tape (readGrad? v) := by
  refine (var v).bind fun y => ?_
  cases y.grad with
  | none => exact pure none
  | some grad => exact (read grad).map some

variable [Scalar α]

theorem accumulate (v : VariableId) (x : NDArray α) : Blind tape (accumulate v x) := by
  refine (var v).bind fun y => ?_
  cases y.grad with
  | none => exact pure ()
  | some grad =>
    refine (read grad).bind fun old => ?_
    cases old.addAligned? x with
    | none => exact throw _
    | some sum => exact assignGrad v grad sum

theorem send (v : VariableId) (x : NDArray α) : Blind tape (send v x) := by
  refine (requiresGrad v).bind fun asks => ?_
  cases asks with
  | false => exact pure ()
  | true => exact accumulate v x

omit [Scalar α] in
theorem value {r : TapeRecord α} (hr : r ∈ tape) {v : VariableId}
    (gain : r.operation.gain? = some v) : Blind tape (value v) := by
  refine of_reads (fun _ => outcome_value v) fun alike => ?_
  rw [alike.var, alike.gains r hr v gain, alike.read]

theorem sweep {r : TapeRecord α} (hr : r ∈ tape) : Blind tape (sweep r) := by
  have shaped : Blind tape (r.operation.mapM fun v => do return (v, ← shapeOf v)) := by
    have each (w : Workspace α) (v : VariableId) :
        outcome (do return (v, ← shapeOf v)) w = (.ok (v, w.shapeOf v), w) := rfl
    refine of_reads (fun w => outcome_mapM_ok (each w) r.operation) fun alike => ?_
    rw [alike.shapeOf]
  refine (readGrad? r.output).bind fun g? => ?_
  cases g? with
  | none => exact pure ()
  | some g =>
    refine (mapM read r.saved).bind fun saved => shaped.bind fun shaped => ?_
    refine (forM fun p _ => send p.1 p.2).bind fun _ => ?_
    cases hd : r.operation.deferred? saved g with
    | none => exact pure ()
    | some d =>
      exact (value hr (Operation.gain_of_deferred hd)).bind fun x => send d.target _

omit [Scalar α] in
theorem current : Blind tape (current (α := α)) := by
  intro w w₁ alike
  have same : w₁.current = w.current := by
    rw [alike.rest]
  cases here : w.current with
  | some c =>
    rw [outcome_current here, outcome_current (same.trans here)]
    exact ⟨rfl, alike⟩
  | none =>
    rw [outcome_current_none here, outcome_current_none (same.trans here)]
    have nothing : w.recorded = [] := by
      rw [recorded, here]
      rfl
    refine ⟨?_, ?_, ?_, alike.shape, alike.gains⟩
    · rw [alike.rest]
    · rw [alike.rest]
      rfl
    · rw [← alike.recorded, nothing, recorded]
      exact congrArg Array.toList (tape_started w)

end Blind

theorem outcome_sweepAll [Scalar α] (w : Workspace α) : outcome (do
      let k ← context (← current)
      k.tape.toList.reverse.forM sweep) w =
    outcome (w.recorded.reverse.forM sweep) (outcome current w).2 := by
  cases here : w.current with
  | some c =>
    have there : outcome (context c) w = (.ok (w.context c), w) := rfl
    have tape : w.recorded = (w.context c).tape.toList := by
      rw [recorded, here]
      rfl
    rw [outcome_bind_ok (outcome_current here), outcome_bind_ok there, outcome_current here, tape]
  | none =>
    have there : outcome (context ⟨w.contexts.size⟩) w.started =
        (.ok (w.started.context ⟨w.contexts.size⟩), w.started) := rfl
    have tape : w.recorded = [] := by
      rw [recorded, here]
      rfl
    rw [outcome_bind_ok (outcome_current_none here), outcome_bind_ok there,
      outcome_current_none here, tape, tape_started]

theorem Blind.backward [Scalar α] {tape : List (TapeRecord α)} (loss? : Option VariableId) :
    Blind tape (backward loss?) := by
  have swept : Blind tape (do
      let k ← context (← Session.current)
      k.tape.toList.reverse.forM Session.sweep) := by
    intro w w₁ alike
    obtain ⟨-, started⟩ := Blind.current w w₁ alike
    have recorded : w₁.recorded = w.recorded := by
      rw [alike.rest]
      rfl
    rw [outcome_sweepAll, outcome_sweepAll, recorded, alike.recorded]
    exact forM (fun r hr => sweep (List.mem_reverse.1 hr)) _ _ started
  cases loss? with
  | none => exact swept
  | some loss =>
    refine (var loss).bind fun y => ?_
    cases y.grad with
    | none => exact throw _
    | some grad => exact (fillGrad loss grad 1).bind fun _ => swept

theorem alike_of_setAll [Scalar α] {qs : List (VariableId × NDArray α)}
    (gains : ∀ r ∈ w.recorded, ∀ v ∈ r.operation.gain?,
      ((outcome (qs.forM fun (v, x) => setData v x) w).2.tensor (w.var v).data).value =
        (w.tensor (w.var v).data).value) :
    w.Alike w.recorded (outcome (qs.forM fun (v, x) => setData v x) w).2 := by
  have filled : ∃ done, (outcome (qs.forM fun (v, x) => setData v x) w).2 = w.fillAll done := by
    rcases outcome_setAll_cases qs w with all | ⟨done, q, later, e, -, -, some⟩
    · exact ⟨qs, congrArg Prod.snd all⟩
    · exact ⟨done, congrArg Prod.snd some⟩
  obtain ⟨done, same⟩ := filled
  rw [same] at gains ⊢
  refine ⟨Workspace.fillAll_rest done w, rfl, fun t => ?_, fun r hr v hv => ?_⟩
  · rw [Workspace.tensor_fillAll]
  · rw [Workspace.tensor_fillAll, gains r hr v hv]

/-- Variables that get new data after they were used do not change what the pass back gives, nor the
gradients it leaves, as long as no layer normalisation on the tape has one of them as its gain. -/
theorem backward_reassigned [Scalar α] {qs : List (VariableId × NDArray α)} {w₁ : Workspace α}
    {loss? : Option VariableId}
    (assigned : (outcome (qs.forM fun (v, x) => setData v x) w).2 = w₁)
    (gains : ∀ r ∈ w.recorded, ∀ v ∈ r.operation.gain?,
      (w₁.tensor (w.var v).data).value = (w.tensor (w.var v).data).value) :
    (outcome (backward loss?) w₁).1 = (outcome (backward loss?) w).1 ∧
      (outcome (backward loss?) w₁).2.vars = (outcome (backward loss?) w).2.vars := by
  subst assigned
  obtain ⟨same, after⟩ := Blind.backward loss? w _ (alike_of_setAll gains)
  exact ⟨same, by rw [after.rest]⟩

def normalisedPair : Workspace Float :=
  let start := .ofContext (.ofArena (.ofChunkSize 64) 10) fun _ => 0
  let numbers := (outcome (Action.tensor ⟨[1, 2], #[0, 2], rfl⟩ false).run start).2
  let gain := (outcome (Action.tensor ⟨[2], #[1, 2], rfl⟩ false).run numbers).2
  let shift := (outcome (Action.tensor (.fill [2] 0) false).run gain).2
  let x := (outcome (Action.parameter ⟨0⟩ "x").run shift).2
  let gamma := (outcome (Action.parameter ⟨1⟩ "gamma").run x).2
  let beta := (outcome (Action.parameter ⟨2⟩ "beta").run gamma).2
  (outcome (Action.apply (.layerNorm 3 ⟨0⟩ ⟨1⟩ ⟨2⟩)).run beta).2

def reassigned (qs : List (VariableId × NDArray Float)) : Workspace Float :=
  (outcome (qs.forM fun (v, x) => setData v x) normalisedPair).2

def pairGradient (w : Workspace Float) : Option (List Float) :=
  ((outcome (backward (some ⟨3⟩)) w).2.gradient? ⟨0⟩).map NDArray.toList

theorem backward_reassigned_input :
    (∀ r ∈ normalisedPair.recorded, ∀ v ∈ r.operation.gain?,
      ((reassigned [(⟨0⟩, .fill [1, 2] 5), (⟨2⟩, .fill [2] 1)]).tensor
        (normalisedPair.var v).data).value =
          (normalisedPair.tensor (normalisedPair.var v).data).value) ∧
      pairGradient (reassigned [(⟨0⟩, .fill [1, 2] 5), (⟨2⟩, .fill [2] 1)]) =
        pairGradient normalisedPair ∧
      pairGradient normalisedPair = some [-0.1875, 0.1875] := by
  have gains : ∀ r ∈ normalisedPair.recorded, ∀ v ∈ r.operation.gain?,
      ((reassigned [(⟨0⟩, .fill [1, 2] 5), (⟨2⟩, .fill [2] 1)]).tensor
        (normalisedPair.var v).data).value =
          (normalisedPair.tensor (normalisedPair.var v).data).value := by
    decide +kernel
  have assigned : (outcome ([((⟨0⟩ : VariableId), (.fill [1, 2] 5 : NDArray Float)),
      (⟨2⟩, .fill [2] 1)].forM fun (v, x) => setData v x) normalisedPair).2 =
        reassigned [(⟨0⟩, .fill [1, 2] 5), (⟨2⟩, .fill [2] 1)] := rfl
  have same : (outcome (backward (some ⟨3⟩)) (reassigned [(⟨0⟩, .fill [1, 2] 5),
      (⟨2⟩, .fill [2] 1)])).2.vars = (outcome (backward (some ⟨3⟩)) normalisedPair).2.vars :=
    (backward_reassigned assigned gains).2
  refine ⟨gains, ?_, by decide +kernel⟩
  unfold pairGradient Workspace.gradient? Workspace.var
  rw [same]

/-- Its gain was not: with two equal ones after the pass forward, the gradient is gone. -/
theorem backward_reassigned_gain :
    (outcome (setData ⟨1⟩ (.fill [2] 1)) normalisedPair).1.isOk = true ∧
      pairGradient normalisedPair = some [-0.1875, 0.1875] ∧
      pairGradient (reassigned [(⟨1⟩, .fill [2] 1)]) = some [0, 0] := by
  decide +kernel

end Session

end DerivativeEngine
