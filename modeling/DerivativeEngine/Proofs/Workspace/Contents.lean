import DerivativeEngine.Proofs.Workspace.Outputs
import DerivativeEngine.Training.Optimizer
import Mathlib.Order.Defs.Unbundled

/-! What is never moved. A reverse sweep, a gradient set to zero and a step of an optimizer put
other contents into tensors, and nothing else: shapes and places stay, a variable keeps its tensor
and its gradient, and what is sound stays sound. All of them are made of a few changes, in an order
that depends on what is read, and may fail between two of them; so what every change respects holds
of the workspace that is left, whatever the end. -/

namespace DerivativeEngine

variable {α β γ : Type}

def Tensor.Filled (t : Tensor α) : Prop := ∃ x, t.value = some x ∧ x.shape = t.shape

structure Tensor.Refills (t t' : Tensor α) : Prop where
  shape : t'.shape = t.shape
  place : t'.place = t.place
  filled : t.Filled → t'.Filled

theorem Tensor.Refills.refl (t : Tensor α) : t.Refills t := ⟨rfl, rfl, id⟩

theorem Tensor.Refills.trans {t t' t'' : Tensor α} (h : t.Refills t') (h' : t'.Refills t'') :
    t.Refills t'' :=
  ⟨h'.shape.trans h.shape, h'.place.trans h.place, fun filled => h'.filled (h.filled filled)⟩

theorem Tensor.refills_value {t : Tensor α} {x : NDArray α} (shape : x.shape = t.shape) :
    t.Refills { t with value := some x } :=
  ⟨rfl, rfl, fun _ => ⟨x, rfl, shape⟩⟩

namespace Workspace

variable {w w' w'' : Workspace α} {c : ContextId}

structure Keeps (w w' : Workspace α) : Prop where
  tensors : w.tensors.size ≤ w'.tensors.size
  vars : w.vars.size ≤ w'.vars.size
  tensor : ∀ t : TensorId, t.index < w.tensors.size → (w.tensor t).Refills (w'.tensor t)
  var : ∀ v : VariableId, v.index < w.vars.size →
    w'.var v = { w.var v with grad := (w'.var v).grad }
  isSome : ∀ v : VariableId, v.index < w.vars.size →
    (w'.var v).grad.isSome = (w.var v).grad.isSome
  grad : ∀ v : VariableId, v.index < w.vars.size →
    ∀ g ∈ (w.var v).grad, ∀ g' ∈ (w'.var v).grad, g.Refills g'

namespace Keeps

theorem of_eq (tensors : w'.tensors = w.tensors) (vars : w'.vars = w.vars) : w.Keeps w' := by
  have tensor : w'.tensor = w.tensor := by
    funext t
    rw [Workspace.tensor, tensors]
    rfl
  have var : w'.var = w.var := by
    funext v
    rw [Workspace.var, vars]
    rfl
  exact
    { tensors := Nat.le_of_eq (congrArg Array.size tensors.symm)
      vars := Nat.le_of_eq (congrArg Array.size vars.symm)
      tensor := fun t _ => tensor ▸ .refl _
      var := fun v _ => by rw [var]
      isSome := fun v _ => by rw [var]
      grad := by
        intro v _ g hg g' hg'
        rw [var] at hg'
        obtain rfl := Option.mem_unique hg hg'
        exact .refl g }

theorem refl (w : Workspace α) : w.Keeps w := of_eq rfl rfl

theorem trans (h : w.Keeps w') (h' : w'.Keeps w'') : w.Keeps w'' where
  tensors := Nat.le_trans h.tensors h'.tensors
  vars := Nat.le_trans h.vars h'.vars
  tensor t ht := (h.tensor t ht).trans (h'.tensor t (Nat.lt_of_lt_of_le ht h.tensors))
  var v hv := by
    rw [h'.var v (Nat.lt_of_lt_of_le hv h.vars), h.var v hv]
  isSome v hv := (h'.isSome v (Nat.lt_of_lt_of_le hv h.vars)).trans (h.isSome v hv)
  grad v hv g hg g'' hg'' := by
    have later := Nat.lt_of_lt_of_le hv h.vars
    have there : (w'.var v).grad.isSome = true := by
      rw [h.isSome v hv, hg]
      rfl
    obtain ⟨g', hg'⟩ := Option.isSome_iff_exists.1 there
    exact (h.grad v hv g hg g' hg').trans (h'.grad v later g' hg' g'' hg'')

theorem data (h : w.Keeps w') {v : VariableId} (hv : v.index < w.vars.size) :
    (w'.var v).data = (w.var v).data :=
  (congrArg Variable.data (h.var v hv)).trans rfl

theorem requiresGrad (h : w.Keeps w') {v : VariableId} (hv : v.index < w.vars.size) :
    (w'.var v).requiresGrad = (w.var v).requiresGrad :=
  (congrArg Variable.requiresGrad (h.var v hv)).trans rfl

theorem isParameter (h : w.Keeps w') {v : VariableId} (hv : v.index < w.vars.size) :
    (w'.var v).isParameter = (w.var v).isParameter :=
  (congrArg Variable.isParameter (h.var v hv)).trans rfl

theorem shapeOf [Scalar α] (h : w.Keeps w') (s : w.Sound c) {v : VariableId}
    (hv : v.index < w.vars.size) : w'.shapeOf v = w.shapeOf v := by
  unfold Workspace.shapeOf
  rw [h.data hv, (h.tensor _ (s.vars v hv).known).shape]

end Keeps

theorem Pushes.keeps {ts : List (Tensor α)} {ys : List (Variable α)} {rs : List (TapeRecord α)}
    (h : w.Pushes w' c ts ys rs) : w.Keeps w' where
  tensors := h.grown.tensors
  vars := h.grown.vars
  tensor t ht := h.tensor_old ht ▸ .refl _
  var v hv := by rw [h.var_old hv]
  isSome v hv := by rw [h.var_old hv]
  grad v hv g hg g' hg' := by
    rw [h.var_old hv] at hg'
    obtain rfl := Option.mem_unique hg hg'
    exact .refl g

structure Refills (w w' : Workspace α) : Prop extends w.Keeps w' where
  size_tensors : w'.tensors.size = w.tensors.size
  size_vars : w'.vars.size = w.vars.size
  contexts : w'.contexts = w.contexts
  current : w'.current = w.current

instance : IsPreorder (Workspace α) Refills where
  refl w := ⟨.refl w, rfl, rfl, rfl, rfl⟩
  trans _ _ _ h h' := ⟨h.toKeeps.trans h'.toKeeps, h'.size_tensors.trans h.size_tensors,
    h'.size_vars.trans h.size_vars, h'.contexts.trans h.contexts, h'.current.trans h.current⟩

theorem Refills.context (h : w.Refills w') (d : ContextId) : w'.context d = w.context d := by
  rw [Workspace.context, h.contexts]
  rfl

theorem Refills.grown (h : w.Refills w') : w.Extends w' where
  generation d := by rw [Workspace.generation, h.context]; rfl
  tensors := h.tensors
  vars := h.vars
  tensor t ht := ⟨(h.tensor t ht).shape, (h.tensor t ht).place⟩
  data _ hv := h.data hv

theorem Refills.sound [Scalar α] (h : w.Refills w') (s : w.Sound c) : w'.Sound c := by
  have tape : w'.tape c = w.tape c := by
    rw [Workspace.tape, h.context]
    rfl
  refine s.extend h.grown h.current (congrArg Array.size h.contexts) tape ?_ ?_
  · intro t ht
    rw [h.size_tensors] at ht
    obtain ⟨filled, placed⟩ := s.tensors t ht
    exact ⟨(h.tensor t ht).filled filled, (h.tensor t ht).place ▸ placed⟩
  · intro v hv
    rw [h.size_vars] at hv
    have before := s.vars v hv
    have data := h.tensor _ before.known
    exact
      { known := by
          rw [h.data hv, h.size_tensors]
          exact before.known
        asked := by
          intro unasked
          rw [h.requiresGrad hv] at unasked
          have none := h.isSome v hv
          rw [before.asked unasked] at none
          simpa using none
        grad := by
          intro g' hg'
          have there : (w.var v).grad.isSome = true := by
            rw [← h.isSome v hv, hg']
            rfl
          obtain ⟨g, hg⟩ := Option.isSome_iff_exists.1 there
          have refilled := h.grad v hv g hg g' hg'
          obtain ⟨sound, shape, outlasts⟩ := before.grad g hg
          refine ⟨⟨refilled.filled sound.filled, ?_⟩, ?_, ?_⟩
          · rw [refilled.place]
            exact (h.grown.tensor_sound sound).placed
          · rw [refilled.shape, shape, h.data hv, data.shape]
          · unfold Tensor.Outlasts
            rw [refilled.place, h.data hv, data.place]
            exact outlasts }

theorem refills_setTensor {t : TensorId} {x : NDArray α} (shape : x.shape = (w.tensor t).shape) :
    w.Refills (w.setTensor t { w.tensor t with value := some x }) where
  tensors := Nat.le_of_eq (by simp [setTensor])
  vars := Nat.le_refl _
  tensor u _ := by
    rw [tensor_setTensor]
    split
    · next same =>
      rw [same.1]
      exact Tensor.refills_value shape
    · exact .refl _
  var _ _ := rfl
  isSome _ _ := rfl
  grad v _ g hg g' hg' := by
    obtain rfl := Option.mem_unique hg hg'
    exact .refl g
  size_tensors := by simp [setTensor]
  size_vars := rfl
  contexts := rfl
  current := rfl

theorem refills_setGrad {v : VariableId} {g : Tensor α} (hg : (w.var v).grad = some g)
    {x : NDArray α} (shape : x.shape = g.shape) :
    w.Refills (w.setVariable v { w.var v with grad := some { g with value := some x } }) where
  tensors := Nat.le_refl _
  vars := Nat.le_of_eq (by simp [setVariable])
  tensor _ _ := .refl _
  var u _ := by
    rw [var_setVariable]
    split
    · next same => rw [same.1]
    · rfl
  isSome u _ := by
    rw [var_setVariable]
    split
    · next same =>
      rw [same.1, hg]
      rfl
    · rfl
  grad u _ g₁ hg₁ g₂ hg₂ := by
    rw [var_setVariable] at hg₂
    split at hg₂
    · next same =>
      rw [same.1, hg] at hg₁
      obtain rfl := Option.mem_some.1 hg₁
      obtain rfl := Option.mem_some.1 hg₂
      exact Tensor.refills_value shape
    · obtain rfl := Option.mem_unique hg₁ hg₂
      exact .refl g₁
  size_tensors := rfl
  size_vars := by simp [setVariable]
  contexts := rfl
  current := rfl

end Workspace

namespace Session

variable {w : Workspace α} {c : ContextId}

theorem readGrad?_reads (v : VariableId) (w : Workspace α) :
    ∃ x, outcome (readGrad? v) w = (x, w) := by
  unfold readGrad?
  rw [outcome_bind_ok (outcome_var v)]
  cases (w.var v).grad with
  | none => exact ⟨_, rfl⟩
  | some g => exact ⟨_, outcome_bind_reads (outcome_read g) fun y => rfl⟩

/-- However the session ends, the workspace that it leaves is related to the one it found. -/
def Leads (R : Workspace α → Workspace α → Prop) (p : Session α β) (w : Workspace α) : Prop :=
  R w (outcome p w).2

namespace Leads

variable {R : Workspace α → Workspace α → Prop} [IsPreorder (Workspace α) R]

theorem of_reads {p : Session α β} {x : Except TensorError β} (reads : outcome p w = (x, w)) :
    Leads R p w := by
  rw [Leads, reads]
  exact refl_of R w

theorem bind {p : Session α β} {f : β → Session α γ} (first : Leads R p w)
    (second : ∀ x w', outcome p w = (.ok x, w') → Leads R (f x) w') : Leads R (p >>= f) w := by
  unfold Leads at first second ⊢
  rw [outcome_bind]
  cases run : outcome p w with
  | mk x w' =>
    rw [run] at first
    cases x with
    | error e => exact first
    | ok x => exact trans_of R first (second x w' run)

theorem after {p : Session α β} {f : β → Session α γ} {x : Except TensorError β}
    (reads : outcome p w = (x, w)) (second : ∀ y, x = .ok y → Leads R (f y) w) :
    Leads R (p >>= f) w := by
  refine (of_reads reads).bind fun y w' run => ?_
  obtain ⟨rfl, rfl⟩ := Prod.mk.inj (reads.symm.trans run)
  exact second y rfl

theorem forM {ν : Type} {f : ν → Session α PUnit} : ∀ {vs : List ν} {w : Workspace α},
    (∀ v ∈ vs, ∀ w, Leads R (f v) w) → Leads R (vs.forM f) w
  | [], _, _ => of_reads rfl
  | v :: _, w, each =>
    (each v List.mem_cons_self w).bind fun _ _ _ =>
      forM fun u hu => each u (List.mem_cons_of_mem _ hu)

theorem mapM {ν : Type} {f : ν → Session α β} : ∀ {vs : List ν} {w : Workspace α},
    (∀ v ∈ vs, ∀ w, Leads R (f v) w) → Leads R (vs.mapM f) w
  | [], _, _ => of_reads rfl
  | v :: vs, w, each => by
    obtain ⟨first, others⟩ := List.forall_mem_cons.1 each
    rw [List.mapM_cons]
    exact (first w).bind fun _ _ _ => (mapM others).bind fun _ _ _ => of_reads rfl

theorem step [Scalar α] (assign : ∀ (t : TensorId) (x : NDArray α) w, Leads R (assign t x) w)
    (tell : ∀ (o : OptimizerId) f w, Leads R (modifyOptimizer o f) w) (o : OptimizerId)
    (w : Workspace α) : Leads R (step o) w := by
  unfold Session.step
  refine after (x := .ok (w.optimizer o)) rfl fun s _ => ?_
  cases s.rule with
  | none => exact of_reads rfl
  | descent =>
    refine forM fun p _ w => ?_
    unfold descend
    refine after (outcome_var p) fun v _ => ?_
    cases v.grad with
    | none => exact of_reads rfl
    | some g =>
      exact after (outcome_value p) fun x _ => after (outcome_read g) fun y _ => assign _ _ w
  | adam a =>
    refine (tell o _ w).bind fun _ w _ => after (outcome_ofExcept _) fun k _ => ?_
    refine forM fun q _ w => ?_
    unfold adapt
    obtain ⟨_, reads⟩ := readGrad?_reads q.1 w
    refine after reads fun g _ => ?_
    cases g with
    | none => exact of_reads rfl
    | some g =>
      refine (tell o _ w).bind fun _ w _ => after (x := .ok (w.optimizer o)) rfl fun s _ => ?_
      cases s.adam? with
      | none => exact of_reads rfl
      | some a =>
        exact after (outcome_value q.1) fun x _ => after (outcome_var q.1) fun v _ => assign _ _ w

end Leads

section Refills

variable [Scalar α]

omit [Scalar α] in
theorem refills_assign (t : TensorId) (x : NDArray α) (w : Workspace α) :
    Leads Workspace.Refills (assign t x) w := by
  refine .after (outcome_tensor t) fun old held => .after outcome_get fun w' same => ?_
  obtain rfl := Except.ok.inj held
  obtain rfl := Except.ok.inj same
  refine .after (outcome_ofExcept _) fun t' assigned => ?_
  obtain ⟨shape, -, rfl⟩ := Workspace.assigned_eq_ok.1 assigned
  exact Workspace.refills_setTensor shape

omit [Scalar α] in
theorem refills_assignGrad {v : VariableId} {g : Tensor α} (hg : (w.var v).grad = some g)
    (x : NDArray α) : Leads Workspace.Refills (assignGrad v g x) w := by
  refine .after outcome_get fun w' same => ?_
  obtain rfl := Except.ok.inj same
  refine .after (outcome_ofExcept _) fun g' assigned => ?_
  obtain ⟨shape, -, rfl⟩ := Workspace.assigned_eq_ok.1 assigned
  exact Workspace.refills_setGrad hg shape

omit [Scalar α] in
theorem refills_fillGrad {v : VariableId} {g : Tensor α} (hg : (w.var v).grad = some g) (x : α) :
    Leads Workspace.Refills (fillGrad v g x) w :=
  .after (outcome_read g) fun _ _ => refills_assignGrad hg _

theorem refills_zeroGrad (v : VariableId) (w : Workspace α) :
    Leads Workspace.Refills (zeroGrad v) w := by
  refine .after (outcome_var v) fun y same => ?_
  obtain rfl := Except.ok.inj same
  cases hg : (w.var v).grad with
  | none => exact .of_reads rfl
  | some g => exact refills_fillGrad hg 0

theorem refills_accumulate (v : VariableId) (x : NDArray α) (w : Workspace α) :
    Leads Workspace.Refills (accumulate v x) w := by
  refine .after (outcome_var v) fun y same => ?_
  obtain rfl := Except.ok.inj same
  cases hg : (w.var v).grad with
  | none => exact .of_reads rfl
  | some g =>
    refine .after (outcome_read g) fun old _ => ?_
    cases old.addAligned? x with
    | none => exact .of_reads rfl
    | some sum => exact refills_assignGrad hg sum

theorem refills_send (v : VariableId) (x : NDArray α) (w : Workspace α) :
    Leads Workspace.Refills (send v x) w := by
  refine .after (x := .ok (w.var v).requiresGrad) rfl fun asks _ => ?_
  cases asks with
  | false => exact .of_reads rfl
  | true => exact refills_accumulate v x w

theorem refills_sweep (r : TapeRecord α) (w : Workspace α) :
    Leads Workspace.Refills (sweep r) w := by
  obtain ⟨_, reads⟩ := readGrad?_reads r.output w
  refine .after reads fun g _ => ?_
  cases g with
  | none => exact .of_reads rfl
  | some g =>
    have each (w : Workspace α) (v : VariableId) :
        outcome (do return (v, ← shapeOf v)) w = (.ok (v, w.shapeOf v), w) := rfl
    refine (Leads.mapM fun t _ w => .of_reads (outcome_read t)).bind fun saved w _ => ?_
    refine .after (outcome_mapM_ok (each w) r.operation) fun shaped _ => ?_
    refine (Leads.forM fun p _ w => refills_send p.1 p.2 w).bind fun _ w _ => ?_
    cases r.operation.deferred? saved g with
    | none => exact .of_reads rfl
    | some d => exact .after (outcome_value d.reads) fun _ _ => refills_send d.target _ w

theorem refills_backward (here : w.current = some c) (loss? : Option VariableId) :
    Leads Workspace.Refills (backward loss?) w := by
  have swept : ∀ w : Workspace α, w.current = some c → Leads Workspace.Refills (do
      let k ← context (← current)
      k.tape.toList.reverse.forM sweep) w := by
    intro w here
    refine .after (outcome_current here) fun c _ => ?_
    refine .after (x := .ok (w.context c)) rfl fun k _ => ?_
    exact Leads.forM fun r _ w => refills_sweep r w
  cases loss? with
  | none => exact swept w here
  | some loss =>
    unfold backward
    refine .after (outcome_var loss) fun y same => ?_
    obtain rfl := Except.ok.inj same
    cases hg : (w.var loss).grad with
    | none => exact .of_reads rfl
    | some g =>
      refine (refills_fillGrad hg 1).bind fun _ w₁ run => swept w₁ ?_
      have refilled := refills_fillGrad hg (1 : α)
      rw [Leads, run] at refilled
      exact refilled.current.trans here

theorem refills_zeroGrads (o : OptimizerId) (w : Workspace α) :
    Leads Workspace.Refills (zeroGrads o) w :=
  .after (x := .ok (w.optimizer o)) rfl fun _ _ => Leads.forM fun v _ w => refills_zeroGrad v w

theorem refills_step (o : OptimizerId) (w : Workspace α) :
    Leads Workspace.Refills (step o) w :=
  Leads.step refills_assign (fun _ _ _ => ⟨.of_eq rfl rfl, rfl, rfl, rfl, rfl⟩) o w

theorem refills_newOptimizer (parameters : List VariableId) (choice : RuleChoice α) (rate : α)
    (w : Workspace α) : Leads Workspace.Refills (newOptimizer parameters choice rate) w := by
  refine .after outcome_get fun _ same => ?_
  obtain rfl := Except.ok.inj same
  have rule : Leads Workspace.Refills
      (ruleFor (parameters.filter fun p => (w.var p).requiresGrad) choice) w := by
    cases choice with
    | none => exact .of_reads rfl
    | descent => exact .of_reads rfl
    | adam beta₁ beta₂ eps =>
      refine (Leads.mapM fun v _ w => .of_reads (outcome_value v)).bind fun _ _ _ => ?_
      exact .of_reads rfl
  exact rule.bind fun _ _ _ => ⟨.of_eq rfl rfl, rfl, rfl, rfl, rfl⟩

end Refills

end Session

end DerivativeEngine
