import DerivativeEngine.Proofs.Arena.Blocks
import DerivativeEngine.Proofs.Scalar.Exact
import DerivativeEngine.Proofs.Workspace.Recorded

/-! What an operation costs. Eight bytes of the arena go to each element of what is made: of the
output, of its gradient if it has one, and of the arrays saved with the record. A session's bill is
the sum of the bills of its parts. An operation that is refused has made nothing before, so the
workspace is then as it was. -/

namespace DerivativeEngine

namespace Arena

variable (a : Arena) (size n : Nat)

theorem exists_chunk : ∃ c, (a.roomy size).chunks[a.findRoom size]? = some c := by
  unfold roomy
  split
  · next inside => exact ⟨_, List.getElem?_eq_getElem inside⟩
  · next full =>
    have last : a.findRoom size = a.chunks.length :=
      Nat.le_antisymm (a.findRoom_le size) (Nat.le_of_not_lt full)
    rw [last]
    exact ⟨_, List.getElem?_concat_length⟩

theorem used_roomy : (a.roomy size).used = a.used := by
  unfold roomy
  split
  · rfl
  · exact used_append _ _ rfl

theorem used_reserve : (a.reserve n).2.used = a.used + align n := by
  obtain ⟨c, there⟩ := a.exists_chunk (align n)
  have bumped : ((a.roomy (align n)).bump (a.findRoom (align n)) (align n)).used =
      align n + (a.roomy (align n)).used := used_modify there _
  rw [a.reserve_eq n there, bumped, used_roomy, Nat.add_comm]

theorem align_eight_mul : align (8 * n) = 8 * n := by
  unfold align alignment
  omega

end Arena

namespace Workspace

variable {α : Type}

def used (w : Workspace α) (c : ContextId) : Nat := (w.context c).arena.used

def elements (ts : List (Tensor α)) : Nat := (ts.map fun t => t.shape.size).sum

theorem elements_of_made {w : Workspace α} {home : Option ContextId} {xs : List (NDArray α)}
    {ts : List (Tensor α)} (h : List.Forall₂ (fun x t => w.Made x home t) xs ts) :
    elements ts = (xs.map NDArray.size).sum := by
  induction h with
  | nil => rfl
  | cons first _ rest =>
    simp only [elements, List.map_cons, List.sum_cons] at rest ⊢
    rw [rest, first.shape, NDArray.size]

theorem used_record (w : Workspace α) (c : ContextId) (r : TapeRecord α) :
    (w.modifyContext c fun k => k.record r).used c = w.used c := by
  unfold used
  rw [context_modifyContext]
  split <;> rfl

end Workspace

namespace Session

open Workspace (elements)

variable {α β γ : Type} {w : Workspace α} {c : ContextId} {m n : Nat}

def Spends (w : Workspace α) (c : ContextId) (p : Session α β) (n : Nat) : Prop :=
  ∀ x w', outcome p w = (.ok x, w') →
    w'.contexts.size = w.contexts.size ∧ w'.used c = w.used c + n

theorem Spends.bind {p : Session α β} {f : β → Session α γ} (first : Spends w c p m)
    (rest : ∀ x w₁, outcome p w = (.ok x, w₁) → Spends w₁ c (f x) n) :
    Spends w c (p >>= f) (m + n) := by
  intro y w' run
  obtain ⟨x, w₁, here, there⟩ := outcome_bind_eq_ok.1 run
  obtain ⟨size₁, used₁⟩ := first x w₁ here
  obtain ⟨size₂, used₂⟩ := rest x w₁ here y w' there
  refine ⟨size₂.trans size₁, ?_⟩
  rw [used₂, used₁, Nat.add_assoc]

theorem spends_pure (x : β) : Spends w c (pure x) 0 := by
  intro y w' run
  obtain ⟨-, rfl⟩ := outcome_pure_eq_ok.1 run
  exact ⟨rfl, rfl⟩

theorem Spends.map {p : Session α β} (h : Spends w c p n) (f : β → γ) :
    Spends w c (f <$> p) n := by
  rw [map_eq_pure_bind]
  exact h.bind fun x _ _ => spends_pure (f x)

theorem spends_reserve (known : c.index < w.contexts.size) (n : Nat) :
    Spends w c (reserve c n) (8 * n) := by
  intro x w' run
  obtain ⟨-, rfl⟩ := Prod.mk.inj run
  refine ⟨Array.size_modify, ?_⟩
  change ((w.modifyContext c fun k =>
    { k with arena := ((w.context c).arena.reserve (8 * n)).2 }).context c).arena.used = _
  rw [Workspace.context_modifyContext, if_pos ⟨rfl, known⟩, Arena.used_reserve,
    Arena.align_eight_mul]
  rfl

theorem spends_wrap (known : c.index < w.contexts.size) (x : NDArray α) :
    Spends w c (wrap x (some c)) (8 * x.size) :=
  (spends_reserve known x.size).bind fun _ _ _ => spends_pure _

theorem spends_mapM_wrap (known : c.index < w.contexts.size) (xs : List (NDArray α)) :
    Spends w c (xs.mapM fun x => wrap x (some c)) (8 * (xs.map NDArray.size).sum) := by
  induction xs generalizing w with
  | nil => exact spends_pure _
  | cons x xs ih =>
    rw [List.mapM_cons, List.map_cons, List.sum_cons, Nat.mul_add]
    refine (spends_wrap known x).bind fun t w₁ run => ?_
    have there : c.index < w₁.contexts.size := (spends_wrap known x t w₁ run).1 ▸ known
    exact (ih there).bind fun ts _ _ => spends_pure _

theorem spends_make (known : c.index < w.contexts.size) (x : NDArray α) :
    Spends w c (make x (some c)) (8 * x.size) := by
  have push : ∀ (w₁ : Workspace α) (t : Tensor α), Spends w₁ c (newTensor t) 0 := by
    intro w₁ t y w' run
    obtain ⟨-, rfl⟩ := Prod.mk.inj run
    exact ⟨rfl, rfl⟩
  exact (spends_wrap known x).bind fun t w₁ _ => push w₁ t

variable [Scalar α]

theorem spends_variableOn (known : c.index < w.contexts.size) (d : TensorId)
    (requiresGrad isParameter : Bool) (name : String) :
    Spends w c (variableOn d requiresGrad isParameter name (some c))
      (8 * if requiresGrad then (w.tensor d).shape.size else 0) := by
  have push : ∀ (w₁ : Workspace α) (y : Variable α), Spends w₁ c (newVariable y) 0 := by
    intro w₁ y x w' run
    obtain ⟨-, rfl⟩ := Prod.mk.inj run
    exact ⟨rfl, rfl⟩
  have grad : Spends w c (if requiresGrad then
        some <$> wrap (.fill (w.tensor d).shape 0) (some c) else pure none)
      (8 * if requiresGrad then (w.tensor d).shape.size else 0) := by
    cases requiresGrad with
    | false => exact spends_pure _
    | true => exact (spends_wrap known (.fill (w.tensor d).shape 0)).map some
  intro x w' run
  unfold variableOn at run
  rw [outcome_bind_ok (outcome_tensor d)] at run
  refine (grad.bind fun g w₁ _ => push w₁ ⟨d, g, requiresGrad, isParameter, name⟩) x w' ?_
  cases requiresGrad with
  | false => exact run
  | true => exact run

theorem spends_output (known : c.index < w.contexts.size) (x : NDArray α) (requiresGrad : Bool) :
    Spends w c (do variableOn (← make x (some c)) requiresGrad false "" (some c))
      (8 * (x.size + if requiresGrad then x.size else 0)) := by
  rw [Nat.mul_add]
  refine (spends_make known x).bind fun d w₁ run => ?_
  have there : c.index < w₁.contexts.size := (spends_make known x d w₁ run).1 ▸ known
  have bill := spends_variableOn there d requiresGrad false ""
  obtain ⟨t, w₂, made, pushes, held⟩ := outcome_make x (some c) c w
  obtain ⟨same, rfl⟩ := Prod.mk.inj (made.symm.trans run)
  obtain rfl := Except.ok.inj same
  rwa [pushes.tensor_new, held.shape] at bill

theorem spends_apply (current : w.current = some c) (known : c.index < w.contexts.size)
    (op : Operation α VariableId) :
    Spends w c (apply op) (8 * ((op.result w.valueOf).size +
      if op.operands.any fun v => (w.var v).requiresGrad then
        (op.result w.valueOf).size +
          (((op.map w.valueOf).saved (op.result w.valueOf)).map NDArray.size).sum
      else 0)) := by
  intro v w' run
  have asks := outcome_anyM (fun v => (rfl : outcome (requiresGrad (α := α) v) w =
    (.ok (w.var v).requiresGrad, w))) op.operands
  have computed : (op.map w.valueOf).value = op.result w.valueOf := rfl
  unfold apply at run
  rw [outcome_bind_ok (outcome_current current),
    outcome_bind_ok (outcome_mapM_ok outcome_shapeOf op)] at run
  obtain ⟨_, w₁, passed, run⟩ := outcome_bind_eq_ok.1 run
  obtain rfl : w = w₁ := (Prod.mk.inj passed).2
  rcases outcome_mapM_value w op with ⟨e, failed⟩ | ⟨read, -⟩
  · rw [outcome_bind_error failed] at run
    cases run
  rw [outcome_bind_ok read, outcome_bind_ok asks] at run
  dsimp only at run
  rw [computed, ← bind_assoc] at run
  have output := spends_output known (op.result w.valueOf)
    (op.operands.any fun v => (w.var v).requiresGrad)
  cases needed : op.operands.any fun v => (w.var v).requiresGrad with
  | false =>
    rw [needed] at run output
    exact (output.bind fun x w₁ _ => spends_pure x) v w' run
  | true =>
    rw [needed] at run output
    rw [if_pos rfl, ← Nat.add_assoc, Nat.mul_add]
    refine (output.bind fun x w₁ made => ?_) v w' run
    have there : c.index < w₁.contexts.size := (output x w₁ made).1 ▸ known
    have records : ∀ (w₂ : Workspace α) (r : TapeRecord α),
        Spends w₂ c (do record c r; return x) 0 := by
      intro w₂ r y w₃ recorded
      obtain ⟨-, rfl⟩ := Prod.mk.inj recorded
      exact ⟨Array.size_modify, w₂.used_record c r⟩
    rw [if_pos rfl]
    exact (spends_mapM_wrap there _).bind fun saved w₂ _ => records w₂ ⟨op, x, saved⟩

end Session

/-- What an operation leaves behind: its output, which has a gradient exactly if an operand asks for
one, and then a record too; and the arena pays for what was made. -/
structure Workspace.Accounts [Scalar α] (w w' : Workspace α) (c : ContextId)
    (op : Operation α VariableId) (rs : List (TapeRecord α)) : Prop where
  output : w'.Held ⟨w.vars.size⟩ (op.result w.valueOf)
  others : ∀ v : VariableId, v.index < w.vars.size → w'.var v = w.var v
  tape : w'.tape c = w.tape c ++ rs
  records : ∀ r ∈ rs, r.operation = op ∧ r.output = ⟨w.vars.size⟩
  recorded : rs.length = if op.operands.any fun v => (w.var v).requiresGrad then 1 else 0
  gradient : (w'.var ⟨w.vars.size⟩).grad.isSome = op.operands.any fun v => (w.var v).requiresGrad
  used : w'.used c = w.used c + 8 * (elements [w'.tensor (w'.var ⟨w.vars.size⟩).data] +
    elements (w'.var ⟨w.vars.size⟩).grad.toList + elements (rs.flatMap TapeRecord.saved))

/-- Nothing is different, but that a context may be in use where none was. It is as a context that
is not there is taken to be: with nothing on its tape, and nothing in its arena. -/
structure Workspace.Unchanged (w w' : Workspace α) : Prop where
  tensors : w'.tensors = w.tensors
  vars : w'.vars = w.vars
  contexts : ∀ c, w'.context c = w.context c
  same : ∀ c, w.current = some c → w' = w

theorem Workspace.Unchanged.refl (w : Workspace α) : w.Unchanged w :=
  ⟨rfl, rfl, fun _ => rfl, fun _ _ => rfl⟩

theorem Workspace.Unchanged.started {w : Workspace α} (none : w.current = none) :
    w.Unchanged w.started where
  tensors := rfl
  vars := rfl
  contexts := w.context_started
  same c here := by simp [none] at here

/-- The numbers a prediction is compared with, if they can be read. -/
def Workspace.targetOf [Scalar α] (w : Workspace α) : Target α → NDArray α
  | .numbers x => x
  | .tensor t => (w.tensor t).value.getD (.fill [] 0)
  | .var v => w.valueOf v

theorem Workspace.Unchanged.targetOf [Scalar α] {w w' : Workspace α} (h : w.Unchanged w')
    (target : Target α) : w'.targetOf target = w.targetOf target := by
  have tensor (t : TensorId) : w'.tensor t = w.tensor t := by
    unfold Workspace.tensor
    rw [h.tensors]
  cases target with
  | numbers x => rfl
  | tensor t => rw [Workspace.targetOf, tensor, Workspace.targetOf]
  | var v =>
    rw [Workspace.targetOf, Workspace.targetOf, Workspace.valueOf, Workspace.valueOf,
      Workspace.var, h.vars, tensor]
    rfl

theorem Workspace.Applies.accounts [Scalar α] {w w' : Workspace α} {c : ContextId}
    {op : Operation α VariableId} {t : Tensor α} {y : Variable α} {rs : List (TapeRecord α)}
    (h : w.Applies w' c op t y rs)
    (bill : w'.used c = w.used c + 8 * ((op.result w.valueOf).size +
      if op.operands.any fun v => (w.var v).requiresGrad then
        (op.result w.valueOf).size +
          (((op.map w.valueOf).saved (op.result w.valueOf)).map NDArray.size).sum
      else 0)) : w.Accounts w' c op rs := by
  have output : elements [w'.tensor (w'.var ⟨w.vars.size⟩).data] = (op.result w.valueOf).size := by
    simp [elements, h.fresh.data.shape, NDArray.size]
  have newest := h.pushes.var_new
  have asked := h.fresh.asked
  rw [newest] at asked
  have gradient := asked.trans h.asks
  rw [← h.asks] at bill
  -- Whether the output asks for a gradient decides on the gradient and on the record.
  cases needed : y.requiresGrad with
  | false =>
    obtain rfl := h.unrecorded needed
    have none : y.grad = none := by simpa [needed] using asked
    rw [needed, if_neg Bool.false_ne_true] at bill
    refine ⟨h.fresh.held, fun v => h.pushes.var_old, h.pushes.tape, by simp, ?_, ?_, ?_⟩
    · rw [← h.asks, needed]
      rfl
    · rw [newest, gradient]
    · rw [bill, output, newest, none]
      rfl
  | true =>
    obtain ⟨saved, rfl, made⟩ := h.recorded needed
    obtain ⟨g, there⟩ := Option.isSome_iff_exists.1 (asked.trans needed)
    have zeros := h.fresh.grad g (by rw [newest]; exact there)
    have grad : elements y.grad.toList = (op.result w.valueOf).size := by
      simp [there, elements, zeros.shape, NDArray.size, NDArray.fill, NDArray.ofFn]
    rw [needed, if_pos rfl] at bill
    refine ⟨h.fresh.held, fun v => h.pushes.var_old, h.pushes.tape, by simp, ?_, ?_, ?_⟩
    · rw [← h.asks, needed]
      rfl
    · rw [newest, gradient]
    · rw [bill, output, newest, grad, List.flatMap_singleton,
        Workspace.elements_of_made made, Nat.add_assoc]

namespace Session

variable {α : Type} [Scalar α] {w : Workspace α}

/-- The session gives an error and changes nothing, or it records the operation in the context in
use. -/
def Settles (w : Workspace α) (p : Session α VariableId) (op : Operation α VariableId) : Prop :=
  (∃ e w', outcome p w = (.error e, w') ∧ w.Unchanged w') ∨
    ∃ c w₀ rs w', outcome current w = (.ok c, w₀) ∧ outcome p w = (.ok ⟨w.vars.size⟩, w') ∧
      w₀.Accounts w' c op rs

theorem targetOf_of_read {target : Target α} {x : NDArray α}
    (read : outcome (readTarget target) w = (.ok x, w)) : w.targetOf target = x := by
  have held {t : Tensor α}
      (read : ((failAs .lifetime (w.read t), w) : Except TensorError (NDArray α) × Workspace α) =
        (.ok x, w)) : t.value.getD (.fill [] 0) = x := by
    rw [(Workspace.read_eq_ok.1 (ok_of_failAs (Prod.mk.inj read).1)).2]
    rfl
  cases target with
  | numbers y => exact Except.ok.inj (Prod.mk.inj read).1
  | tensor t => exact held read
  | var v => exact held read

omit [Scalar α] in
/-- What takes the context in use first does the same once that context is there. -/
theorem outcome_current_cases (known : ∀ c ∈ w.current, c.index < w.contexts.size) :
    ∃ c w₀, outcome current w = (.ok c, w₀) ∧ w₀.current = some c ∧
      c.index < w₀.contexts.size ∧ w.Unchanged w₀ ∧
        ∀ {β : Type} (f : ContextId → Session α β),
          outcome (current >>= f) w = outcome (current >>= f) w₀ := by
  cases here : w.current with
  | some c => exact ⟨c, w, outcome_current here, here, known c here, .refl w, fun _ => rfl⟩
  | none =>
    refine ⟨_, w.started, outcome_current_none here, rfl, ?_, .started here, fun f => ?_⟩
    · simp [Workspace.started]
    · rw [outcome_bind_ok (outcome_current_none here), outcome_bind_ok (outcome_current rfl)]

theorem accounts_apply {c : ContextId} (current : w.current = some c)
    (known : c.index < w.contexts.size) (op : Operation α VariableId) :
    (∃ e, outcome (apply op) w = (.error e, w)) ∨
      ∃ rs w', outcome (apply op) w = (.ok ⟨w.vars.size⟩, w') ∧ w.Accounts w' c op rs := by
  rcases outcome_apply_cases current known op with failed | ⟨-, -, t, y, rs, w', run, applies⟩
  · exact .inl failed
  · exact .inr ⟨rs, w', run, applies.accounts (spends_apply current known op _ _ run).2⟩

theorem settles_apply (known : ∀ c ∈ w.current, c.index < w.contexts.size)
    (op : Operation α VariableId) : Settles w (apply op) op := by
  obtain ⟨c, w₀, found, here, there, unchanged, again⟩ := outcome_current_cases known
  have again : outcome (apply op) w = outcome (apply op) w₀ := again _
  rw [Settles, again, ← unchanged.vars]
  rcases accounts_apply here there op with ⟨e, failed⟩ | ⟨rs, w', run, accounts⟩
  · exact .inl ⟨e, w₀, failed, unchanged⟩
  · exact .inr ⟨c, w₀, rs, w', found, run, accounts⟩

theorem settles_mseLoss (known : ∀ c ∈ w.current, c.index < w.contexts.size)
    (prediction : VariableId) (target : Target α) :
    Settles w (mseLoss prediction target) (.mse (w.targetOf target) prediction) := by
  obtain ⟨c, w₀, found, here, there, unchanged, again⟩ := outcome_current_cases known
  have again : outcome (mseLoss prediction target) w = outcome (mseLoss prediction target) w₀ :=
    again _
  rw [Settles, again, ← unchanged.vars, ← unchanged.targetOf]
  rcases outcome_mseLoss_cases here prediction target with ⟨e, failed⟩ | ⟨x, read, same⟩
  · exact .inl ⟨e, w₀, failed, unchanged⟩
  · rw [same, targetOf_of_read read]
    rcases accounts_apply here there (.mse x prediction) with
      ⟨e, failed⟩ | ⟨rs, w', run, accounts⟩
    · exact .inl ⟨e, w₀, failed, unchanged⟩
    · exact .inr ⟨c, w₀, rs, w', found, run, accounts⟩

/-- Whatever is in the workspace: an operation that is refused leaves it as it was, and one that
goes through leaves an output, with a gradient and one record exactly if an operand asks for a
gradient, and eight more bytes in use for each element of the output, of its gradient and of the
saved arrays. This holds for the mean squared error too, against numbers, against a tensor and
against what a variable holds. -/
theorem operations_settle (w : Workspace α)
    (known : ∀ c ∈ w.current, c.index < w.contexts.size) :
    (∀ op, Settles w (apply op) op) ∧
      ∀ prediction target,
        Settles w (mseLoss prediction target) (.mse (w.targetOf target) prediction) :=
  ⟨settles_apply known, settles_mseLoss known⟩

noncomputable def pairSpace : Workspace ℝ :=
  { Workspace.ofContext .default (fun _ => 0) with
    tensors := #[⟨[2], some (.fill [2] 1), none⟩]
    vars := #[⟨⟨0⟩, some ⟨[2], some (.fill [2] 0), none⟩, true, true, "pair"⟩] }

theorem pairSpace_settles :
    (∀ c ∈ pairSpace.current, c.index < pairSpace.contexts.size) ∧
      Settles pairSpace (apply (.multiply ⟨0⟩ ⟨0⟩)) (.multiply ⟨0⟩ ⟨0⟩) ∧
      (outcome (apply (.multiply ⟨0⟩ ⟨0⟩)) pairSpace).1 = .ok ⟨1⟩ ∧
      (outcome (apply (.multiply ⟨0⟩ ⟨0⟩)) pairSpace).2.used ⟨0⟩ = 64 := by
  have known : ∀ c ∈ pairSpace.current, c.index < pairSpace.contexts.size := by
    intro c hc
    obtain rfl := Option.mem_some.1 hc
    exact Nat.zero_lt_one
  exact ⟨known, (operations_settle pairSpace known).1 _, rfl, rfl⟩

end Session

end DerivativeEngine
