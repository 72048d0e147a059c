import DerivativeEngine.Proofs.Tape.Contributions
import DerivativeEngine.Proofs.Workspace.Lifetimes
import Mathlib.Data.Fin.SuccPred
import Mathlib.Data.Fin.Tuple.Basic

/-! Forward passes. A pass knows its variables by their numbers: first the parameters it was given,
then what it made, in the order in which it was made. It can look at arrays and go on as they are.
Two passes over parameters of equal values, in workspaces that otherwise have nothing in common, do
the same step by step: they fail alike, and what they make is equal, number by number, as are the
records they leave. -/

namespace DerivativeEngine

variable {α : Type} {m n : Nat}

/-- A pass with so many variables at hand. What is made next has the next number. -/
inductive Forward (α : Type) : Nat → Type
  | loss {m : Nat} (k : Fin m) : Forward α m
  | input {m : Nat} (x : NDArray α) (requiresGrad : Bool) (next : Forward α (m + 1)) : Forward α m
  | apply {m : Nat} (op : Operation α (Fin m)) (next : Forward α (m + 1)) : Forward α m
  | read {m : Nat} (k : Fin m) (next : NDArray α → Forward α m) : Forward α m

/-- The variables of a workspace that go by these numbers. -/
abbrev Numbering (m : Nat) : Type := Fin m → VariableId

namespace Numbering

def snoc (ρ : Numbering m) (v : VariableId) : Numbering (m + 1) :=
  Fin.snoc (α := fun _ => VariableId) ρ v

@[simp]
theorem snoc_castSucc (ρ : Numbering m) (v : VariableId) (i : Fin m) :
    ρ.snoc v i.castSucc = ρ i :=
  Fin.snoc_castSucc (α := fun _ => VariableId) v ρ i

@[simp]
theorem snoc_last (ρ : Numbering m) (v : VariableId) : ρ.snoc v (Fin.last m) = v :=
  Fin.snoc_last (α := fun _ => VariableId) v ρ

theorem forall_snoc {p : VariableId → Prop} {ρ : Numbering m} {v : VariableId} (old : ∀ i, p (ρ i))
    (new : p v) : ∀ i, p (ρ.snoc v i) := by
  refine Fin.forall_fin_succ'.2 ⟨fun i => ?_, ?_⟩
  · rw [snoc_castSucc]
    exact old i
  · rw [snoc_last]
    exact new

theorem map_snoc (ρ : Numbering m) (v : VariableId) (op : Operation α (Fin m)) :
    (op.map Fin.castSucc).map (ρ.snoc v) = op.map ρ := by
  rw [Operation.map_map]
  simp only [snoc_castSucc]

end Numbering

variable [Scalar α]

def Forward.run : {m : Nat} → Forward α m → Numbering m → Session α VariableId
  | _, loss k, ρ => return ρ k
  | _, input x requiresGrad next, ρ => do
    next.run (ρ.snoc (← Session.input x requiresGrad))
  | _, apply op next, ρ => do next.run (ρ.snoc (← Session.apply (op.map ρ)))
  | _, read k next, ρ => do (next (← Session.value (ρ k))).run ρ

namespace Workspace

variable {w w' w₁ w₁' : Workspace α} {c c' : ContextId} {ρ ρ' : Numbering m}

structure Names (w : Workspace α) (c : ContextId) (ρ : Numbering m) : Prop where
  sound : w.Sound c
  distinct : Function.Injective ρ
  known : ∀ i, (ρ i).index < w.vars.size
  alive : ∀ i, w.Alive (ρ i)
  asked : ∀ i, (w.var (ρ i)).grad.isSome = (w.var (ρ i)).requiresGrad

theorem Pushes.valueOf_old {ts : List (Tensor α)} {ys : List (Variable α)}
    {rs : List (TapeRecord α)} (h : w.Pushes w₁ c ts ys rs) (s : w.Sound c) {v : VariableId}
    (known : v.index < w.vars.size) : w₁.valueOf v = w.valueOf v := by
  rw [valueOf, h.var_old known, h.tensor_old (s.vars v known).known, valueOf]

omit [Scalar α] in
theorem Pushes.gradient?_old {ts : List (Tensor α)} {ys : List (Variable α)}
    {rs : List (TapeRecord α)} (h : w.Pushes w₁ c ts ys rs) {v : VariableId}
    (known : v.index < w.vars.size) : w₁.gradient? v = w.gradient? v := by
  rw [gradient?, h.var_old known, gradient?]

omit [Scalar α] in
theorem Pushes.known_snoc {ts : List (Tensor α)} {y : Variable α} {rs : List (TapeRecord α)}
    (h : w.Pushes w₁ c ts [y] rs) (known : ∀ i, (ρ i).index < w.vars.size) :
    ∀ i, (ρ.snoc ⟨w.vars.size⟩ i).index < w₁.vars.size := by
  refine Numbering.forall_snoc (p := fun v => v.index < w₁.vars.size)
    (fun i => Nat.lt_of_lt_of_le (known i) h.grown.vars) ?_
  rw [h.size_vars]
  exact Nat.lt_succ_self _

theorem Fresh.gradient? {v : VariableId} {x : NDArray α} {home : Option ContextId}
    (h : w.Fresh v x home) :
    w.gradient? v = if (w.var v).requiresGrad then some (.fill x.shape 0) else none := by
  rw [Workspace.gradient?, ← h.asked]
  cases hg : (w.var v).grad with
  | none => rfl
  | some g => exact (h.grad g hg).value

theorem Names.snoc (h : w.Names c ρ) {ts : List (Tensor α)} {y : Variable α}
    {rs : List (TapeRecord α)} {x : NDArray α} (pushes : w.Pushes w₁ c ts [y] rs)
    (sound : w₁.Sound c) (fresh : w₁.Fresh ⟨w.vars.size⟩ x (some c)) :
    w₁.Names c (ρ.snoc ⟨w.vars.size⟩) where
  sound := sound
  distinct := by
    intro i j same
    have new : ∀ i, ρ i ≠ ⟨w.vars.size⟩ := by
      intro i same
      have known := h.known i
      rw [same] at known
      exact Nat.lt_irrefl _ known
    induction i using Fin.lastCases with
    | last =>
      induction j using Fin.lastCases with
      | last => rfl
      | cast j =>
        simp only [Numbering.snoc_last, Numbering.snoc_castSucc] at same
        exact absurd same.symm (new j)
    | cast i =>
      induction j using Fin.lastCases with
      | last =>
        simp only [Numbering.snoc_last, Numbering.snoc_castSucc] at same
        exact absurd same (new i)
      | cast j =>
        simp only [Numbering.snoc_castSucc] at same
        rw [h.distinct same]
  known := pushes.known_snoc h.known
  alive := Numbering.forall_snoc (p := w₁.Alive)
    (fun i => (pushes.grown.alive (h.known i) (h.sound.vars _ (h.known i)).known).2 (h.alive i))
    fresh.data.valid
  asked := by
    refine Numbering.forall_snoc (p := fun v => (w₁.var v).grad.isSome = (w₁.var v).requiresGrad)
      (fun i => ?_) fresh.asked
    rw [pushes.var_old (h.known i)]
    exact h.asked i

theorem Names.value (h : w.Names c ρ) (k : Fin m) :
    Session.outcome (Session.value (ρ k)) w = (.ok (w.valueOf (ρ k)), w) := by
  rw [Session.outcome_value,
    read_eq_ok.2 ⟨h.alive k, (h.sound.value_valueOf (h.known k)).1⟩]
  rfl

theorem Names.read (h : w.Names c ρ) (op : Operation α (Fin m)) :
    Session.outcome ((op.map ρ).mapM Session.value) w = (.ok ((op.map ρ).map w.valueOf), w) := by
  rw [Session.outcome_mapM fun v => Session.outcome_value v]
  refine congrArg (·, w) (Operation.mapM_of_ok fun v hv => ?_)
  rw [Operation.operands_map] at hv
  obtain ⟨i, -, rfl⟩ := List.mem_map.1 hv
  rw [read_eq_ok.2 ⟨h.alive i, (h.sound.value_valueOf (h.known i)).1⟩]
  rfl

structure Agree (n : Nat) (ρ ρ' : Numbering m) (w w' : Workspace α) : Prop where
  value : ∀ i, w'.valueOf (ρ' i) = w.valueOf (ρ i)
  shape : ∀ i, w'.shapeOf (ρ' i) = w.shapeOf (ρ i)
  gradient : ∀ i : Fin m, n ≤ i.val → w'.gradient? (ρ' i) = w.gradient? (ρ i)

end Workspace

inductive TapeRecord.Matches (n : Nat) (ρ ρ' : Numbering m) :
    TapeRecord α → TapeRecord α → Prop
  | intro (op : Operation α (Fin m)) (k : Fin m) {saved saved' : List (Tensor α)}
    (inner : n ≤ k.val)
    (values : saved'.filterMap Tensor.value = saved.filterMap Tensor.value) :
    Matches n ρ ρ' ⟨op.map ρ, ρ k, saved⟩ ⟨op.map ρ', ρ' k, saved'⟩

omit [Scalar α] in
theorem TapeRecord.Matches.snoc {ρ ρ' : Numbering m} {r r' : TapeRecord α}
    (h : Matches n ρ ρ' r r') (v v' : VariableId) :
    Matches n (ρ.snoc v) (ρ'.snoc v') r r' := by
  obtain ⟨op, k, inner, values⟩ := h
  have matched : Matches n (ρ.snoc v) (ρ'.snoc v') _ _ :=
    .intro (op.map Fin.castSucc) k.castSucc inner values
  simpa only [Numbering.map_snoc, Numbering.snoc_castSucc] using matched

namespace Workspace

variable {w w' w₁ w₁' : Workspace α} {c c' : ContextId} {ρ ρ' : Numbering m}

/-- The two workspaces are at the same point of a pass over so many parameters. -/
structure Twin (n : Nat) (c c' : ContextId) (ρ ρ' : Numbering m) (w w' : Workspace α) : Prop where
  left : w.Names c ρ
  right : w'.Names c' ρ'
  agree : Agree n ρ ρ' w w'
  asks : ∀ i, (w'.var (ρ' i)).requiresGrad = (w.var (ρ i)).requiresGrad
  tape : List.Forall₂ (TapeRecord.Matches n ρ ρ') (w.tape c) (w'.tape c')

theorem Twin.snoc (h : Twin n c c' ρ ρ' w w') {ts ts' : List (Tensor α)} {y y' : Variable α}
    {rs rs' : List (TapeRecord α)} {x : NDArray α}
    (pushes : w.Pushes w₁ c ts [y] rs) (pushes' : w'.Pushes w₁' c' ts' [y'] rs')
    (sound : w₁.Sound c) (sound' : w₁'.Sound c')
    (fresh : w₁.Fresh ⟨w.vars.size⟩ x (some c)) (fresh' : w₁'.Fresh ⟨w'.vars.size⟩ x (some c'))
    (asks : y'.requiresGrad = y.requiresGrad)
    (records : List.Forall₂ (TapeRecord.Matches n (ρ.snoc ⟨w.vars.size⟩) (ρ'.snoc ⟨w'.vars.size⟩))
      rs rs') :
    Twin n c c' (ρ.snoc ⟨w.vars.size⟩) (ρ'.snoc ⟨w'.vars.size⟩) w₁ w₁' := by
  have newest := pushes.var_new
  have newest' := pushes'.var_new
  have old : ∀ i, w₁.shapeOf (ρ i) = w.shapeOf (ρ i) := fun i =>
    pushes.grown.shapeOf (h.left.known i) (h.left.sound.vars _ (h.left.known i)).known
  have old' : ∀ i, w₁'.shapeOf (ρ' i) = w'.shapeOf (ρ' i) := fun i =>
    pushes'.grown.shapeOf (h.right.known i) (h.right.sound.vars _ (h.right.known i)).known
  exact
    { left := h.left.snoc pushes sound fresh
      right := h.right.snoc pushes' sound' fresh'
      agree :=
        { value := by
            refine Fin.forall_fin_succ'.2 ⟨fun i => ?_, ?_⟩
            · rw [Numbering.snoc_castSucc, Numbering.snoc_castSucc,
                pushes.valueOf_old h.left.sound (h.left.known i),
                pushes'.valueOf_old h.right.sound (h.right.known i)]
              exact h.agree.value i
            · rw [Numbering.snoc_last, Numbering.snoc_last, fresh.valueOf, fresh'.valueOf]
          shape := by
            refine Fin.forall_fin_succ'.2 ⟨fun i => ?_, ?_⟩
            · rw [Numbering.snoc_castSucc, Numbering.snoc_castSucc, old, old']
              exact h.agree.shape i
            · rw [Numbering.snoc_last, Numbering.snoc_last]
              exact fresh'.data.shape.trans fresh.data.shape.symm
          gradient := by
            refine Fin.forall_fin_succ'.2 ⟨fun i inner => ?_, fun _ => ?_⟩
            · rw [Numbering.snoc_castSucc, Numbering.snoc_castSucc,
                pushes.gradient?_old (h.left.known i), pushes'.gradient?_old (h.right.known i)]
              exact h.agree.gradient i inner
            · rw [Numbering.snoc_last, Numbering.snoc_last, fresh.gradient?, fresh'.gradient?,
                newest, newest', asks] }
      asks := by
        refine Fin.forall_fin_succ'.2 ⟨fun i => ?_, ?_⟩
        · rw [Numbering.snoc_castSucc, Numbering.snoc_castSucc, pushes.var_old (h.left.known i),
            pushes'.var_old (h.right.known i)]
          exact h.asks i
        · rw [Numbering.snoc_last, Numbering.snoc_last, newest, newest', asks]
      tape := by
        rw [pushes.tape, pushes'.tape]
        refine List.rel_append (h.tape.imp fun _ _ matched => matched.snoc _ _) records }

def MakesAlike (n : Nat) (c c' : ContextId) (ρ ρ' : Numbering m) (w w' : Workspace α)
    (p p' : Session α VariableId) : Prop :=
  (∃ e, Session.outcome p w = (.error e, w) ∧ Session.outcome p' w' = (.error e, w')) ∨
    ∃ ts ts' y y' rs rs' w₁ w₁', Session.outcome p w = (.ok ⟨w.vars.size⟩, w₁) ∧
      Session.outcome p' w' = (.ok ⟨w'.vars.size⟩, w₁') ∧
      w.Pushes w₁ c ts [y] rs ∧ w'.Pushes w₁' c' ts' [y'] rs' ∧
      Twin n c c' (ρ.snoc ⟨w.vars.size⟩) (ρ'.snoc ⟨w'.vars.size⟩) w₁ w₁'

theorem Twin.apply (h : Twin n c c' ρ ρ' w w') (inner : n ≤ m) (op : Operation α (Fin m)) :
    MakesAlike n c c' ρ ρ' w w' (Session.apply (op.map ρ)) (Session.apply (op.map ρ')) := by
  have shapes : (op.map ρ').map w'.shapeOf = (op.map ρ).map w.shapeOf := by
    rw [Operation.map_map, Operation.map_map]
    simp only [h.agree.shape]
  have values : (op.map ρ').map w'.valueOf = (op.map ρ).map w.valueOf := by
    rw [Operation.map_map, Operation.map_map]
    simp only [h.agree.value]
  have result : (op.map ρ').result w'.valueOf = (op.map ρ).result w.valueOf :=
    congrArg Operation.value values
  cases check : ((op.map ρ).map w.shapeOf).check with
  | error e =>
    exact .inl ⟨.shape e, Session.outcome_apply_refused h.left.sound.current check,
      Session.outcome_apply_refused h.right.sound.current (shapes ▸ check)⟩
  | ok u =>
    have known : ∀ v ∈ (op.map ρ).operands, v.index < w.vars.size ∧ w.Alive v := by
      rw [Operation.operands_map]
      exact List.forall_mem_map.2 fun i _ => ⟨h.left.known i, h.left.alive i⟩
    have known' : ∀ v ∈ (op.map ρ').operands, v.index < w'.vars.size ∧ w'.Alive v := by
      rw [Operation.operands_map]
      exact List.forall_mem_map.2 fun i _ => ⟨h.right.known i, h.right.alive i⟩
    obtain ⟨t, y, rs, w₁, run, applies⟩ :=
      Session.outcome_apply h.left.sound.current h.left.sound.known check (h.left.read op)
    obtain ⟨t', y', rs', w₁', run', applies'⟩ :=
      Session.outcome_apply h.right.sound.current h.right.sound.known (shapes ▸ check)
        (h.right.read op)
    have sound := Session.sound_applies h.left.sound (fun v hv => (known v hv).1)
      (fun v hv => (known v hv).2) check applies
    have sound' := Session.sound_applies h.right.sound (fun v hv => (known' v hv).1)
      (fun v hv => (known' v hv).2) (shapes ▸ check) applies'
    have asks : y'.requiresGrad = y.requiresGrad := by
      rw [applies.asks, applies'.asks, Operation.operands_map, Operation.operands_map,
        List.any_map, List.any_map]
      exact congrArg (List.any op.operands) (funext h.asks)
    refine .inr ⟨[t], [t'], y, y', rs, rs', w₁, w₁', run, run', applies.pushes, applies'.pushes,
      h.snoc applies.pushes applies'.pushes sound sound' applies.fresh (result ▸ applies'.fresh)
        asks ?_⟩
    cases asked : y.requiresGrad with
    | false =>
      rw [applies.unrecorded asked, applies'.unrecorded (asks.trans asked)]
      exact .nil
    | true =>
      obtain ⟨saved, rfl, made⟩ := applies.recorded asked
      obtain ⟨saved', rfl, made'⟩ := applies'.recorded (asks.trans asked)
      have same : saved'.filterMap Tensor.value = saved.filterMap Tensor.value := by
        rw [Tensor.filterMap_value (made_values made), Tensor.filterMap_value (made_values made'),
          values, result]
      have matched : TapeRecord.Matches n (ρ.snoc ⟨w.vars.size⟩) (ρ'.snoc ⟨w'.vars.size⟩) _ _ :=
        .intro (op.map Fin.castSucc) (Fin.last m) inner same
      simp only [Numbering.map_snoc, Numbering.snoc_last] at matched
      exact .cons matched .nil

theorem Twin.input (h : Twin n c c' ρ ρ' w w') (x : NDArray α) (requiresGrad : Bool) :
    MakesAlike n c c' ρ ρ' w w' (Session.input x requiresGrad) (Session.input x requiresGrad) := by
  cases arranged : Session.arrange x none with
  | error e =>
    exact .inl ⟨.shape e,
      Session.outcome_input_refused h.left.sound.current arranged requiresGrad,
      Session.outcome_input_refused h.right.sound.current arranged requiresGrad⟩
  | ok z =>
    obtain ⟨ts, y, w₁, run, adds, asks, -⟩ :=
      Session.outcome_input h.left.sound arranged requiresGrad
    obtain ⟨ts', y', w₁', run', adds', asks', -⟩ :=
      Session.outcome_input h.right.sound arranged requiresGrad
    exact .inr ⟨ts, ts', y, y', [], [], w₁, w₁', run, run', adds.pushes, adds'.pushes,
      h.snoc adds.pushes adds'.pushes (adds.sound h.left.sound (.inr rfl))
        (adds'.sound h.right.sound (.inr rfl)) adds.fresh adds'.fresh (asks'.trans asks.symm) .nil⟩

structure Continued (ρ : Numbering m) {M : Nat} (σ : Numbering M) (w w₁ : Workspace α) : Prop where
  le : m ≤ M
  same : ∀ i, σ (Fin.castLE le i) = ρ i
  vars : w.vars.size ≤ w₁.vars.size
  var : ∀ v : VariableId, v.index < w.vars.size → w₁.var v = w.var v
  tensors : w.tensors.size ≤ w₁.tensors.size
  tensor : ∀ t : TensorId, t.index < w.tensors.size → w₁.tensor t = w.tensor t

omit [Scalar α] in
theorem Continued.refl (ρ : Numbering m) (w : Workspace α) : Continued ρ ρ w w :=
  ⟨Nat.le_refl m, fun _ => rfl, Nat.le_refl _, fun _ _ => rfl, Nat.le_refl _, fun _ _ => rfl⟩

theorem Continued.shapeOf {M : Nat} {σ : Numbering M} (h : Continued ρ σ w w₁) (s : w.Sound c)
    {v : VariableId} (known : v.index < w.vars.size) : w₁.shapeOf v = w.shapeOf v := by
  rw [Workspace.shapeOf, h.var v known, h.tensor _ (s.vars v known).known, Workspace.shapeOf]

omit [Scalar α] in
theorem Continued.of_snoc {M : Nat} {σ : Numbering M} {w₂ : Workspace α} {ts : List (Tensor α)}
    {ys : List (Variable α)} {rs : List (TapeRecord α)} {v : VariableId}
    (first : w.Pushes w₁ c ts ys rs) (rest : Continued (ρ.snoc v) σ w₁ w₂) :
    Continued ρ σ w w₂ where
  le := Nat.le_of_succ_le rest.le
  same i := by
    have same := rest.same i.castSucc
    rw [Numbering.snoc_castSucc] at same
    exact same
  vars := Nat.le_trans first.grown.vars rest.vars
  var v hv := by
    rw [rest.var v (Nat.lt_of_lt_of_le hv first.grown.vars), first.var_old hv]
  tensors := Nat.le_trans first.grown.tensors rest.tensors
  tensor t ht := by
    rw [rest.tensor t (Nat.lt_of_lt_of_le ht first.grown.tensors), first.tensor_old ht]

def PassesAlike (n : Nat) (c c' : ContextId) (ρ ρ' : Numbering m) (w w' : Workspace α)
    (p p' : Session α VariableId) : Prop :=
  (∃ e, (Session.outcome p w).1 = .error e ∧ (Session.outcome p' w').1 = .error e) ∨
    ∃ (M : Nat) (σ σ' : Numbering M) (k : Fin M) (w₁ w₁' : Workspace α),
      Session.outcome p w = (.ok (σ k), w₁) ∧ Session.outcome p' w' = (.ok (σ' k), w₁') ∧
      Continued ρ σ w w₁ ∧ Continued ρ' σ' w' w₁' ∧ Twin n c c' σ σ' w₁ w₁'

theorem MakesAlike.bind {p p' : Session α VariableId} {f f' : VariableId → Session α VariableId}
    (first : MakesAlike n c c' ρ ρ' w w' p p')
    (rest : ∀ w₁ w₁', Twin n c c' (ρ.snoc ⟨w.vars.size⟩) (ρ'.snoc ⟨w'.vars.size⟩) w₁ w₁' →
      PassesAlike n c c' (ρ.snoc ⟨w.vars.size⟩) (ρ'.snoc ⟨w'.vars.size⟩) w₁ w₁' (f ⟨w.vars.size⟩)
        (f' ⟨w'.vars.size⟩)) : PassesAlike n c c' ρ ρ' w w' (p >>= f) (p' >>= f') := by
  unfold PassesAlike
  rcases first with ⟨e, failed, failed'⟩ |
    ⟨ts, ts', y, y', rs, rs', w₁, w₁', run, run', pushes, pushes', twin⟩
  · rw [Session.outcome_bind_error failed, Session.outcome_bind_error failed']
    exact .inl ⟨e, rfl, rfl⟩
  · rw [Session.outcome_bind_ok run, Session.outcome_bind_ok run']
    refine (rest w₁ w₁' twin).imp_right ?_
    rintro ⟨M, σ, σ', k, w₂, w₂', last, last', later, later', twin'⟩
    exact ⟨M, σ, σ', k, w₂, w₂', last, last', .of_snoc pushes later, .of_snoc pushes' later', twin'⟩

theorem Twin.run (P : Forward α m) {ρ ρ' : Numbering m} {w w' : Workspace α}
    (h : Twin n c c' ρ ρ' w w') (inner : n ≤ m) :
    PassesAlike n c c' ρ ρ' w w' (P.run ρ) (P.run ρ') := by
  -- Whatever comes next is done in both or refused in both.
  induction P generalizing w w' with
  | loss k => exact .inr ⟨_, ρ, ρ', k, w, w', rfl, rfl, .refl ρ w, .refl ρ' w', h⟩
  | input x requiresGrad next ih =>
    exact MakesAlike.bind (h.input x requiresGrad) fun _ _ twin => ih twin (Nat.le_succ_of_le inner)
  | apply op next ih =>
    exact MakesAlike.bind (h.apply inner op) fun _ _ twin => ih twin (Nat.le_succ_of_le inner)
  | read k next ih =>
    have there := h.left.value k
    have there' := h.right.value k
    rw [h.agree.value] at there'
    unfold PassesAlike Forward.run
    rw [Session.outcome_bind_ok there, Session.outcome_bind_ok there']
    exact ih _ h inner

end Workspace

end DerivativeEngine
