import DerivativeEngine.Proofs.Tensor.Balance
import DerivativeEngine.Proofs.Training.Forward
import DerivativeEngine.Proofs.Workspace.Recorded

/-! What gradients are like. Say of each variable what its gradient should be like, in a way that is
true of zeros and of sums. If every record, for a gradient of its output that is as it should be,
sends what is as it should be, then so are all gradients after a pass back. An operation that is
applied adds one variable, of which anything can be said that its record bears out. -/

namespace DerivativeEngine

variable {α : Type} [Scalar α]

theorem NDArray.Additive.foldl {P : NDArray α → Prop} (h : Additive P) {xs : List (NDArray α)} :
    ∀ {g : NDArray α}, P g → (∀ x ∈ xs, P x ∧ x.shape = g.shape) → P (xs.foldl .add g) := by
  induction xs with
  | nil => exact fun hg _ => hg
  | cons x xs ih =>
    intro g hg each
    obtain ⟨⟨hx, shape⟩, others⟩ := List.forall_mem_cons.1 each
    exact ih (h.add shape hg hx) others

theorem NDArray.shape_foldl_add (xs : List (NDArray α)) :
    ∀ g : NDArray α, (xs.foldl .add g).shape = g.shape := by
  induction xs with
  | nil => exact fun _ => rfl
  | cons x xs ih => exact fun g => ih (g.add x)

namespace Workspace

variable {w w' : Workspace α} {c : ContextId} {like : VariableId → NDArray α → Prop}
  {r : TapeRecord α}

/-- For a gradient of its output that is as it should be, the record sends what should be sent. -/
def Passes (w : Workspace α) (like : VariableId → NDArray α → Prop) (r : TapeRecord α) : Prop :=
  ∀ g, g.shape = w.shapeOf r.output → like r.output g → ∀ p ∈ w.sent r g, like p.1 p.2

/-- Gradients that are as they should be will be so after a pass back. -/
structure Flows (w : Workspace α) (c : ContextId) (like : VariableId → NDArray α → Prop) :
    Prop where
  sound : w.Sound c
  additive : ∀ v, NDArray.Additive (like v)
  passes : ∀ r ∈ w.tape c, w.Passes like r

theorem Frame.passes (h : w.Frame w') (passes : w.Passes like r) : w'.Passes like r := by
  intro g shape hg p hp
  rw [sent, h.shapeOf, h.valueOf] at hp
  rw [h.shapeOf] at shape
  exact passes g shape hg p hp

omit [Scalar α] in
theorem Frame.tape (h : w.Frame w') (c : ContextId) : w'.tape c = w.tape c := by
  rw [Workspace.tape, h.context, Workspace.tape]

end Workspace

namespace Session

variable {w : Workspace α} {c : ContextId} {like : VariableId → NDArray α → Prop}

theorem like_backward {w' : Workspace α} {first : VariableId → Option (NDArray α)}
    (s : w'.Sound c) (additive : ∀ v, NDArray.Additive (like v))
    (passes : ∀ r ∈ w'.tape c, w'.Passes like r) (start : ∀ v g, first v = some g → like v g)
    (sums : ∀ v, w'.gradient? v = (first v).map fun g =>
      ((w'.tape c).reverse.flatMap (w'.sentTo v)).foldl .add g) (later : ℕ) :
    ∀ (v : VariableId), w'.vars.size ≤ v.index + later →
      ∀ g, w'.gradient? v = some g → like v g := by
  -- From the last variable to the first: what is sent to a variable is sent for gradients of
  -- variables made later.
  induction later with
  | zero =>
    intro v unknown g hg
    obtain ⟨t, ht, -⟩ := Option.bind_eq_some_iff.1 hg
    exact absurd (Workspace.known_of_grad ht) (Nat.not_lt.2 unknown)
  | succ later ih =>
    intro v near g hg
    have known : v.index < w'.vars.size := by
      obtain ⟨t, ht, -⟩ := Option.bind_eq_some_iff.1 hg
      exact Workspace.known_of_grad ht
    have shape := s.gradient_shape known hg
    rw [sums v] at hg
    obtain ⟨g₀, hg₀, rfl⟩ := Option.map_eq_some_iff.1 hg
    rw [NDArray.shape_foldl_add] at shape
    refine (additive v).foldl (start v g₀ hg₀) fun x hx => ?_
    obtain ⟨r, hr, sent⟩ := List.mem_flatMap.1 hx
    have sound := s.tape r (List.mem_reverse.1 hr)
    refine ⟨?_, (shape_of_mem_sentTo s sound x sent).trans shape.symm⟩
    have older : v.index < r.output.index := by
      by_contra younger
      rw [sound.sentTo_eq_nil (Nat.le_of_not_lt younger)] at sent
      cases sent
    unfold Workspace.sentTo at sent
    cases output : w'.gradient? r.output with
    | none => simp [output] at sent
    | some h =>
      rw [output] at sent
      obtain ⟨p, hp, rfl⟩ := List.mem_map.1 sent
      obtain ⟨there, target⟩ := List.mem_filter.1 hp
      obtain rfl : p.1 = v := by simpa using target
      exact passes r (List.mem_reverse.1 hr) h (s.gradient_shape sound.known output)
        (ih r.output (by omega) h output) p there

theorem flows_backward (h : w.Flows c like) (gradients : ∀ v g, w.gradient? v = some g → like v g)
    {loss : VariableId} (alive : w.Alive loss) (asked : (w.var loss).grad.isSome = true)
    (ones : like loss (.fill (w.shapeOf loss) 1)) :
    ∃ w', outcome (backward (some loss)) w = (.ok (), w') ∧ w.Frame w' ∧ w'.Flows c like ∧
      (∀ v g, w'.gradient? v = some g → like v g) ∧
      ∀ v, (w.gradient? v).isSome = true → (w'.gradient? v).isSome = true := by
  have seeded : ∀ v ∈ some loss, w.Alive v ∧ (w.var v).grad.isSome = true := fun v hv => by
    obtain rfl := Option.mem_some.1 hv
    exact ⟨alive, asked⟩
  obtain ⟨w', run, s, frame, sums⟩ := outcome_backward h.sound seeded
  have passes : ∀ r ∈ w'.tape c, w'.Passes like r := by
    rw [frame.tape]
    exact fun r hr => frame.passes (h.passes r hr)
  have start : ∀ v g, w.initial? (some loss) v = some g → like v g := by
    intro v g hg
    rw [Workspace.initial?] at hg
    split at hg
    · next same =>
      obtain rfl := Option.some.inj same
      obtain rfl := Option.some.inj hg
      exact ones
    · exact gradients v g hg
  rw [← frame.tape] at sums
  refine ⟨w', run, frame, ⟨s, h.additive, passes⟩, fun v => ?_, fun v there => ?_⟩
  · exact like_backward s h.additive passes start sums w'.vars.size v (Nat.le_add_left _ _)
  · rw [sums, Option.isSome_map, Workspace.initial?]
    split
    · rfl
    · exact there

section Applies

variable {w' : Workspace α} {op : Operation α VariableId} {t : Tensor α} {z : Variable α}
  {rs : List (TapeRecord α)} {like' : VariableId → NDArray α → Prop}

theorem sent_applies (applies : w.Applies w' c op t z rs) (s : w.Sound c)
    {op' : Operation α VariableId} (known : ∀ v ∈ op'.operands, v.index < w.vars.size)
    (saved : List (NDArray α)) (g : NDArray α) :
    op'.sent w'.shapeOf saved w'.valueOf g = op'.sent w.shapeOf saved w.valueOf g :=
  Operation.sent_congr
    (fun v hv => applies.pushes.grown.shapeOf (known v hv) (s.vars v (known v hv)).known)
    fun v hv => applies.pushes.valueOf_old s (known v hv)

theorem passes_applies (applies : w.Applies w' c op t z rs) (h : w.Flows c like)
    (old : ∀ v : VariableId, v.index < w.vars.size → like' v = like v) {r : TapeRecord α}
    (before : r ∈ w.tape c) : w'.Passes like' r := by
  have sound := h.sound.tape r before
  have earlier : ∀ v ∈ r.operation.operands, v.index < w.vars.size := fun v hv =>
    Nat.lt_trans (sound.older v hv) sound.known
  intro g shape hg p hp
  rw [Workspace.sent, sent_applies applies h.sound earlier] at hp
  have operand := (sound.targets g).mem_iff.1 (List.mem_map_of_mem (f := Prod.fst) hp)
  rw [old _ sound.known] at hg
  rw [applies.pushes.grown.shapeOf sound.known (h.sound.vars _ sound.known).known] at shape
  rw [old _ (earlier _ operand)]
  exact h.passes r before g shape hg p hp

theorem passes_recorded (applies : w.Applies w' c op t z rs) (s : w.Sound c)
    (known : ∀ v ∈ op.operands, v.index < w.vars.size)
    (old : ∀ v : VariableId, v.index < w.vars.size → like' v = like v)
    (sends : ∀ g, g.shape = (op.result w.valueOf).shape → like' ⟨w.vars.size⟩ g →
      ∀ p ∈ op.sent w.shapeOf ((op.map w.valueOf).saved (op.result w.valueOf)) w.valueOf g,
        like p.1 p.2) : ∀ r ∈ rs, w'.Passes like' r := by
  intro r here
  cases asked : z.requiresGrad with
  | false =>
    rw [applies.unrecorded asked] at here
    cases here
  | true =>
    obtain ⟨saved, rfl, made⟩ := applies.recorded asked
    obtain rfl := List.mem_singleton.1 here
    intro g shape hg p hp
    have hp : p ∈ op.sent w'.shapeOf (saved.filterMap Tensor.value) w'.valueOf g := hp
    rw [Tensor.filterMap_value (Workspace.made_values made), sent_applies applies s known] at hp
    have operand := op.targets_sent.mem_iff.1 (List.mem_map_of_mem (f := Prod.fst) hp)
    rw [old _ (known _ operand)]
    exact sends g (Eq.trans shape applies.fresh.data.shape) hg p hp

theorem gradient_applies (applies : w.Applies w' c op t z rs) {P : NDArray α → Prop}
    (additive : NDArray.Additive P) {g : NDArray α}
    (hg : w'.gradient? ⟨w.vars.size⟩ = some g) : P g := by
  rw [applies.fresh.gradient?] at hg
  split at hg
  · obtain rfl := Option.some.inj hg
    exact additive.zeros _
  · cases hg

end Applies

theorem flows_apply (h : w.Flows c like) {op : Operation α VariableId} {y : NDArray α}
    (held : ∀ v ∈ op.operands, ∃ x, w.Held v x)
    (ok : Interpretation.arrays.apply (op.map w.valueOf) = .ok y) {P : NDArray α → Prop}
    (additive : NDArray.Additive P)
    (sends : ∀ g, g.shape = y.shape → P g →
      ∀ p ∈ op.sent w.shapeOf ((op.map w.valueOf).saved y) w.valueOf g, like p.1 p.2) :
    ∃ w' t z rs, outcome (apply op) w = (.ok ⟨w.vars.size⟩, w') ∧ w.Applies w' c op t z rs ∧
      w'.Flows c (Function.update like ⟨w.vars.size⟩ P) ∧ w'.Held ⟨w.vars.size⟩ y := by
  obtain ⟨check, rfl⟩ := check_held held ok
  have known : ∀ v ∈ op.operands, v.index < w.vars.size := fun v hv =>
    (held v hv).elim fun _ hx => hx.known
  have alive : ∀ v ∈ op.operands, w.Alive v := fun v hv => (held v hv).elim fun _ hx => hx.alive
  obtain ⟨t, z, rs, w', run, applies⟩ :=
    outcome_apply h.sound.current h.sound.known check (outcome_mapM_held held)
  have old : ∀ v : VariableId, v.index < w.vars.size →
      Function.update like ⟨w.vars.size⟩ P v = like v := fun v hv =>
    Function.update_of_ne (fun same => Nat.lt_irrefl _ (same ▸ hv)) _ _
  have new : Function.update like ⟨w.vars.size⟩ P ⟨w.vars.size⟩ = P := Function.update_self ..
  have additive' : ∀ v, NDArray.Additive (Function.update like ⟨w.vars.size⟩ P v) := by
    intro v
    by_cases same : v = ⟨w.vars.size⟩
    · rw [same, new]
      exact additive
    · rw [Function.update_of_ne same]
      exact h.additive v
  refine ⟨w', t, z, rs, run, applies, ?_, applies.fresh.held⟩
  exact
    { sound := sound_applies h.sound known alive check applies
      additive := additive'
      passes := by
        rw [applies.pushes.tape]
        exact List.forall_mem_append.2 ⟨fun r hr => passes_applies applies h old hr,
          passes_recorded applies h.sound known old fun g shape hg =>
            sends g shape (by rwa [new] at hg)⟩ }

end Session

end DerivativeEngine
