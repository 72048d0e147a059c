import DerivativeEngine.Proofs.Tensor.Arrays
import DerivativeEngine.Proofs.Workspace.Actions
import DerivativeEngine.Scalar.Double

/-! The sweep back over the tape. When a record is reached, everything that reads its output was
recorded later and is done with, so the gradient of the output is complete: it is the final one. A
variable thus ends with what it had at first and all that reaches it, computed from the final
gradients. The contributions are added in the order of the sweep, so this holds in any arithmetic;
where sums may be reordered, the order is of no matter. -/

namespace DerivativeEngine

variable {α : Type}

namespace Workspace

def going (v : VariableId) (l : List (VariableId × NDArray α)) : List (NDArray α) :=
  (l.filter fun p => p.1 = v).map Prod.snd

theorem going_append (v : VariableId) (l m : List (VariableId × NDArray α)) :
    going v (l ++ m) = going v l ++ going v m := by
  simp [going]

theorem going_of_eq {u v : VariableId} {x : NDArray α} (h : u = v) : going u [(v, x)] = [x] := by
  simp [going, h]

theorem going_of_ne {u v : VariableId} {x : NDArray α} (h : u ≠ v) : going u [(v, x)] = [] := by
  simp [going, Ne.symm h]

variable {w w' : Workspace α} {c : ContextId} [Scalar α]

def recorded (w : Workspace α) : List (TapeRecord α) := (w.current.map w.tape).getD []

/-- The gradients a sweep starts from. -/
def initial? (w : Workspace α) (loss? : Option VariableId) (v : VariableId) :
    Option (NDArray α) :=
  if loss? = some v then some (.fill (w.shapeOf v) 1) else w.gradient? v

/-- What the record sends for the gradient `g` of its output. -/
def sent (w : Workspace α) (r : TapeRecord α) (g : NDArray α) : List (VariableId × NDArray α) :=
  r.operation.sent w.shapeOf (r.saved.filterMap Tensor.value) w.valueOf g

theorem map_going_of_none {v : VariableId} {x : NDArray α} (h : w.gradient? v = none)
    (u : VariableId) : w.gradient? u =
      (w.gradient? u).map fun g => (going u [(v, x)]).foldl .add g := by
  by_cases same : u = v
  · rw [same, h]
    rfl
  · rw [going_of_ne same]
    exact Option.map_id'.symm

def Fits (w : Workspace α) (p : VariableId × NDArray α) : Prop :=
  p.1.index < w.vars.size ∧ w.Alive p.1 ∧ p.2.shape = w.shapeOf p.1

theorem Frame.fits (h : w.Frame w') (s : w.Sound c) {p : VariableId × NDArray α}
    (fits : w.Fits p) : w'.Fits p := by
  obtain ⟨known, alive, shape⟩ := fits
  refine ⟨h.size ▸ known, (h.grown.alive known (s.vars _ known).known).2 alive, ?_⟩
  rw [h.shapeOf]
  exact shape

/-- What of it goes to `v`; a record without a gradient of its output sends nothing. -/
def sentTo (w : Workspace α) (v : VariableId) (r : TapeRecord α) : List (NDArray α) :=
  match w.gradient? r.output with
  | none => []
  | some g => going v (w.sent r g)

theorem sentTo_congr (h : w.Frame w') {r : TapeRecord α}
    (same : w'.gradient? r.output = w.gradient? r.output) (v : VariableId) :
    w'.sentTo v r = w.sentTo v r := by
  unfold sentTo sent
  rw [same, h.shapeOf, h.valueOf]

end Workspace

variable [Scalar α]

theorem TapeRecord.Sound.saved_values {w : Workspace α} {r : TapeRecord α} (s : r.Sound w) :
    r.saved.map Tensor.value = (r.saved.filterMap Tensor.value).map some := by
  obtain ⟨values, -, -, saved⟩ := s.applied
  rw [Tensor.filterMap_value saved, saved]

theorem TapeRecord.Sound.reads {w : Workspace α} {r : TapeRecord α} (s : r.Sound w) :
    ∃ values, r.operation.Applied w.shapeOf values ∧
      w.shapeOf r.output = (r.operation.result values).shape ∧
      r.saved.filterMap Tensor.value =
        (r.operation.map values).saved (r.operation.result values) := by
  obtain ⟨values, applied, result, saved⟩ := s.applied
  refine ⟨values, applied, result, ?_⟩
  rw [s.saved_values] at saved
  exact (List.map_inj_right fun _ _ => Option.some.inj).1 saved

theorem TapeRecord.Sound.targets {w : Workspace α} {r : TapeRecord α} (s : r.Sound w)
    (g : NDArray α) : ((w.sent r g).map Prod.fst).Perm r.operation.operands := by
  obtain ⟨values, -, -, saved⟩ := s.reads
  unfold Workspace.sent
  rw [saved]
  exact r.operation.targets_sent

theorem TapeRecord.Sound.sentTo_eq_nil {w : Workspace α} {r : TapeRecord α} (s : r.Sound w)
    {v : VariableId} (younger : r.output.index ≤ v.index) : w.sentTo v r = [] := by
  unfold Workspace.sentTo
  cases w.gradient? r.output with
  | none => rfl
  | some g =>
    show Workspace.going v (w.sent r g) = []
    rw [Workspace.going, List.map_eq_nil_iff, List.filter_eq_nil_iff]
    intro p hp same
    have operand : p.1 ∈ r.operation.operands :=
      (s.targets g).mem_iff.1 (List.mem_map_of_mem hp)
    have older := s.older p.1 operand
    have same : p.1 = v := by simpa using same
    rw [same] at older
    omega

namespace Session

open Workspace (going going_append going_of_eq going_of_ne map_going_of_none)

variable {w : Workspace α} {c : ContextId}

theorem outcome_assignGrad (s : w.Sound c) {v : VariableId} {g : Tensor α}
    (hg : (w.var v).grad = some g) (alive : w.Alive v) {x : NDArray α}
    (shape : x.shape = w.shapeOf v) :
    ∃ w', outcome (assignGrad v g x) w = (.ok (), w') ∧ w'.Sound c ∧ w.Frame w' ∧
      ∀ u, w'.gradient? u = if u = v then some x else w.gradient? u := by
  have known := Workspace.known_of_grad hg
  obtain ⟨-, same, -⟩ := (s.vars v known).grad g hg
  have fits : x.shape = g.shape := shape.trans same.symm
  have assigned := Workspace.assigned_eq_ok.2 ⟨fits, s.grad_valid known alive hg, rfl⟩
  refine ⟨_, ?_, (Workspace.refills_setGrad hg fits).sound s, w.frame_setGrad v _,
    w.gradient?_setGrad known g x⟩
  unfold assignGrad
  have run := outcome_ofExcept (w := w) (w.assigned g x)
  rw [outcome_bind_ok outcome_get, outcome_bind_ok (run.trans (by rw [assigned]))]
  rfl

theorem outcome_accumulate (s : w.Sound c) {v : VariableId} (alive : w.Alive v) {x : NDArray α}
    (shape : x.shape = w.shapeOf v) :
    ∃ w', outcome (accumulate v x) w = (.ok (), w') ∧ w'.Sound c ∧ w.Frame w' ∧
      ∀ u, w'.gradient? u = (w.gradient? u).map fun g => (going u [(v, x)]).foldl .add g := by
  unfold accumulate
  rw [outcome_bind_ok (outcome_var v)]
  cases hg : (w.var v).grad with
  | none =>
    have nothing : w.gradient? v = none := by
      rw [Workspace.gradient?, hg]
      rfl
    exact ⟨w, rfl, s, .refl w, map_going_of_none nothing⟩
  | some g =>
    have known := Workspace.known_of_grad hg
    obtain ⟨filled, same, -⟩ := (s.vars v known).grad g hg
    obtain ⟨old, value, oldShape⟩ := filled.filled
    have fits : x.shape = old.shape := (shape.trans same.symm).trans oldShape.symm
    have sumShape : (old.add x).shape = w.shapeOf v := oldShape.trans same
    obtain ⟨w', run, s', frame, gradients⟩ := outcome_assignGrad s hg alive sumShape
    refine ⟨w', ?_, s', frame, fun u => ?_⟩
    · have there := outcome_read_ok (s.grad_valid known alive hg) value
      dsimp only
      rw [outcome_bind_ok there, NDArray.addAligned?_of_shape_eq fits]
      exact run
    · rw [gradients u]
      by_cases same : u = v
      · have before : w.gradient? u = some old := by
          rw [same, Workspace.gradient?, hg]
          exact value
        rw [if_pos same, before, going_of_eq same]
        rfl
      · rw [if_neg same, going_of_ne same]
        exact Option.map_id'.symm

theorem outcome_send (s : w.Sound c) {v : VariableId} {x : NDArray α} (fits : w.Fits (v, x)) :
    ∃ w', outcome (send v x) w = (.ok (), w') ∧ w'.Sound c ∧ w.Frame w' ∧
      ∀ u, w'.gradient? u = (w.gradient? u).map fun g => (going u [(v, x)]).foldl .add g := by
  obtain ⟨known, alive, shape⟩ := fits
  have asks : outcome (requiresGrad v) w = (.ok (w.var v).requiresGrad, w) := rfl
  unfold send
  rw [outcome_bind_ok asks]
  cases required : (w.var v).requiresGrad with
  | true => exact outcome_accumulate s alive shape
  | false =>
    have nothing : w.gradient? v = none := by
      rw [Workspace.gradient?, (s.vars v known).asked required]
      rfl
    exact ⟨w, rfl, s, .refl w, map_going_of_none nothing⟩

theorem outcome_sends (s : w.Sound c) {l : List (VariableId × NDArray α)}
    (fits : ∀ p ∈ l, w.Fits p) :
    ∃ w', outcome (l.forM fun p => send p.1 p.2) w = (.ok (), w') ∧ w'.Sound c ∧ w.Frame w' ∧
      ∀ u, w'.gradient? u = (w.gradient? u).map fun g => (going u l).foldl .add g := by
  induction l generalizing w with
  | nil => exact ⟨w, rfl, s, .refl w, fun u => Option.map_id'.symm⟩
  | cons p l ih =>
    obtain ⟨w₁, sent, s₁, frame₁, first⟩ := outcome_send s (fits p List.mem_cons_self)
    have rest : ∀ q ∈ l, w₁.Fits q := fun q hq =>
      frame₁.fits s (fits q (List.mem_cons_of_mem _ hq))
    obtain ⟨w₂, others, s₂, frame₂, second⟩ := ih s₁ rest
    refine ⟨w₂, (outcome_bind_ok sent _).trans others, s₂, frame₁.trans frame₂, fun u => ?_⟩
    have parts : going u (p :: l) = going u [p] ++ going u l := going_append u [p] l
    rw [second u, first u, parts, Option.map_map]
    simp only [List.foldl_append]
    rfl

/-- A contribution that is computed when its turn comes is what it would have been before. -/
theorem outcome_deferred (s : w.Sound c) {w₁ : Workspace α} (frame : w.Frame w₁)
    {v : VariableId} (known : v.index < w.vars.size) (alive : w.Alive v) :
    outcome (value v) w₁ = (.ok (w.valueOf v), w₁) := by
  have alive₁ := (frame.grown.alive known (s.vars v known).known).2 alive
  have held : (w₁.tensor (w₁.var v).data).value = some (w.valueOf v) := by
    rw [frame.data, frame.tensor]
    exact (s.value_valueOf known).1
  rw [outcome_value, Workspace.read_eq_ok.2 ⟨alive₁, held⟩]
  rfl

theorem outcome_readGrad? (s : w.Sound c) {v : VariableId} (known : v.index < w.vars.size)
    (alive : w.Alive v) : outcome (readGrad? v) w = (.ok (w.gradient? v), w) := by
  unfold readGrad? Workspace.gradient?
  rw [outcome_bind_ok (outcome_var v)]
  cases hg : (w.var v).grad with
  | none => rfl
  | some g =>
    obtain ⟨sound, -⟩ := (s.vars v known).grad g hg
    obtain ⟨x, value, -⟩ := sound.filled
    have there := outcome_read_ok (s.grad_valid known alive hg) value
    exact (outcome_map_ok there some).trans (by rw [Option.bind_some, value])

theorem sent_fits (s : w.Sound c) {r : TapeRecord α} (sound : r.Sound w) {g : NDArray α}
    (hg : w.gradient? r.output = some g) : ∀ p ∈ w.sent r g, w.Fits p := by
  intro p hp
  have operand : p.1 ∈ r.operation.operands :=
    (sound.targets g).mem_iff.1 (List.mem_map_of_mem hp)
  refine ⟨Nat.lt_trans (sound.older _ operand) sound.known, sound.alive.2 _ operand, ?_⟩
  obtain ⟨values, applied, result, saved⟩ := sound.reads
  rw [Workspace.sent, saved] at hp
  exact Operation.shape_of_mem_sent applied
    ((s.gradient_shape sound.known hg).trans result) p hp

theorem shape_of_mem_sentTo (s : w.Sound c) {r : TapeRecord α} (sound : r.Sound w)
    {v : VariableId} : ∀ x ∈ w.sentTo v r, x.shape = w.shapeOf v := by
  intro x hx
  unfold Workspace.sentTo at hx
  cases hg : w.gradient? r.output with
  | none => simp [hg] at hx
  | some g =>
    rw [hg] at hx
    obtain ⟨p, hp, rfl⟩ := List.mem_map.1 hx
    obtain ⟨sent, target⟩ := List.mem_filter.1 hp
    have target : p.1 = v := by simpa using target
    rw [(sent_fits s sound hg p sent).2.2, target]

theorem outcome_sweep (s : w.Sound c) {r : TapeRecord α} (sound : r.Sound w) :
    ∃ w', outcome (sweep r) w = (.ok (), w') ∧ w'.Sound c ∧ w.Frame w' ∧
      ∀ u, w'.gradient? u = (w.gradient? u).map fun g => (w.sentTo u r).foldl .add g := by
  unfold sweep Workspace.sentTo
  rw [outcome_bind_ok (outcome_readGrad? s sound.known sound.alive.1)]
  cases hg : w.gradient? r.output with
  | none => exact ⟨w, rfl, s, .refl w, fun u => Option.map_id'.symm⟩
  | some g =>
    have fits := sent_fits s sound hg
    have saved := outcome_mapM_read sound.saved sound.saved_values
    have each : ∀ v, outcome (do return (v, ← shapeOf v)) w = (.ok (v, w.shapeOf v), w) :=
      fun v => rfl
    have shaped := outcome_mapM_ok each r.operation
    dsimp only
    rw [outcome_bind_ok saved, outcome_bind_ok shaped]
    unfold Workspace.sent Operation.sent at fits ⊢
    obtain ⟨w₁, run, s₁, frame₁, first⟩ :=
      outcome_sends s fun p hp => fits p (List.mem_append_left _ hp)
    rw [outcome_bind_ok run]
    cases hd : r.operation.deferred? (r.saved.filterMap Tensor.value) g with
    | none =>
      refine ⟨w₁, rfl, s₁, frame₁, fun u => ?_⟩
      rw [List.append_nil]
      exact first u
    | some d =>
      have operand := Operation.mem_operands_of_deferred hd
      have read := outcome_deferred s frame₁ (Nat.lt_trans (sound.older _ operand) sound.known)
        (sound.alive.2 _ operand)
      rw [hd] at fits
      have last : w₁.Fits (d.target, d.contribution (w.valueOf d.reads)) :=
        frame₁.fits s (fits _ (List.mem_append_right _ (List.mem_singleton.2 rfl)))
      obtain ⟨w₂, sent, s₂, frame₂, second⟩ := outcome_send s₁ last
      refine ⟨w₂, (outcome_bind_ok read _).trans sent, s₂, frame₁.trans frame₂, fun u => ?_⟩
      rw [second u, first u, going_append, Option.map_map]
      simp only [List.foldl_append]
      rfl

theorem outcome_sweeps {rs : List (TapeRecord α)} (s : w.Sound c) (sound : ∀ r ∈ rs, r.Sound w)
    (ordered : rs.Pairwise fun r q => q.output.index < r.output.index) :
    ∃ w', outcome (rs.forM sweep) w = (.ok (), w') ∧ w'.Sound c ∧ w.Frame w' ∧
      ∀ u, w'.gradient? u =
        (w.gradient? u).map fun g => (rs.flatMap (w'.sentTo u)).foldl NDArray.add g := by
  induction rs generalizing w with
  | nil =>
    refine ⟨w, rfl, s, .refl w, fun u => ?_⟩
    cases w.gradient? u <;> rfl
  | cons r rs ih =>
    obtain ⟨earlier, ordered⟩ := List.pairwise_cons.1 ordered
    have first := sound r List.mem_cons_self
    have others : ∀ q ∈ rs, q.Sound w := fun q hq => sound q (List.mem_cons_of_mem _ hq)
    obtain ⟨w₁, swept, s₁, frame₁, here⟩ := outcome_sweep s first
    have others₁ : ∀ q ∈ rs, q.Sound w₁ := fun q hq => frame₁.grown.record_sound s (others q hq)
    obtain ⟨w₂, run, s₂, frame₂, rest⟩ := ih s₁ others₁ ordered
    have frame := frame₁.trans frame₂
    -- Neither this record nor an earlier one sends anything to the output of this one.
    have final : w₂.gradient? r.output = w.gradient? r.output := by
      have own : w.sentTo r.output r = [] := first.sentTo_eq_nil (Nat.le_refl _)
      have none : rs.flatMap (w₂.sentTo r.output) = [] := by
        rw [List.flatMap_eq_nil_iff]
        intro q hq
        have sound₂ := frame.grown.record_sound s (others q hq)
        exact sound₂.sentTo_eq_nil (Nat.le_of_lt (earlier q hq))
      rw [rest, here, own, none]
      cases w.gradient? r.output <;> rfl
    refine ⟨w₂, (outcome_bind_ok swept _).trans run, s₂, frame, fun u => ?_⟩
    rw [rest, here, List.flatMap_cons, Workspace.sentTo_congr frame final u, Option.map_map]
    simp only [List.foldl_append]
    rfl

theorem outcome_fillGrad (s : w.Sound c) {v : VariableId} (alive : w.Alive v) {g : Tensor α}
    (hg : (w.var v).grad = some g) (x : α) :
    ∃ w', outcome (fillGrad v g x) w = (.ok (), w') ∧ w'.Sound c ∧ w.Frame w' ∧
      ∀ u, w'.gradient? u = if u = v then some (.fill (w.shapeOf v) x) else w.gradient? u := by
  have known := Workspace.known_of_grad hg
  obtain ⟨sound, same, -⟩ := (s.vars v known).grad g hg
  have same : g.shape = w.shapeOf v := same
  obtain ⟨y, value, -⟩ := sound.filled
  obtain ⟨w', run, rest⟩ := outcome_assignGrad s hg alive (x := .fill g.shape x) same
  rw [same] at rest
  exact ⟨w', (outcome_bind_ok (outcome_read_ok (s.grad_valid known alive hg) value) _).trans run,
    rest⟩

theorem outcome_seed (s : w.Sound c) {loss : VariableId} (alive : w.Alive loss) {g : Tensor α}
    (hg : (w.var loss).grad = some g) :
    ∃ w', outcome (fillGrad loss g 1) w = (.ok (), w') ∧ w'.Sound c ∧ w.Frame w' ∧
      ∀ v, w'.gradient? v = w.initial? (some loss) v := by
  obtain ⟨w', run, s', frame, gradients⟩ := outcome_fillGrad s alive hg 1
  refine ⟨w', run, s', frame, fun v => ?_⟩
  rw [gradients v, Workspace.initial?]
  by_cases same : v = loss
  · rw [if_pos same, if_pos (congrArg some same.symm), same]
  · rw [if_neg same, if_neg fun h => same (Option.some.inj h).symm]

theorem outcome_tape (s : w.Sound c) : outcome (do
    let k ← context (← current)
    k.tape.toList.reverse.forM sweep) w = outcome ((w.tape c).reverse.forM sweep) w := by
  have there : outcome (context c) w = (.ok (w.context c), w) := rfl
  rw [outcome_bind_ok (outcome_current s.current), outcome_bind_ok there]
  rfl

theorem outcome_sweepTape (s : w.Sound c) :
    ∃ w', outcome ((w.tape c).reverse.forM sweep) w = (.ok (), w') ∧ w'.Sound c ∧ w.Frame w' ∧
      ∀ v, w'.gradient? v = (w.gradient? v).map fun g =>
        ((w.tape c).reverse.flatMap (w'.sentTo v)).foldl .add g :=
  outcome_sweeps s (fun r hr => s.tape r (List.mem_reverse.1 hr))
    (List.pairwise_reverse.2 s.ordered)

theorem outcome_backward_some (s : w.Sound c) {loss : VariableId} (alive : w.Alive loss)
    (asked : (w.var loss).grad.isSome = true) :
    ∃ w', outcome (backward (some loss)) w = outcome ((w'.tape c).reverse.forM sweep) w' ∧
      w'.Sound c ∧ w.Frame w' ∧ w'.tape c = w.tape c ∧
      ∀ v, w'.gradient? v = w.initial? (some loss) v := by
  obtain ⟨g, hg⟩ := Option.isSome_iff_exists.1 asked
  obtain ⟨w', seeded, s', frame, gradients⟩ := outcome_seed s alive hg
  have tape : w'.tape c = w.tape c := by
    unfold Workspace.tape
    rw [frame.context]
  refine ⟨w', ?_, s', frame, tape, gradients⟩
  unfold backward
  dsimp only
  rw [outcome_bind_ok (outcome_var loss), hg]
  exact (outcome_bind_ok seeded _).trans (outcome_tape s')

theorem outcome_backward_refused {loss : VariableId} (unasked : (w.var loss).grad.isSome = false) :
    outcome (backward (some loss)) w = (.error .noGradient, w) := by
  have missing : (w.var loss).grad = none := by simpa using unasked
  unfold backward
  dsimp only
  rw [outcome_bind_ok (outcome_var loss), missing]
  rfl

theorem outcome_backward (s : w.Sound c) {loss? : Option VariableId}
    (ready : ∀ loss ∈ loss?, w.Alive loss ∧ (w.var loss).grad.isSome = true) :
    ∃ w', outcome (backward loss?) w = (.ok (), w') ∧ w'.Sound c ∧ w.Frame w' ∧
      ∀ v, w'.gradient? v = (w.initial? loss? v).map fun g =>
        ((w.tape c).reverse.flatMap (w'.sentTo v)).foldl .add g := by
  cases loss? with
  | none =>
    obtain ⟨w', swept, rest⟩ := outcome_sweepTape s
    exact ⟨w', (outcome_tape s).trans swept, rest⟩
  | some loss =>
    obtain ⟨alive, asked⟩ := ready loss rfl
    obtain ⟨w₁, seeded, s₁, frame₁, tape, first⟩ := outcome_backward_some s alive asked
    obtain ⟨w₂, swept, s₂, frame₂, second⟩ := outcome_sweepTape s₁
    refine ⟨w₂, seeded.trans swept, s₂, frame₁.trans frame₂, fun v => ?_⟩
    rw [second v, first v, tape]

/-- Whatever was recorded, the pass goes through. A variable that asks for no gradient has none, and
any other ends with its first gradient and, in the order of the sweep, all that is sent to it for
the final gradients of the outputs, once for each place where a record holds it. -/
theorem backward_gradient (reached : w.Reachable) {loss? : Option VariableId}
    (ready : ∀ loss ∈ loss?, (∃ x, outcome (value loss) w = (.ok x, w)) ∧
      (w.var loss).grad.isSome = true) :
    ∃ w', outcome (backward loss?) w = (.ok (), w') ∧
      (∀ v, (w.var v).requiresGrad = false → (w'.var v).grad = none) ∧
      (∀ r ∈ w.recorded, ∀ g, ((w'.sent r g).map Prod.fst).Perm r.operation.operands) ∧
      (∀ v, w'.gradient? v = (w.initial? loss? v).map fun g =>
        (w.recorded.reverse.flatMap (w'.sentTo v)).foldl .add g) ∧
      ((∀ x y z : α, x + y + z = x + z + y) → ∀ v (xs : List (NDArray α)),
        xs.Perm (w.recorded.flatMap (w'.sentTo v)) →
          w'.gradient? v = (w.initial? loss? v).map fun g => xs.foldl .add g) := by
  have s := reached.sound
  have recorded : w.recorded = w.tape ⟨0⟩ := by
    rw [Workspace.recorded, s.current]
    rfl
  have alive : ∀ loss ∈ loss?, w.Alive loss ∧ (w.var loss).grad.isSome = true := by
    intro loss hloss
    obtain ⟨⟨x, read⟩, asked⟩ := ready loss hloss
    have read := ok_of_failAs (congrArg Prod.fst read)
    exact ⟨(Workspace.read_eq_ok.1 read).1, asked⟩
  obtain ⟨w', run, s', frame, gradients⟩ := outcome_backward s alive
  rw [recorded]
  refine ⟨w', run, ?_, ?_, gradients, ?_⟩
  · intro v unasked
    by_cases known : v.index < w'.vars.size
    · exact (s'.vars v known).asked ((frame.requiresGrad v).trans unasked)
    · cases hg : (w'.var v).grad with
      | none => rfl
      | some g => exact absurd (Workspace.known_of_grad hg) known
  · intro r hr g
    exact (frame.grown.record_sound s (s.tape r hr)).targets g
  · intro exact v xs order
    have sweep : xs.Perm ((w.tape ⟨0⟩).reverse.flatMap (w'.sentTo v)) :=
      order.trans ((List.reverse_perm _).symm.flatMap_right _)
    rw [gradients v]
    congr 1
    funext g
    exact (sweep.foldl_eq' (fun a _ b _ z => NDArray.add_right_comm exact z a b) g).symm

def sumOfSquare : Workspace Float :=
  let start := .ofContext (.ofArena (.ofChunkSize 64) 10) fun _ => 0
  let tensor := (outcome (Action.tensor (.fill [1] 3) false).run start).2
  let number := (outcome (Action.parameter ⟨0⟩ "x").run tensor).2
  let square := (outcome (Action.apply (.multiply ⟨0⟩ ⟨0⟩)).run number).2
  (outcome (Action.apply (.add ⟨1⟩ ⟨0⟩)).run square).2

theorem backward_gradient_square :
    sumOfSquare.Reachable ∧
      ((∃ x, outcome (value ⟨2⟩) sumOfSquare = (.ok x, sumOfSquare)) ∧
        (sumOfSquare.var ⟨2⟩).grad.isSome = true) ∧
      ∃ w', outcome (backward (some ⟨2⟩)) sumOfSquare = (.ok (), w') ∧
        (w'.gradient? ⟨0⟩ = (sumOfSquare.initial? (some ⟨2⟩) ⟨0⟩).map fun g =>
          (sumOfSquare.recorded.reverse.flatMap (w'.sentTo ⟨0⟩)).foldl .add g) ∧
        (w'.gradient? ⟨0⟩).map NDArray.toList = some [7] := by
  have reached : sumOfSquare.Reachable := by
    refine .step (.step (.step (.step (.start _ _ _) trivial) ?_) ?_) ?_
    · decide +kernel
    · decide +kernel
    · decide +kernel
  have read : ∃ x, outcome (value ⟨2⟩) sumOfSquare = (.ok x, sumOfSquare) := ⟨_, rfl⟩
  have asked : (sumOfSquare.var ⟨2⟩).grad.isSome = true := by decide +kernel
  have ready : ∀ loss ∈ some (⟨2⟩ : VariableId),
      (∃ x, outcome (value loss) sumOfSquare = (.ok x, sumOfSquare)) ∧
        (sumOfSquare.var loss).grad.isSome = true := by
    intro loss hloss
    obtain rfl := Option.mem_some.1 hloss
    exact ⟨read, asked⟩
  obtain ⟨w', run, -, -, sums, -⟩ := backward_gradient reached ready
  refine ⟨reached, ⟨read, asked⟩, w', run, sums ⟨0⟩, ?_⟩
  have same : w' = (outcome (backward (some ⟨2⟩)) sumOfSquare).2 := (congrArg Prod.snd run).symm
  rw [same]
  decide +kernel

end Session

end DerivativeEngine
