import DerivativeEngine.Proofs.Training.Forward

/-! One iteration: a forward pass and the sweep back from its loss. What it comes to is the value of
the loss and, for every parameter, the contributions that were added to its gradient. Twins come to
the same: the sweep looks at values, at saved arrays and at gradients of what was made in the pass,
and these are equal; the gradients of parameters it only adds to. -/

namespace DerivativeEngine

variable {α : Type} {m n : Nat}

/-- The loss and, for each parameter, what was added to its gradient, in this order. A parameter
that is itself the loss has its gradient set to ones before. -/
structure Iteration (α : Type) (n : Nat) where
  loss : NDArray α
  seeded : Fin n → Bool
  amounts : Fin n → List (NDArray α)

variable [Scalar α]

def Iteration.gradient (it : Iteration α n) (i : Fin n) (before : NDArray α) : NDArray α :=
  (it.amounts i).foldl .add (if it.seeded i then .fill before.shape 1 else before)

def Forward.iterate (P : Forward α n) (ps : Numbering n) : Session α (Iteration α n) := do
  let loss ← P.run ps
  let x ← Session.value loss
  let passed ← get
  Session.backward (some loss)
  let swept ← get
  return ⟨x, fun i => loss = ps i, fun i => passed.recorded.reverse.flatMap (swept.sentTo (ps i))⟩

namespace Workspace

variable {w w' : Workspace α} {c c' : ContextId} {ρ ρ' : Numbering m} {r r' : TapeRecord α}
  {rs rs' : List (TapeRecord α)}

omit [Scalar α] in
theorem going_map {ρ : Numbering m} (distinct : Function.Injective ρ) (i : Fin m)
    (l : List (Fin m × NDArray α)) :
    going (ρ i) (l.map (Prod.map ρ id)) = (l.filter fun p => p.1 = i).map Prod.snd := by
  have same : (fun p : VariableId × NDArray α => decide (p.1 = ρ i)) ∘ Prod.map ρ id =
      fun p => decide (p.1 = i) := by
    funext p
    exact decide_eq_decide.2 distinct.eq_iff
  rw [going, List.filter_map, same, List.map_map]
  rfl

theorem Agree.sentTo (h : Agree n ρ ρ' w w') (distinct : Function.Injective ρ)
    (distinct' : Function.Injective ρ') (matched : r.Matches n ρ ρ' r') (i : Fin m) :
    w'.sentTo (ρ' i) r' = w.sentTo (ρ i) r := by
  obtain ⟨op, k, inner, values⟩ := matched
  unfold Workspace.sentTo sent
  dsimp only
  rw [h.gradient k inner, values]
  cases w.gradient? (ρ k) with
  | none => rfl
  | some g =>
    dsimp only
    rw [Operation.sent_map, Operation.sent_map, going_map distinct, going_map distinct']
    simp only [h.shape, h.value]

theorem Agree.flatMap_sentTo (h : Agree n ρ ρ' w w') (distinct : Function.Injective ρ)
    (distinct' : Function.Injective ρ')
    (matched : List.Forall₂ (TapeRecord.Matches n ρ ρ') rs rs') (i : Fin m) :
    rs'.flatMap (w'.sentTo (ρ' i)) = rs.flatMap (w.sentTo (ρ i)) := by
  induction matched with
  | nil => rfl
  | cons first _ rest =>
    rw [List.flatMap_cons, List.flatMap_cons, h.sentTo distinct distinct' first, rest]

theorem Agree.frame {w₁ w₁' : Workspace α} (h : Agree n ρ ρ' w w') (frame : w.Frame w₁)
    (frame' : w'.Frame w₁')
    (gradient : ∀ i : Fin m, n ≤ i.val → w₁'.gradient? (ρ' i) = w₁.gradient? (ρ i)) :
    Agree n ρ ρ' w₁ w₁' where
  value i := by rw [frame.valueOf, frame'.valueOf, h.value]
  shape i := by rw [frame.shapeOf, frame'.shapeOf, h.shape]
  gradient := gradient

theorem Agree.sweeps (distinct : Function.Injective ρ) (distinct' : Function.Injective ρ')
    (matched : List.Forall₂ (TapeRecord.Matches n ρ ρ') rs rs') {w w' : Workspace α}
    (h : Agree n ρ ρ' w w') (s : w.Sound c) (s' : w'.Sound c') (sound : ∀ r ∈ rs, r.Sound w)
    (sound' : ∀ r ∈ rs', r.Sound w') :
    Agree n ρ ρ' (Session.outcome (rs.forM Session.sweep) w).2
      (Session.outcome (rs'.forM Session.sweep) w').2 := by
  induction matched generalizing w w' with
  | nil => exact h
  | @cons r r' rs rs' first _ ih =>
    obtain ⟨here, others⟩ := List.forall_mem_cons.1 sound
    obtain ⟨here', others'⟩ := List.forall_mem_cons.1 sound'
    obtain ⟨w₁, swept, s₁, frame, gradients⟩ := Session.outcome_sweep s here
    obtain ⟨w₁', swept', s₁', frame', gradients'⟩ := Session.outcome_sweep s' here'
    have next : Agree n ρ ρ' w₁ w₁' := h.frame frame frame' fun i inner => by
      rw [gradients, gradients', h.gradient i inner, h.sentTo distinct distinct' first]
    have run : Session.outcome ((r :: rs).forM Session.sweep) w =
        Session.outcome (rs.forM Session.sweep) w₁ := Session.outcome_bind_ok swept _
    have run' : Session.outcome ((r' :: rs').forM Session.sweep) w' =
        Session.outcome (rs'.forM Session.sweep) w₁' := Session.outcome_bind_ok swept' _
    rw [run, run']
    exact ih next s₁ s₁' (fun q hq => frame.grown.record_sound s (others q hq))
      fun q hq => frame'.grown.record_sound s' (others' q hq)

omit [Scalar α] in
theorem recorded_of_current (current : w.current = some c) : w.recorded = w.tape c := by
  rw [recorded, current]
  rfl

theorem Twin.backward (h : Twin n c c' ρ ρ' w w') (k : Fin m) :
    (∃ e, Session.outcome (Session.backward (some (ρ k))) w = (.error e, w) ∧
      Session.outcome (Session.backward (some (ρ' k))) w' = (.error e, w')) ∨
    ∃ w₁ w₁', Session.outcome (Session.backward (some (ρ k))) w = (.ok (), w₁) ∧
      Session.outcome (Session.backward (some (ρ' k))) w' = (.ok (), w₁') ∧
      (∀ v, w₁.gradient? v = (w.initial? (some (ρ k)) v).map fun g =>
        (w.recorded.reverse.flatMap (w₁.sentTo v)).foldl .add g) ∧
      (∀ v, w₁'.gradient? v = (w'.initial? (some (ρ' k)) v).map fun g =>
        (w'.recorded.reverse.flatMap (w₁'.sentTo v)).foldl .add g) ∧
      ∀ i, w'.recorded.reverse.flatMap (w₁'.sentTo (ρ' i)) =
          w.recorded.reverse.flatMap (w₁.sentTo (ρ i)) ∧
        ∀ x ∈ w.recorded.reverse.flatMap (w₁.sentTo (ρ i)), x.shape = w.shapeOf (ρ i) := by
  have s := h.left.sound
  have s' := h.right.sound
  have asked : (w'.var (ρ' k)).grad.isSome = (w.var (ρ k)).grad.isSome := by
    rw [h.left.asked, h.right.asked, h.asks]
  cases there : (w.var (ρ k)).grad.isSome with
  | false =>
    rw [there] at asked
    exact .inl ⟨.noGradient, Session.outcome_backward_refused there,
      Session.outcome_backward_refused asked⟩
  | true =>
    rw [there] at asked
    have ready : ∀ loss ∈ some (ρ k), w.Alive loss ∧ (w.var loss).grad.isSome = true := by
      intro loss hloss
      obtain rfl := Option.mem_some.1 hloss
      exact ⟨h.left.alive k, there⟩
    have ready' : ∀ loss ∈ some (ρ' k), w'.Alive loss ∧ (w'.var loss).grad.isSome = true := by
      intro loss hloss
      obtain rfl := Option.mem_some.1 hloss
      exact ⟨h.right.alive k, asked⟩
    obtain ⟨w₁, run, s₁, frame₁, gradients⟩ := Session.outcome_backward s ready
    obtain ⟨w₁', run', -, -, gradients'⟩ := Session.outcome_backward s' ready'
    obtain ⟨u, seeded, su, frame, tape, first⟩ :=
      Session.outcome_backward_some s (h.left.alive k) there
    obtain ⟨u', seeded', su', frame', tape', first'⟩ :=
      Session.outcome_backward_some s' (h.right.alive k) asked
    have start : Agree n ρ ρ' u u' := h.agree.frame frame frame' fun i inner => by
      rw [first, first', initial?, initial?, h.agree.gradient i inner, h.agree.shape i]
      simp only [Option.some.injEq, h.left.distinct.eq_iff, h.right.distinct.eq_iff]
    have matched : List.Forall₂ (TapeRecord.Matches n ρ ρ') (u.tape c).reverse
        (u'.tape c').reverse := by
      rw [tape, tape']
      exact List.forall₂_reverse_iff.2 h.tape
    have final := start.sweeps h.left.distinct h.right.distinct matched su su'
      (fun r hr => su.tape r (List.mem_reverse.1 hr))
      fun r hr => su'.tape r (List.mem_reverse.1 hr)
    rw [← seeded, ← seeded', run, run'] at final
    rw [recorded_of_current s.current, recorded_of_current s'.current]
    rw [tape, tape'] at matched
    refine .inr ⟨w₁, w₁', run, run', gradients, gradients', fun i =>
      ⟨final.flatMap_sentTo h.left.distinct h.right.distinct matched i, fun x hx => ?_⟩⟩
    obtain ⟨r, hr, sent⟩ := List.mem_flatMap.1 hx
    have sound := frame₁.grown.record_sound s (s.tape r (List.mem_reverse.1 hr))
    rw [Session.shape_of_mem_sentTo s₁ sound x sent, frame₁.shapeOf]

theorem Names.gradient_isSome (h : w.Names c ρ) {i : Fin m}
    (asks : (w.var (ρ i)).requiresGrad = true) : ∃ g, w.gradient? (ρ i) = some g := by
  rw [← Option.isSome_iff_exists, h.sound.gradient_isSome (h.known i), h.asked i, asks]

theorem Names.swept {M : Nat} {σ : Numbering M} {w₁ w₂ : Workspace α} {k : Fin M}
    {amounts : List (NDArray α)} (names : w₁.Names c σ) (later : Continued ρ σ w w₁)
    (known : ∀ i, (ρ i).index < w.vars.size) {i : Fin m}
    (asks : (w.var (ρ i)).requiresGrad = true)
    (gradient : w₂.gradient? (ρ i) = (w₁.initial? (some (σ k)) (ρ i)).map fun g =>
      amounts.foldl .add g) :
    w₂.gradient? (ρ i) = (w.gradient? (ρ i)).map fun g =>
      amounts.foldl .add (if σ k = ρ i then .fill g.shape 1 else g) := by
  have old : w₁.gradient? (ρ i) = w.gradient? (ρ i) := by
    rw [gradient?, later.var _ (known i), gradient?]
  have there : ∃ g, w₁.gradient? (ρ i) = some g := by
    have asks₁ : (w₁.var (σ (Fin.castLE later.le i))).requiresGrad = true := by
      rw [later.same, later.var _ (known i), asks]
    have found := names.gradient_isSome asks₁
    rwa [later.same] at found
  obtain ⟨g, hg⟩ := there
  have shape : g.shape = w₁.shapeOf (ρ i) :=
    names.sound.gradient_shape (Nat.lt_of_lt_of_le (known i) later.vars) hg
  rw [gradient, ← old, hg, initial?, hg, ← shape]
  simp only [Option.some.injEq]
  by_cases same : σ k = ρ i
  · rw [if_pos same, Option.map_some, Option.map_some, if_pos same]
  · rw [if_neg same, Option.map_some, Option.map_some, if_neg same]

/-- Twins come to the same in an iteration, and add the same to what they had. -/
theorem Twin.iterate (P : Forward α n) {ps ps' : Numbering n} (h : Twin n c c' ps ps' w w')
    (asks : ∀ i, (w.var (ps i)).requiresGrad = true) :
    (∃ e, (Session.outcome (P.iterate ps) w).1 = .error e ∧
      (Session.outcome (P.iterate ps') w').1 = .error e) ∨
    ∃ it w₁ w₁', Session.outcome (P.iterate ps) w = (.ok it, w₁) ∧
      Session.outcome (P.iterate ps') w' = (.ok it, w₁') ∧
      (∀ i, w₁.gradient? (ps i) = (w.gradient? (ps i)).map (it.gradient i)) ∧
      (∀ i, w₁'.gradient? (ps' i) = (w'.gradient? (ps' i)).map (it.gradient i)) ∧
      ∀ i, ∀ x ∈ it.amounts i, x.shape = w.shapeOf (ps i) := by
  unfold Forward.iterate
  rcases h.run P (Nat.le_refl n) with ⟨e, failed, failed'⟩ |
    ⟨M, σ, σ', k, w₁, w₁', run, run', later, later', twin⟩
  · exact .inl ⟨e, Session.outcome_bind_failed failed _, Session.outcome_bind_failed failed' _⟩
  have value := twin.left.value k
  have value' := twin.right.value k
  rw [twin.agree.value] at value'
  rw [Session.outcome_bind_ok run, Session.outcome_bind_ok run', Session.outcome_bind_ok value,
    Session.outcome_bind_ok value', Session.outcome_bind_ok Session.outcome_get,
    Session.outcome_bind_ok Session.outcome_get]
  rcases twin.backward k with ⟨e, failed, failed'⟩ |
    ⟨w₂, w₂', swept, swept', gradients, gradients', amounts⟩
  · rw [Session.outcome_bind_error failed, Session.outcome_bind_error failed']
    exact .inl ⟨e, rfl, rfl⟩
  rw [Session.outcome_bind_ok swept, Session.outcome_bind_ok swept',
    Session.outcome_bind_ok Session.outcome_get, Session.outcome_bind_ok Session.outcome_get]
  have seeded : (fun i => decide (σ' k = ps' i)) = fun i => decide (σ k = ps i) := by
    funext i
    rw [← later.same i, ← later'.same i]
    exact decide_eq_decide.2
      (twin.right.distinct.eq_iff.trans twin.left.distinct.eq_iff.symm)
  have added : (fun i => w₁'.recorded.reverse.flatMap (w₂'.sentTo (ps' i))) =
      fun i => w₁.recorded.reverse.flatMap (w₂.sentTo (ps i)) := by
    funext i
    rw [← later.same i, ← later'.same i, (amounts _).1]
  refine .inr ⟨_, w₂, w₂', rfl, ?_, fun i => ?_, fun i => ?_, fun i x hx => ?_⟩
  · rw [seeded, added]
    rfl
  · have final := twin.left.swept later h.left.known (asks i) (gradients (ps i))
    rw [final]
    congr 1
    funext g
    simp only [Iteration.gradient, decide_eq_true_eq]
  · have asks' : (w'.var (ps' i)).requiresGrad = true := (h.asks i).trans (asks i)
    have final := twin.right.swept later' h.right.known asks' (gradients' (ps' i))
    have same := congrFun seeded i
    have moved := congrFun added i
    rw [final, moved]
    congr 1
    funext g
    simp only [Iteration.gradient, ← same, decide_eq_true_eq]
  · have shape := (amounts (Fin.castLE later.le i)).2 x (by rwa [later.same])
    rw [shape, later.same, later.shapeOf h.left.sound (h.left.known i)]

end Workspace

end DerivativeEngine
