import Mathlib.Data.List.Iterate
import DerivativeEngine.Optimize.Descent
import DerivativeEngine.Proofs.Engine.Results
import DerivativeEngine.Proofs.Optimize.Positions
import DerivativeEngine.Proofs.Optimize.Pursuit
import DerivativeEngine.Proofs.Rewrite.Differentiation
import DerivativeEngine.Proofs.Source.Acceptance

/-! A descent as one step repeated. Where nothing is drawn, the objective and its gradient have one
value at every position, whatever the engine has seen before; so an iteration is a function of the
position and of what the method remembers, which gives either the next position or the reason why
there is none. All methods are the repetition of such a step, and what is said of their results
follows from what is said of the step. -/

namespace DerivativeEngine

open Run (Steady)

section Values

variable {α : Type} [Scalar α] [NumberText α]

theorem Expr.steady_run {e : Expr α} (drawless : e.EveryNode Expr.DrawsNothing)
    (b : Option (Bindings α)) : (e.run b).Steady := by
  have given : (e.run b).Gives (· = e.value b) := fun s =>
    congrArg Prod.fst (e.evaluate_eq_value b drawless s.stream)
  exact given.steady

theorem Gradient.steady_run {g : Gradient α}
    (drawless : ∀ e ∈ g.components, e.EveryNode Expr.DrawsNothing) (b : Bindings α) :
    (g.run b).Steady := by
  have each (es : List (Expr α)) (still : ∀ e ∈ es, e.EveryNode Expr.DrawsNothing) :
      (es.mapM fun e : Expr α => e.run (some b)).Steady := by
    induction es with
    | nil => exact .pure []
    | cons e es ih =>
      obtain ⟨first, others⟩ := List.forall_mem_cons.1 still
      rw [List.mapM_cons]
      exact (Expr.steady_run first _).bind fun v => (ih others).bind fun vs => .pure (v :: vs)
  exact each g.components drawless

end Values

def Bindings.along {α : Type} [Scalar α] (b : Bindings α) (d : List α) (step : α) : Bindings α :=
  { b with values := DescentProblem.advanced b.values d step }

namespace DescentProblem

variable {α : Type} [Scalar α] [NumberText α]

/-- Neither the objective nor an entry of its gradient draws. -/
structure Drawless (p : DescentProblem α) : Prop where
  objective : p.objective.EveryNode Expr.DrawsNothing
  gradient : ∀ e ∈ p.gradient.components, e.EveryNode Expr.DrawsNothing

omit [NumberText α] in
theorem drawless_ofNames {e : Expr α} (drawless : e.EveryNode Expr.DrawsNothing)
    (names : List String) : (ofNames e names).Drawless := by
  refine ⟨drawless, fun d mem => ?_⟩
  rw [ofNames, Gradient.ofExpr_value] at mem
  obtain ⟨x, -, rfl⟩ := List.mem_map.1 mem
  have derived := Expr.EveryNode.derivative Expr.atomic_drawsNothing (fun _ _ => trivial)
    (canonicalName x) e drawless
  exact Expr.EveryNode.simplify Expr.atomic_drawsNothing _ derived

variable (p : DescentProblem α)

def height (b : Bindings α) : α := (p.value b).result

def slope (b : Bindings α) : List α := (p.gradient.run b).result

def trialSteps : List α := List.iterate (· * 0.5) 1 halvings

def searched? (b : Bindings α) (d : List α) : Option α :=
  trialSteps.find? fun step => p.height (b.along d step) < p.height b

variable {p : DescentProblem α} (drawless : p.Drawless)
include drawless

theorem Drawless.steady_value (b : Bindings α) : (p.value b).Steady :=
  Expr.steady_run drawless.objective _

theorem Drawless.steady_gradient (b : Bindings α) : (p.gradient.run b).Steady :=
  Gradient.steady_run drawless.gradient b

theorem Drawless.gives_searchFrom (b : Bindings α) (d : List α) (bound : α) (n : Nat) :
    ∀ step : α, (p.searchFrom b d bound n step).Gives (· =
      (List.iterate (· * 0.5) step n).find? fun step => p.height (b.along d step) < bound) := by
  induction n with
  | zero => exact fun _ => .pure rfl
  | succ n ih =>
    intro step
    rw [searchFrom, List.iterate, List.find?_cons]
    refine Run.Gives.bind (drawless.steady_value (b.along d step)) fun x hx => ?_
    subst hx
    change Run.Gives (if p.height (b.along d step) < bound then _ else _) _
    by_cases lower : p.height (b.along d step) < bound
    · rw [if_pos lower, decide_eq_true lower]
      exact .pure rfl
    · rw [if_neg lower, decide_eq_false lower]
      exact ih _

theorem Drawless.gives_lineSearch (b : Bindings α) (d : List α) :
    (p.lineSearch b d).Gives (· = p.searched? b d) := by
  refine Run.Gives.bind (drawless.steady_value b) fun x hx => ?_
  subst hx
  exact drawless.gives_searchFrom b d _ halvings 1

theorem Drawless.steady_descend (b : Bindings α) (g : List α) (last : Option (List α × List α)) :
    (p.descend b g last).Steady := by
  unfold descend
  dsimp only
  refine (drawless.gives_lineSearch b _).steady.bind fun step => ?_
  cases step with
  | some step => exact .pure _
  | none =>
    dsimp only
    split
    · exact .pure none
    · exact (drawless.gives_lineSearch b _).steady.bind fun step => .pure _

theorem Drawless.searched_of_descend {b : Bindings α} {g : List α}
    {last : Option (List α × List α)} {w : List α × α}
    (taken : (p.descend b g last).result = some w) : p.searched? b w.1 = some w.2 := by
  suffices each : (p.descend b g last).Gives fun way => ∀ w ∈ way, p.searched? b w.1 = some w.2 from
    each Engine.start w taken
  unfold descend
  dsimp only
  refine (drawless.gives_lineSearch b _).bind fun step hstep => ?_
  cases step with
  | some step =>
    refine .pure fun w hw => ?_
    obtain rfl := Option.mem_some.1 hw
    exact hstep.symm
  | none =>
    dsimp only
    split
    · exact .pure nofun
    · refine (drawless.gives_lineSearch b _).bind fun step hstep => ?_
      refine .pure fun w hw => ?_
      obtain ⟨step, rfl, rfl⟩ := Option.map_eq_some_iff.1 hw
      exact hstep.symm

end DescentProblem

/-- What goes from one iteration to the next: how many there were, what the method remembers, which
is one of two things, and the position. -/
structure DescentState (α : Type) where
  done : Nat
  moments : Moments α
  last : Option (List α × List α)
  position : Bindings α

def DescentState.start {α : Type} [Scalar α] (b : Bindings α) : DescentState α :=
  ⟨0, .zero b.values.length, none, b⟩

abbrev DescentStop := Except ArithmeticFault DescentExit

namespace DescentProblem

variable {α : Type} [Scalar α] [NumberText α] (p : DescentProblem α) (method : DescentMethod)
  (c : DescentConfig α) (period : Nat)

def next (s : DescentState α) : Except DescentStop (DescentState α) :=
  let g := p.slope s.position
  match exitAt c (norm g) with
  | some exit => .error (.ok exit)
  | none =>
    if method = .conjugateGradient then
      match (p.descend s.position g (if s.done % period == 0 then none else s.last)).result with
      | none => .error (.ok .noDecrease)
      | some (direction, step) => .ok
          { s with
            done := s.done + 1
            last := some (g, direction)
            position := s.position.along direction step }
    else
      match method.step c (s.done + 1) s.moments g s.position.values with
      | .error fault => .error (.error fault)
      | .ok (moments, values) => .ok
          { s with done := s.done + 1, moments, position := { s.position with values } }

def told (b : Bindings α) (done : Nat) (seen : List α) (q : Pursuit (Bindings α) DescentStop) :
    Except ArithmeticFault (Descent α) :=
  (q.stop.getD (.ok (.exhausted c.maxIterations))).map fun exit =>
    ⟨q.visited.getLastD b, done + q.visited.length, exit,
      seen.reverse ++ if c.verbose then q.visited.map p.height else []⟩

def pursued (left : Nat) (s : DescentState α) : Pursuit (Bindings α) DescentStop :=
  (pursue (p.next method c period) left s).map DescentState.position

/-- The positions of a whole descent. -/
def course (b : Bindings α) : Pursuit (Bindings α) DescentStop :=
  p.pursued method c (restartPeriod c b.values.length) c.maxIterations.toNat (.start b)

variable {p method c period} {s t : DescentState α}

theorem next_of_exit {exit : DescentExit} (h : exitAt c (norm (p.slope s.position)) = some exit) :
    p.next method c period s = .error (.ok exit) := by
  simp only [next, h]

theorem next_conjugate (h : exitAt c (norm (p.slope s.position)) = none) :
    p.next .conjugateGradient c period s =
      match (p.descend s.position (p.slope s.position)
          (if s.done % period == 0 then none else s.last)).result with
      | none => .error (.ok .noDecrease)
      | some (direction, step) => .ok
          { s with
            done := s.done + 1
            last := some (p.slope s.position, direction)
            position := s.position.along direction step } := by
  simp only [next, h, if_true]

theorem next_firstOrder (other : method ≠ .conjugateGradient)
    (h : exitAt c (norm (p.slope s.position)) = none) :
    p.next method c period s =
      match method.step c (s.done + 1) s.moments (p.slope s.position) s.position.values with
      | .error fault => .error (.error fault)
      | .ok (moments, values) => .ok
          { s with done := s.done + 1, moments, position := { s.position with values } } := by
  simp only [next, h, if_neg other]

theorem exitAt_of_next (h : p.next method c period s = .ok t) :
    exitAt c (norm (p.slope s.position)) = none := by
  cases size : exitAt c (norm (p.slope s.position)) with
  | none => rfl
  | some exit =>
    rw [next_of_exit size] at h
    cases h

theorem exitAt_of_next_error {exit : DescentExit}
    (h : p.next method c period s = .error (.ok exit)) :
    exitAt c (norm (p.slope s.position)) = some exit ∨ exit = .noDecrease := by
  cases size : exitAt c (norm (p.slope s.position)) with
  | some exit' =>
    rw [next_of_exit size] at h
    cases h
    exact .inl rfl
  | none =>
    by_cases conjugate : method = .conjugateGradient
    · subst conjugate
      rw [next_conjugate size] at h
      split at h <;> cases h
      exact .inr rfl
    · rw [next_firstOrder conjugate size] at h
      split at h <;> cases h

theorem next_ne_fault (plain : method = .gradientDescent ∨ method = .conjugateGradient)
    (fault : ArithmeticFault) : p.next method c period s ≠ .error (.error fault) := by
  intro h
  cases size : exitAt c (norm (p.slope s.position)) with
  | some exit =>
    rw [next_of_exit size] at h
    cases h
  | none =>
    rcases plain with rfl | rfl
    · have other : DescentMethod.gradientDescent ≠ .conjugateGradient := nofun
      rw [next_firstOrder other size] at h
      cases h
    · rw [next_conjugate size] at h
      split at h <;> cases h

theorem told_stopped {stop : DescentStop} (h : p.next method c period s = .error stop)
    (seen : List α) (n : Nat) :
    p.told c s.position s.done seen (p.pursued method c period (n + 1) s) =
      stop.map fun exit => ⟨s.position, s.done, exit, seen.reverse⟩ := by
  rw [pursued, pursue_stopped h]
  simp [told, Pursuit.map]

/-- What every step keeps holds from position to position. -/
theorem isChain_pursued {R : Bindings α → Bindings α → Prop}
    (step : ∀ s t, p.next method c period s = .ok t → R s.position t.position) (left : Nat)
    (s : DescentState α) : (s.position :: (p.pursued method c period left s).visited).IsChain R :=
  List.isChain_map_of_isChain DescentState.position step (isChain_pursue _ left s)

theorem names_of_next (h : p.next method c period s = .ok t) :
    t.position.names = s.position.names := by
  have size := exitAt_of_next h
  by_cases conjugate : method = .conjugateGradient
  · subst conjugate
    rw [next_conjugate size] at h
    split at h <;> cases h
    rfl
  · rw [next_firstOrder conjugate size] at h
    split at h <;> cases h
    rfl

theorem last_course (b : Bindings α) :
    let last := (p.course method c b).visited.getLastD b
    last = { b with values := last.values } := by
  have chain : (b :: (p.course method c b).visited).IsChain fun b b' => b'.names = b.names :=
    isChain_pursued (fun _ _ => names_of_next) _ (.start b)
  have kept := chain.induction (fun b' => b'.names = b.names) _
    (fun _ _ step own => step.trans own) fun _ => rfl
  exact congrArg (Bindings.mk _) (kept _ List.getLastD_mem_cons)

theorem length_course_le (b : Bindings α) :
    (p.course method c b).visited.length ≤ c.maxIterations.toNat := by
  rw [course, pursued, Pursuit.map, List.length_map]
  exact length_pursue_le _ _ _

theorem exists_next_of_stop {b : Bindings α} {stop : DescentStop}
    (h : (p.course method c b).stop = some stop) :
    ∃ s : DescentState α, s.position = (p.course method c b).visited.getLastD b ∧
      p.next method c (restartPeriod c b.values.length) s = .error stop := by
  refine ⟨_, ?_, next_of_stop h⟩
  rw [course, pursued, Pursuit.map]
  exact (List.getLastD_map ..).symm

theorem exists_exit (plain : method = .gradientDescent ∨ method = .conjugateGradient)
    (b : Bindings α) : ∃ exit,
      (p.course method c b).stop.getD (.ok (.exhausted c.maxIterations)) = .ok exit := by
  cases ended : (p.course method c b).stop with
  | none => exact ⟨_, rfl⟩
  | some stop =>
    cases stop with
    | ok exit => exact ⟨exit, rfl⟩
    | error fault =>
      obtain ⟨s, -, failed⟩ := exists_next_of_stop ended
      exact absurd failed (next_ne_fault plain fault)

theorem converged_iff {stop : Option DescentStop} {limit : Int} {exit : DescentExit}
    (ended : stop.getD (.ok (.exhausted limit)) = .ok exit) :
    exit = .converged ↔ stop = some (.ok .converged) := by
  cases stop with
  | none =>
    cases ended
    simp
  | some stop =>
    obtain rfl : stop = .ok exit := ended
    simp

def seenAt (p : DescentProblem α) (c : DescentConfig α) (seen : List α) (b : Bindings α) : List α :=
  if c.verbose then p.height b :: seen else seen

theorem told_moved (h : p.next method c period s = .ok t) (counted : t.done = s.done + 1)
    (seen : List α) (n : Nat) :
    p.told c s.position s.done seen (p.pursued method c period (n + 1) s) =
      p.told c t.position t.done (p.seenAt c seen t.position) (p.pursued method c period n t) := by
  have count (n : Nat) : s.done + (n + 1) = t.done + n := by omega
  rw [pursued, pursue_moved h]
  simp only [told, seenAt, pursued, Pursuit.map, List.map_cons, List.getLastD_cons,
    List.length_cons, count]
  cases c.verbose <;> simp

variable (drawless : p.Drawless)
include drawless

theorem Drawless.gives_noted (c : DescentConfig α) (b : Bindings α) (seen : List α) :
    (p.noted c b seen).Gives (· = p.seenAt c seen b) := by
  unfold noted seenAt
  split
  · refine Run.Gives.bind (drawless.steady_value b) fun x hx => .pure ?_
    rw [hx, height]
  · exact .pure rfl

theorem Drawless.gives_firstOrder (c : DescentConfig α) (period : Nat)
    (other : method ≠ .conjugateGradient) (left : Nat) :
    ∀ (s : DescentState α) (seen : List α),
      (p.firstOrder method c left s.done s.moments s.position seen).Gives
        (· = p.told c s.position s.done seen (p.pursued method c period left s)) := by
  induction left with
  | zero =>
    intro s seen
    refine .pure ?_
    simp [told, pursued, pursue, Pursuit.map, Except.map]
  | succ left ih =>
    intro s seen
    rw [firstOrder]
    refine Run.Gives.bind (drawless.steady_gradient s.position) fun g hg => .after fun _ => ?_
    obtain rfl : g = p.slope s.position := hg
    dsimp only
    cases size : exitAt c (norm (p.slope s.position)) with
    | some exit =>
      rw [told_stopped (next_of_exit size)]
      exact .pure rfl
    | none =>
      have step : p.next method c period s = _ := next_firstOrder other size
      dsimp only
      cases stepped : method.step c (s.done + 1) s.moments (p.slope s.position)
          s.position.values with
      | error fault =>
        rw [stepped] at step
        rw [told_stopped step]
        exact .pure rfl
      | ok w =>
        obtain ⟨moments, values⟩ := w
        rw [stepped] at step
        rw [told_moved step rfl]
        refine (drawless.gives_noted c _ seen).bind fun seen' hseen => ?_
        rw [hseen]
        exact ih ⟨s.done + 1, moments, s.last, ⟨values, s.position.names⟩⟩ _

theorem Drawless.gives_conjugateGradient (c : DescentConfig α) (period left : Nat) :
    ∀ (s : DescentState α) (seen : List α),
      (p.conjugateGradient c period left s.done s.last s.position seen).Gives fun d =>
        .ok d =
          p.told c s.position s.done seen (p.pursued .conjugateGradient c period left s) := by
  induction left with
  | zero =>
    intro s seen
    refine .pure ?_
    simp [told, pursued, pursue, Pursuit.map, Except.map]
  | succ left ih =>
    intro s seen
    rw [conjugateGradient]
    refine Run.Gives.bind (drawless.steady_gradient s.position) fun g hg => .after fun _ => ?_
    obtain rfl : g = p.slope s.position := hg
    dsimp only
    cases size : exitAt c (norm (p.slope s.position)) with
    | some exit =>
      rw [told_stopped (next_of_exit size)]
      exact .pure rfl
    | none =>
      have step : p.next .conjugateGradient c period s = _ := next_conjugate size
      refine Run.Gives.bind (drawless.steady_descend _ _ _) fun way hway => ?_
      rw [← hway] at step
      cases way with
      | none =>
        rw [told_stopped step]
        exact .pure rfl
      | some w =>
        rw [told_moved step rfl]
        refine (drawless.gives_noted c _ seen).bind fun seen' hseen => ?_
        rw [hseen]
        exact ih ⟨s.done + 1, s.moments, some (p.slope s.position, w.1),
          s.position.along w.1 w.2⟩ _

theorem Drawless.gives_descent (method : DescentMethod) (c : DescentConfig α) (b : Bindings α) :
    (p.descent method c b).Gives (· = p.told c b 0 [] (p.course method c b)) := by
  unfold descent
  dsimp only
  split
  · next conjugate =>
    obtain rfl := beq_iff_eq.1 conjugate
    exact (drawless.gives_conjugateGradient c _ _ (.start b) []).bind fun d hd => .pure hd
  · next other =>
    exact drawless.gives_firstOrder c _ (fun same => other (beq_iff_eq.2 same)) _ (.start b) []

end DescentProblem

/-- Of names that agree the last initial value counts. -/
def startPosition {α : Type} (names : List String) (initial : List α) : Bindings α :=
  Bindings.ofPairs (startValues names initial)

theorem startPosition_of_nodup {α : Type} {names : List String} {initial : List α}
    (paired : names.length = initial.length) (distinct : (names.map canonicalName).Nodup) :
    startPosition names initial =
      ⟨initial, some (Bindings.places (names.map canonicalName))⟩ := by
  have keys := keys_zip paired
  have canonical : ∀ x ∈ names.map canonicalName, canonicalName x = x := by
    intro x mem
    obtain ⟨y, -, rfl⟩ := List.mem_map.1 mem
    exact canonicalName_canonicalName y
  rw [startPosition, startValues_of_nodup paired distinct,
    Bindings.ofPairs_eq (keys.symm ▸ distinct) (keys.symm ▸ canonical), keys,
    List.map_snd_zip (by simp [paired])]

theorem startPosition_moved {α : Type} {names : List String} {initial values : List α}
    (paired : names.length = initial.length)
    (moved : values.length = (startValues names initial).length)
    (distinct : (names.map canonicalName).Nodup) :
    startPosition names values = { startPosition names initial with values } := by
  have length : names.length = values.length := by
    rw [moved, (length_startValues paired).2 distinct]
  rw [startPosition_of_nodup length distinct, startPosition_of_nodup paired distinct]

section Minimize

variable {α : Type} [Scalar α] [NumberText α]

theorem Source.steady_parse (source : String) (bindings : Option (Bindings α))
    (config : TimedConfig) : (parse source bindings config).Steady := by
  unfold parse
  cases refusal? (some source) config with
  | some e =>
    have refused : (Run.reportError e source >>= fun _ =>
        pure (.error (.parse (.ofInfo e)) : Except ReadFailure (Expr α))).Gives
        (· = .error (.parse (.ofInfo e))) := .after fun _ => .pure rfl
    exact refused.steady
  | none =>
    have read := readTree_value source bindings config false
    refine Steady.bind (Run.Gives.steady read) fun r => ?_
    rcases r.tree with (_ | _ | _) | e <;> rcases r.errors with _ | ⟨first, others⟩ <;>
      exact .pure _

theorem Objective.steady_read (objective : Objective α) : objective.read.Steady := by
  cases objective with
  | tree e => exact .pure _
  | source s => exact (Source.steady_parse s none {}).bind fun read => .pure _

namespace DescentProblem

variable (p : DescentProblem α)

def solved (d : Descent α) : DescentResult α :=
  ⟨d.position.values, p.height d.position, d.iterations, d.exit, d.history, p.gradient.names⟩

/-- The result of a descent from `b` along these positions. -/
structure Reaches (p : DescentProblem α) (verbose : Bool) (b : Bindings α)
    (q : Pursuit (Bindings α) DescentStop) (r : DescentResult α) : Prop where
  solution : q.visited.getLastD b = { b with values := r.solution }
  finalValue : r.finalValue = p.height (q.visited.getLastD b)
  iterations : r.iterations = q.visited.length
  converged : r.converged = true ↔ q.stop = some (.ok .converged)
  history : r.history = if verbose then q.visited.map p.height else []

end DescentProblem

def minimized (e : Expr α) (names : List String) (initial : List α) (method : DescentMethod)
    (c : DescentConfig α) : Except MinimizeError (DescentResult α) :=
  let p := DescentProblem.ofNames e names
  let b := startPosition names initial
  if names.length ≠ initial.length then .error (.lengthMismatch names.length initial.length)
  else if names = [] then .error .noVariables
  else ((p.told c b 0 [] (p.course method c b)).map p.solved).mapError .fault

theorem gives_minimized {e : Expr α} (drawless : e.EveryNode Expr.DrawsNothing)
    (names : List String) (initial : List α) (method : DescentMethod) (c : DescentConfig α) :
    (minimizeTree e names initial method c).Gives (· = minimized e names initial method c) := by
  have still := DescentProblem.drawless_ofNames drawless names
  have start : Bindings.ofPairs (lastValues ((Gradient.ofExpr e names).value.names.zip initial)) =
      startPosition names initial := by
    rw [Gradient.ofExpr_value, startPosition, startValues]
  unfold minimizeTree minimized
  dsimp only
  rw [start]
  by_cases paired : names.length = initial.length
  · rw [if_neg (by simpa using paired), if_neg (not_not.2 paired)]
    by_cases none : names = []
    · rw [if_pos (by simpa using none), if_pos none]
      exact .pure rfl
    · rw [if_neg (by simpa using none), if_neg none]
      refine (still.gives_descent method c (startPosition names initial)).bind fun d hd => ?_
      rw [← hd]
      cases d with
      | error fault => exact .pure rfl
      | ok d =>
        refine Run.Gives.bind (still.steady_value d.position) fun value hvalue => ?_
        obtain rfl : value = (DescentProblem.ofNames e names).height d.position := hvalue
        split
        · exact .pure rfl
        · exact .after fun _ => .pure rfl
  · rw [if_pos (by simpa using paired), if_pos paired]
    exact .pure rfl

theorem gives_minimize {objective : Objective α} {e : Expr α} {s : Engine}
    (reads : (objective.read s).1 = .ok e) (drawless : e.EveryNode Expr.DrawsNothing)
    {method : String} {m : DescentMethod} (known : DescentMethod.ofName? method = some m)
    (names : List String) (initial : List α) (configure : DescentMethod → DescentConfig α) :
    (minimize objective names initial method configure).Gives
      (· = minimized e names initial m (configure m)) := by
  have result : .ok e = objective.read.result := reads.symm.trans (objective.steady_read s)
  unfold minimize
  rw [known]
  refine Run.Gives.bind objective.steady_read fun read hread => ?_
  rw [hread, ← result]
  exact gives_minimized drawless names initial m (configure m)

theorem minimized_eq_ok_iff {e : Expr α} {names : List String} {initial : List α}
    {method : DescentMethod} {c : DescentConfig α} {r : DescentResult α} :
    let p := DescentProblem.ofNames e names
    let q := p.course method c (startPosition names initial)
    let b := q.visited.getLastD (startPosition names initial)
    minimized e names initial method c = .ok r ↔
      names.length = initial.length ∧ names ≠ [] ∧ ∃ exit,
        q.stop.getD (.ok (.exhausted c.maxIterations)) = .ok exit ∧
        r = ⟨b.values, p.height b, q.visited.length, exit,
          if c.verbose then q.visited.map p.height else [], names.map canonicalName⟩ := by
  intro p q b
  have listed : p.gradient.names = names.map canonicalName := by
    rw [show p.gradient = _ from Gradient.ofExpr_value e names]
  unfold minimized
  dsimp only
  by_cases paired : names.length = initial.length
  · by_cases none : names = []
    · rw [if_neg (not_not.2 paired), if_pos none]
      simp [none]
    · rw [if_neg (not_not.2 paired), if_neg none]
      change ((p.told c (startPosition names initial) 0 [] q).map p.solved).mapError
        MinimizeError.fault = .ok r ↔ _
      rw [DescentProblem.told, Nat.zero_add, List.reverse_nil, List.nil_append, ← listed]
      cases q.stop.getD (.ok (.exhausted c.maxIterations)) with
      | error fault => simp [Except.map, Except.mapError]
      | ok exit =>
        constructor
        · rintro ⟨⟩
          exact ⟨paired, none, exit, rfl, rfl⟩
        · rintro ⟨-, -, exit', same, rfl⟩
          cases same
          rfl
  · simp [paired]

section Results

variable {e : Expr α} {names : List String} {initial : List α} {method : DescentMethod}
  {c : DescentConfig α}

theorem reaches_of_minimized {r : DescentResult α}
    (h : minimized e names initial method c = .ok r) :
    let p := DescentProblem.ofNames e names
    let b := startPosition names initial
    p.Reaches c.verbose b (p.course method c b) r := by
  obtain ⟨-, -, exit, ended, rfl⟩ := minimized_eq_ok_iff.1 h
  exact ⟨DescentProblem.last_course _, rfl, rfl,
    beq_iff_eq.trans (DescentProblem.converged_iff ended), rfl⟩

theorem exists_minimized (paired : names.length = initial.length) (named : names ≠ [])
    (plain : method = .gradientDescent ∨ method = .conjugateGradient) :
    ∃ r, minimized e names initial method c = .ok r := by
  obtain ⟨exit, ended⟩ := DescentProblem.exists_exit (p := .ofNames e names) (c := c) plain
    (startPosition names initial)
  exact ⟨_, minimized_eq_ok_iff.2 ⟨paired, named, exit, ended, rfl⟩⟩

end Results

end Minimize

end DerivativeEngine
