import DerivativeEngine.Proofs.Optimize.Iteration
import DerivativeEngine.Scalar.Double

/-! Descents that are taken up again. Plain gradient descent remembers nothing, and neither does
conjugate gradient where the last direction is dropped at every step: a step depends on the position
alone. So a descent can stop at any number of iterations and go on from its solution, and comes to
what it would have come to at once. The names must not agree with each other; then the solution is a
row of values to start from. -/

namespace DerivativeEngine

def limited {α : Type} (configure : DescentMethod → DescentConfig α) (n : Nat)
    (method : DescentMethod) : DescentConfig α :=
  { configure method with maxIterations := n }

variable {α : Type} [Scalar α] [NumberText α]

namespace DescentProblem

def nextPosition (p : DescentProblem α) (method : DescentMethod) (c : DescentConfig α)
    (b : Bindings α) : Except DescentStop (Bindings α) :=
  (p.next method c 1 (.start b)).map DescentState.position

def Memoryless (method : DescentMethod) (period : Nat) : Prop :=
  method = .gradientDescent ∨ method = .conjugateGradient ∧ period = 1

variable {p : DescentProblem α} {method : DescentMethod} {c : DescentConfig α} {period : Nat}

theorem Memoryless.plain (memoryless : Memoryless method period) :
    method = .gradientDescent ∨ method = .conjugateGradient := memoryless.imp id And.left

theorem Memoryless.map_next (memoryless : Memoryless method period) (s : DescentState α) :
    p.nextPosition method c s.position = (p.next method c period s).map DescentState.position := by
  unfold nextPosition
  have here : (DescentState.start s.position).position = s.position := rfl
  cases size : exitAt c (norm (p.slope s.position)) with
  | some exit =>
    rw [next_of_exit size, next_of_exit (here ▸ size)]
  | none =>
    rcases memoryless with rfl | ⟨rfl, rfl⟩
    · have other : DescentMethod.gradientDescent ≠ .conjugateGradient := nofun
      rw [next_firstOrder other size, next_firstOrder other (here ▸ size)]
      rfl
    · -- Every number of iterations is a multiple of one.
      have dropped (s : DescentState α) : (if s.done % 1 == 0 then none else s.last) = none :=
        if_pos (by rw [Nat.mod_one]; rfl)
      rw [next_conjugate size, next_conjugate (here ▸ size), dropped, dropped, here]
      cases (p.descend s.position (p.slope s.position) none).result <;> rfl

theorem Memoryless.course_eq (n : Nat) (b : Bindings α)
    (memoryless : Memoryless method (restartPeriod c b.values.length)) :
    p.course method { c with maxIterations := n } b = pursue (p.nextPosition method c) n b :=
  (pursue_map DescentState.position memoryless.map_next n (.start b)).symm

theorem Reaches.append {verbose : Bool} {b : Bindings α}
    {before after : Pursuit (Bindings α) DescentStop} {r₁ r₂ r : DescentResult α}
    (first : p.Reaches verbose b before r₁)
    (second : p.Reaches verbose (before.visited.getLastD b) after r₂)
    (whole : p.Reaches verbose b ⟨before.visited ++ after.visited, after.stop⟩ r) :
    r.solution = r₂.solution ∧ r.finalValue = r₂.finalValue ∧ r.converged = r₂.converged ∧
      r.iterations = r₁.iterations + r₂.iterations ∧ r.history = r₁.history ++ r₂.history := by
  have last := getLastD_append before.visited after.visited b
  refine ⟨?_, ?_, ?_, ?_, ?_⟩
  · have here := whole.solution.symm.trans (last.trans second.solution)
    exact congrArg Bindings.values here
  · rw [whole.finalValue, second.finalValue, last]
  · exact Bool.eq_iff_iff.2 (whole.converged.trans second.converged.symm)
  · rw [whole.iterations, first.iterations, second.iterations, List.length_append]
  · rw [whole.history, first.history, second.history]
    split
    · exact List.map_append
    · rfl

end DescentProblem

section Runs

open DescentProblem (Memoryless restartPeriod)

variable {objective : Objective α} {e : Expr α} {names : List String} {initial : List α}
  {method : String} {m : DescentMethod} {configure : DescentMethod → DescentConfig α}

theorem exists_reaches {s₀ : Engine} (reads : (objective.read s₀).1 = .ok e)
    (drawless : e.EveryNode Expr.DrawsNothing) (known : DescentMethod.ofName? method = some m)
    (paired : names.length = initial.length) (named : names ≠ [])
    (memoryless : ∀ n, Memoryless m (restartPeriod (configure m) n)) (n : Nat) (s : Engine) :
    let p := DescentProblem.ofNames e names
    let b := startPosition names initial
    ∃ r, (minimize objective names initial method (limited configure n) s).1 = .ok r ∧
      p.Reaches (configure m).verbose b (pursue (p.nextPosition m (configure m)) n b) r := by
  intro p b
  obtain ⟨r, result⟩ := exists_minimized (e := e) (c := limited configure n m) paired named
    (memoryless 0).plain
  have given := gives_minimize reads drawless known names initial (limited configure n) s
  have way : p.course m (limited configure n m) b = pursue (p.nextPosition m (configure m)) n b :=
    (memoryless _).course_eq n b
  have reached : p.Reaches (configure m).verbose b (p.course m (limited configure n m) b) r :=
    reaches_of_minimized result
  rw [way] at reached
  exact ⟨r, given.trans result, reached⟩

/-- A descent of so many iterations, and from its solution a descent of at least one more, come to
the same solution as a single descent of all these iterations, with the same value and the same
success. The numbers of iterations add up, and so do the histories. -/
theorem minimize_resumed {s₀ : Engine} (reads : (objective.read s₀).1 = .ok e)
    (drawless : e.EveryNode Expr.DrawsNothing) (known : DescentMethod.ofName? method = some m)
    (memoryless : m = .gradientDescent ∨ m = .conjugateGradient ∧ (configure m).restart = 1)
    (paired : names.length = initial.length) (named : names ≠ [])
    (distinct : (names.map canonicalName).Nodup) (k : Nat) {j : Nat} (further : 1 ≤ j)
    (s₁ s₂ s : Engine) :
    let descend (n : Nat) (initial : List α) (s : Engine) :=
      (minimize objective names initial method (limited configure n) s).1
    ∃ r₁ r₂ r : DescentResult α,
      descend k initial s₁ = .ok r₁ ∧ descend j r₁.solution s₂ = .ok r₂ ∧
      descend (k + j) initial s = .ok r ∧
      r.solution = r₂.solution ∧ r.finalValue = r₂.finalValue ∧ r.converged = r₂.converged ∧
      r.iterations = r₁.iterations + r₂.iterations ∧ r.history = r₁.history ++ r₂.history := by
  intro descend
  have memoryless (n : Nat) : Memoryless m (restartPeriod (configure m) n) := by
    refine memoryless.imp id fun ⟨conjugate, every⟩ => ⟨conjugate, ?_⟩
    rw [restartPeriod, every]
    rfl
  let p := DescentProblem.ofNames e names
  let next := p.nextPosition m (configure m)
  let b := startPosition names initial
  let before := pursue next k b
  obtain ⟨r₁, first, reached⟩ :=
    exists_reaches reads drawless known paired named memoryless k s₁
  -- The second descent starts where the first one ended.
  obtain ⟨_, _, _, _, descended⟩ := descended_of_minimize first
  have length : r₁.solution.length = (startValues names initial).length :=
    descended.length_solution
  have between : startPosition names r₁.solution = before.visited.getLastD b :=
    (startPosition_moved paired length distinct).trans reached.solution.symm
  have paired₁ : names.length = r₁.solution.length := by
    rw [length, (length_startValues paired).2 distinct]
  obtain ⟨r₂, second, reached₂⟩ :=
    exists_reaches reads drawless known paired₁ named memoryless j s₂
  obtain ⟨r, whole, reached'⟩ :=
    exists_reaches reads drawless known paired named memoryless (k + j) s
  rw [between] at reached₂
  rw [pursue_add next k further b] at reached'
  obtain ⟨solution, value, iterations, converged, history⟩ :=
    reached.append reached₂ reached'
  exact ⟨r₁, r₂, r, first, second, whole, solution, value, iterations, converged, history⟩

end Runs

def steepest (_ : DescentMethod) : DescentConfig Float :=
  { DescentConfig.standard with restart := 1 }

theorem minimize_resumed_bottom :
    let e : Expr Float := .bin .add (.bin .mul (.var "X") (.var "X"))
      (.bin .mul (.bin .mul (.num 2) (.var "Y")) (.var "Y"))
    let descend (n : Nat) (initial : List Float) :=
      (minimize (.tree e) ["x", "y"] initial "conjugate_gradient" (limited steepest n)
        Engine.start).1
    ((Objective.tree e).read Engine.start).1 = .ok e ∧ e.EveryNode Expr.DrawsNothing ∧
      (steepest .conjugateGradient).restart = 1 ∧ (["x", "y"].map canonicalName).Nodup ∧
      ∃ r₁ r₂ r : DescentResult Float,
        descend 1 [1, 1] = .ok r₁ ∧ descend 2 r₁.solution = .ok r₂ ∧ descend 3 [1, 1] = .ok r ∧
        (r.iterations, r.converged, r.solution.map Float.toBits) =
          (2, true, [0.0, 0.0].map Float.toBits) ∧
        r.solution = r₂.solution ∧ r.finalValue = r₂.finalValue ∧ r.converged = r₂.converged ∧
        r.iterations = r₁.iterations + r₂.iterations := by
  intro e descend
  have reads : ((Objective.tree e).read Engine.start).1 = .ok e := rfl
  have drawless : e.EveryNode Expr.DrawsNothing := by
    simp [e, Expr.EveryNode, Expr.DrawsNothing]
  have known : DescentMethod.ofName? "conjugate_gradient" = some .conjugateGradient := by
    decide +kernel
  have every : (steepest .conjugateGradient).restart = 1 := rfl
  have paired : ["x", "y"].length = [(1 : Float), 1].length := rfl
  have distinct : (["x", "y"].map canonicalName).Nodup := by decide +kernel
  have further : 1 ≤ 2 := Nat.le_succ 1
  have run : (descend 3 [1, 1]).map
      (fun r => (r.iterations, r.converged, r.solution.map Float.toBits)) =
      .ok (2, true, [0.0, 0.0].map Float.toBits) := by decide +kernel
  obtain ⟨r, ends, values⟩ := ok_of_map run
  obtain ⟨r₁, r₂, r', first, second, whole, solution, value, converged, iterations, -⟩ :=
    minimize_resumed reads drawless known (.inr ⟨rfl, every⟩) paired (List.cons_ne_nil _ _)
      distinct 1 further Engine.start Engine.start Engine.start
  obtain rfl : r = r' := Except.ok.inj (ends.symm.trans whole)
  exact ⟨reads, drawless, every, distinct, r₁, r₂, r, first, second, ends, values, solution, value,
    converged, iterations⟩

end DerivativeEngine
