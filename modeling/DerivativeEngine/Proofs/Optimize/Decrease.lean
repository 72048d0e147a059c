import DerivativeEngine.Proofs.Optimize.Iteration
import DerivativeEngine.Scalar.Double

/-! Conjugate gradient never goes uphill. Whatever the arithmetic is, each of its steps is the first
of the trial steps along some direction that lowers the objective, and the position it leads to is
the very point that was tried; trials that fail leave the position where it was. So the values on
the way decrease from the start to the solution. The start has the initial values exactly if no two
names agree; otherwise the entries that are left stand under other names in the result. -/

namespace DerivativeEngine

open DescentProblem (trialSteps)

variable {α : Type} [Scalar α] [NumberText α]

/-- From `b` to the first of the points tried along a direction where `f` is lower. -/
def StepsLower (f : Bindings α → α) (b b' : Bindings α) : Prop :=
  ∃ (d : List α) (step : α),
    (trialSteps.find? fun step => f (b.along d step) < f b) = some step ∧ b' = b.along d step

omit [NumberText α] in
theorem StepsLower.lt {f : Bindings α → α} {b b' : Bindings α} (h : StepsLower f b b') :
    f b > f b' := by
  obtain ⟨d, step, found, rfl⟩ := h
  have lower := List.find?_some found
  exact of_decide_eq_true lower

theorem DescentProblem.Drawless.stepsLower {p : DescentProblem α} (drawless : p.Drawless)
    {c : DescentConfig α} {period : Nat} {s t : DescentState α}
    (h : p.next .conjugateGradient c period s = .ok t) :
    StepsLower p.height s.position t.position := by
  rw [next_conjugate (exitAt_of_next h)] at h
  split at h
  · cases h
  · next direction step found =>
    cases h
    have searched := drawless.searched_of_descend found
    rw [searched?] at searched
    exact ⟨direction, step, searched, rfl⟩

theorem height_ofNames {e : Expr α} (drawless : e.EveryNode Expr.DrawsNothing)
    (names : List String) (σ : RandomStream) :
    (DescentProblem.ofNames e names).height = fun b => (e.evaluate (some b) σ).1 := by
  funext b
  calc (DescentProblem.ofNames e names).height b
      = (e.evaluate (some b) Engine.start.stream).1 := rfl
    _ = (e.evaluate (some b) σ).1 := by
      rw [e.evaluate_eq_value _ drawless, e.evaluate_eq_value _ drawless]

/-- Conjugate gradient gives a result. It goes from the start to the solution by steps to lower
points, one for each iteration and no more of them than are allowed; the history is the values
there. -/
theorem minimize_decreases {objective : Objective α} {e : Expr α} {s : Engine}
    (reads : (objective.read s).1 = .ok e) (drawless : e.EveryNode Expr.DrawsNothing)
    {names : List String} {initial : List α} (paired : names.length = initial.length)
    (named : names ≠ []) {configure : DescentMethod → DescentConfig α}
    (verbose : (configure .conjugateGradient).verbose = true) (σ : RandomStream) :
    let f (b : Bindings α) := (e.evaluate (some b) σ).1
    let start := startPosition names initial
    ∃ (r : DescentResult α) (positions : List (Bindings α)),
      (minimize objective names initial "conjugate_gradient" configure s).1 = .ok r ∧
      positions.length = r.iterations ∧
      r.iterations ≤ (configure .conjugateGradient).maxIterations.toNat ∧
      (start :: positions).IsChain (StepsLower f) ∧
      (positions.getLastD start).values = r.solution ∧
      r.history = positions.map f ∧
      (f start :: r.history).IsChain (· > ·) ∧
      r.history.getLastD (f start) = r.finalValue ∧
      (r.iterations = 0 → r.solution = start.values) ∧
      (start.values = initial ↔ (names.map canonicalName).Nodup) := by
  intro f start
  have known : DescentMethod.ofName? "conjugate_gradient" = some .conjugateGradient := by
    decide +kernel
  let p := DescentProblem.ofNames e names
  let c := configure .conjugateGradient
  let positions := (p.course .conjugateGradient c start).visited
  have still : p.Drawless := DescentProblem.drawless_ofNames drawless names
  have value : p.height = f := height_ofNames drawless names σ
  obtain ⟨r, result⟩ := exists_minimized (e := e) (c := c) paired named (.inr rfl)
  have given := (gives_minimize reads drawless known names initial configure s).trans result
  obtain ⟨last, final, iterations, -, history⟩ := reaches_of_minimized result
  rw [if_pos verbose, value] at history
  rw [value] at final
  have solution : (positions.getLastD start).values = r.solution := congrArg Bindings.values last
  have chain : (start :: positions).IsChain (StepsLower f) :=
    value ▸ DescentProblem.isChain_pursued (fun _ _ => still.stepsLower) _ (.start start)
  refine ⟨r, positions, given, iterations.symm, ?_, chain, solution, history, ?_, ?_, ?_, ?_⟩
  · rw [iterations]
    exact DescentProblem.length_course_le start
  · rw [history, ← List.map_cons]
    exact List.isChain_map_of_isChain f (fun _ _ => StepsLower.lt) chain
  · rw [history, final]
    exact List.getLastD_map ..
  · intro none
    have empty : positions = [] := List.length_eq_zero_iff.1 (iterations.symm.trans none)
    rw [← solution, empty]
    rfl
  · rw [← values_start_eq paired, ← values_start paired]
    rfl

def verbosely (_ : DescentMethod) : DescentConfig Float :=
  { DescentConfig.standard with verbose := true }

def bowl : Expr Float :=
  .bin .add (.bin .mul (.var "X") (.var "X")) (.bin .mul (.bin .mul (.num 2) (.var "Y")) (.var "Y"))

theorem minimize_decreases_bowl :
    let f (b : Bindings Float) := (bowl.evaluate (some b) (.ofSeed 0)).1
    let start := startPosition ["x", "y"] [(1 : Float), 1]
    ((Objective.tree bowl).read Engine.start).1 = .ok bowl ∧
      bowl.EveryNode Expr.DrawsNothing ∧ ["x", "y"].length = [(1 : Float), 1].length ∧
      (verbosely .conjugateGradient).verbose = true ∧
      ∃ (r : DescentResult Float) (positions : List (Bindings Float)),
        (minimize (.tree bowl) ["x", "y"] [1, 1] "conjugate_gradient" verbosely Engine.start).1 =
          .ok r ∧
        (r.iterations, r.history.map Float.toBits) = (2, [2.0, 0.0].map Float.toBits) ∧
        positions.length = 2 ∧ (start :: positions).IsChain (StepsLower f) ∧
        (positions.getLastD start).values = r.solution ∧
        (f start :: r.history).IsChain (· > ·) ∧ r.history.getLastD (f start) = r.finalValue := by
  intro f start
  have reads : ((Objective.tree bowl).read Engine.start).1 = .ok bowl := rfl
  have drawless : bowl.EveryNode Expr.DrawsNothing := by
    simp [bowl, Expr.EveryNode, Expr.DrawsNothing]
  have paired : ["x", "y"].length = [(1 : Float), 1].length := rfl
  have verbose : (verbosely .conjugateGradient).verbose = true := rfl
  have run : (minimize (.tree bowl) ["x", "y"] [1, 1] "conjugate_gradient" verbosely
      Engine.start).1.map (fun r => (r.iterations, r.history.map Float.toBits)) =
      .ok (2, [2.0, 0.0].map Float.toBits) := by decide +kernel
  obtain ⟨r, ends, values⟩ := ok_of_map run
  obtain ⟨r', positions, given, count, -, chain, last, -, decreasing, final, -, -⟩ :=
    minimize_decreases reads drawless paired (List.cons_ne_nil _ _) verbose (.ofSeed 0)
  obtain rfl : r = r' := Except.ok.inj (ends.symm.trans given)
  have two : r.iterations = 2 := congrArg Prod.fst values
  exact ⟨reads, drawless, paired, verbose, r, positions, ends, values, count.trans two, chain, last,
    decreasing, final⟩

def parabola : Expr Float :=
  .bin .mul (.bin .sub (.var "X") (.num 2)) (.bin .sub (.var "X") (.num 2))

/-- At the minimum no step is taken; but with a name given twice there are two entries for three
names, and by these `X` is not two but five. -/
theorem minimize_repeated_minimum :
    ∃ r : DescentResult Float,
      (minimize (.tree parabola) ["X", "x", "Y"] [2, 2, 5] "conjugate_gradient" verbosely
        Engine.start).1 = .ok r ∧
      r.iterations = 0 ∧ r.solution.map Float.toBits = [2.0, 5.0].map Float.toBits ∧
      r.byName.map (fun p => (p.1, p.2.toBits)) = [("X", (5.0 : Float).toBits)] ∧
      ¬ r.solution = [2, 2, 5] := by
  have run : (minimize (.tree parabola) ["X", "x", "Y"] [2, 2, 5] "conjugate_gradient" verbosely
      Engine.start).1.map (fun r => (r.iterations, r.solution.map Float.toBits,
        r.byName.map fun p => (p.1, p.2.toBits))) =
      .ok (0, [2.0, 5.0].map Float.toBits, [("X", (5.0 : Float).toBits)]) := by decide +kernel
  obtain ⟨r, ends, values⟩ := ok_of_map run
  obtain ⟨iterations, values⟩ := Prod.mk.inj values
  obtain ⟨solution, named⟩ := Prod.mk.inj values
  refine ⟨r, ends, iterations, solution, named, fun unchanged => ?_⟩
  rw [unchanged] at solution
  exact absurd (congrArg List.length solution) (by decide)

end DerivativeEngine
