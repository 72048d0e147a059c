import DerivativeEngine.Proofs.Optimize.Iteration
import DerivativeEngine.Scalar.Double

/-! What the exit of a descent certifies. A descent is over as soon as its position passes the test
of the gradient; so one that converged has a small gradient at its solution, and one that did not
says why. Steps are taken only from positions whose gradient is not small. This is so for every
method and for every order of the scalars, one with numbers in no order among them. The solution is
read by the names of the start, which are the names of the result exactly if no two of these
agree. -/

namespace DerivativeEngine

theorem DescentExit.message_eq_empty_iff (exit : DescentExit) :
    exit.message = "" ↔ exit = .converged := by
  cases exit with
  | converged => exact iff_of_true rfl rfl
  | notFinite | noDecrease => decide
  | exhausted limit =>
    have said : (DescentExit.exhausted limit).message =
        "Max iterations (" ++ toString limit ++ ") reached" := rfl
    refine iff_of_false (fun silent => ?_) nofun
    rw [said, String.append_eq_empty_iff] at silent
    exact absurd silent.2 (by decide)

section Exits

variable {α : Type} [Scalar α] {c : DescentConfig α} {size : α}

open DescentProblem (exitAt)

theorem exitAt_eq_converged_iff : exitAt c size = some .converged ↔ size < c.tolerance := by
  unfold exitAt
  split <;> simp_all

theorem not_lt_of_exitAt (h : exitAt c size = none) : ¬ size < c.tolerance := by
  rw [← exitAt_eq_converged_iff, h]
  nofun

end Exits

theorem ofNames_moved_iff {α : Type} {names : List String} {initial values : List α}
    (paired : names.length = initial.length)
    (moved : values.length = (startValues names initial).length) :
    Bindings.ofNames (names.map canonicalName) values =
        .ok { startPosition names initial with values } ↔ (names.map canonicalName).Nodup := by
  have given : (names.map canonicalName).length = names.length := List.length_map _
  constructor
  · intro read
    rw [← length_startValues paired, ← moved, ← given]
    unfold Bindings.ofNames at read
    split at read
    · next same => exact (beq_iff_eq.1 same).symm
    · cases read
  · intro distinct
    have length : names.length = values.length := by
      rw [moved, (length_startValues paired).2 distinct]
    have read : Bindings.ofNames (names.map canonicalName) values =
        .ok (startPosition names values) := by
      rw [Bindings.ofNames, if_pos (by simpa using length)]
      rfl
    rw [read, startPosition_moved paired moved distinct]

variable {α : Type} [Scalar α] [NumberText α]

namespace DescentProblem

variable {p : DescentProblem α} {method : DescentMethod} {c : DescentConfig α}

theorem not_small_of_mem {b b' : Bindings α}
    (mem : b' ∈ (b :: (p.course method c b).visited).dropLast) :
    ¬ norm (p.slope b') < c.tolerance := by
  have chain : (b :: (p.course method c b).visited).IsChain fun b _ =>
      ¬ norm (p.slope b) < c.tolerance ∧ True :=
    isChain_pursued (fun _ _ h => ⟨not_lt_of_exitAt (exitAt_of_next h), trivial⟩) _ (.start b)
  exact (List.forall₂_and_left _ _).1 (List.isChain_iff_forall₂.1 chain) |>.1 b' mem

theorem small_of_converged {b : Bindings α}
    (ended : (p.course method c b).stop = some (.ok .converged)) :
    norm (p.slope ((p.course method c b).visited.getLastD b)) < c.tolerance := by
  obtain ⟨s, here, failed⟩ := exists_next_of_stop ended
  rcases exitAt_of_next_error failed with size | none
  · rw [← here]
    exact exitAt_eq_converged_iff.1 size
  · cases none

end DescentProblem

/-- A descent that ends took one step from each of its positions but the last, and from none with a
small gradient. It reports that it converged only with a small gradient at the solution, and then
with no message; otherwise there is a message. The final value is that of the objective at the
solution. -/
theorem minimize_certified {objective : Objective α} {e : Expr α} {s : Engine}
    (reads : (objective.read s).1 = .ok e) (drawless : e.EveryNode Expr.DrawsNothing)
    {names : List String} {initial : List α} {method : String}
    {configure : DescentMethod → DescentConfig α} {r : DescentResult α}
    (ends : (minimize objective names initial method configure s).1 = .ok r) (s' : Engine) :
    let g := (Gradient.ofExpr e names).value
    let size (b : Bindings α) := norm (g.run b s').1
    let start := startPosition names initial
    let solution := { start with values := r.solution }
    ∃ (m : DescentMethod) (positions : List (Bindings α)),
      DescentMethod.ofName? method = some m ∧
      positions = ((DescentProblem.ofNames e names).course m (configure m) start).visited ∧
      positions.length = r.iterations ∧ positions.getLastD start = solution ∧
      (∀ b ∈ (start :: positions).dropLast, ¬ size b < (configure m).tolerance) ∧
      (r.converged = true → size solution < (configure m).tolerance ∧ r.exit.message = "") ∧
      (r.converged = false → r.exit.message ≠ "") ∧
      (e.run (some solution) s').1 = r.finalValue ∧
      (Bindings.ofNames r.names r.solution = .ok solution ↔ (names.map canonicalName).Nodup) := by
  intro g size start solution
  obtain ⟨m, e', known, read, descended⟩ := descended_of_minimize ends
  obtain rfl : e = e' := Except.ok.inj (reads.symm.trans read)
  let p := DescentProblem.ofNames e names
  have still : p.Drawless := DescentProblem.drawless_ofNames drawless names
  have result := (gives_minimize reads drawless known names initial configure s).symm.trans ends
  have reached : p.Reaches (configure m).verbose start (p.course m (configure m) start) r :=
    reaches_of_minimized result
  have last : (p.course m (configure m) start).visited.getLastD start = solution := reached.solution
  have sized (b : Bindings α) : size b = norm (p.slope b) :=
    congrArg norm (still.steady_gradient b s')
  have valued (b : Bindings α) : (e.run (some b) s').1 = p.height b := still.steady_value b s'
  refine ⟨m, _, known, rfl, reached.iterations.symm, last, ?_, ?_, ?_, ?_, ?_⟩
  · intro b mem
    rw [sized]
    exact DescentProblem.not_small_of_mem mem
  · intro success
    refine ⟨?_, (DescentExit.message_eq_empty_iff _).2 (beq_iff_eq.1 success)⟩
    rw [sized, ← last]
    exact DescentProblem.small_of_converged (reached.converged.1 success)
  · intro failed silent
    have success : r.converged = true :=
      beq_iff_eq.2 ((DescentExit.message_eq_empty_iff _).1 silent)
    exact Bool.false_ne_true (failed.symm.trans success)
  · rw [valued, ← last, reached.finalValue]
  · rw [descended.canonical]
    exact ofNames_moved_iff descended.paired descended.length_solution

def halving (_ : DescentMethod) : DescentConfig Float :=
  { DescentConfig.standard with learningRate := 0.5 }

theorem minimize_certified_bottom :
    let e : Expr Float := .bin .mul (.var "X") (.var "X")
    let size (b : Bindings Float) := norm ((Gradient.ofExpr e ["x"]).value.run b Engine.start).1
    ((Objective.tree e).read Engine.start).1 = .ok e ∧ e.EveryNode Expr.DrawsNothing ∧
      ∃ (r : DescentResult Float) (solution : Bindings Float),
        (minimize (.tree e) ["x"] [1] "momentum" halving Engine.start).1 = .ok r ∧
        (r.iterations, r.converged, r.solution.map Float.toBits) =
          (1, true, [0.0].map Float.toBits) ∧
        Bindings.ofNames r.names r.solution = .ok solution ∧
        size solution < (halving .momentum).tolerance ∧ r.exit.message = "" ∧
        (e.run (some solution) Engine.start).1 = r.finalValue ∧
        ¬ size (startPosition ["x"] [1]) < (halving .momentum).tolerance := by
  intro e size
  have reads : ((Objective.tree e).read Engine.start).1 = .ok e := rfl
  have drawless : e.EveryNode Expr.DrawsNothing := by
    simp [e, Expr.EveryNode, Expr.DrawsNothing]
  have run : (minimize (.tree e) ["x"] [1] "momentum" halving Engine.start).1.map
      (fun r => (r.iterations, r.converged, r.solution.map Float.toBits)) =
      .ok (1, true, [0.0].map Float.toBits) := by decide +kernel
  have distinct : (["x"].map canonicalName).Nodup := by decide +kernel
  obtain ⟨r, ends, values⟩ := ok_of_map run
  obtain ⟨m, positions, known, -, count, -, large, certified, -, final, own⟩ :=
    minimize_certified reads drawless ends Engine.start
  have method : DescentMethod.ofName? "momentum" = some .momentum := by decide +kernel
  obtain rfl : .momentum = m := Option.some.inj (method.symm.trans known)
  have one : positions.length = 1 := count.trans (congrArg Prod.fst values)
  have converged : r.converged = true := congrArg (fun v => v.2.1) values
  obtain ⟨small, silent⟩ := certified converged
  have left : startPosition ["x"] [(1 : Float)] ∈
      (startPosition ["x"] [(1 : Float)] :: positions).dropLast := by
    obtain ⟨b, rfl⟩ := List.length_eq_one_iff.1 one
    exact List.mem_singleton_self _
  exact ⟨reads, drawless, r, _, ends, values, own.2 distinct, small, silent, final, large _ left⟩

end DerivativeEngine
