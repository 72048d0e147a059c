import DerivativeEngine.Proofs.Equation.Guards
import DerivativeEngine.Proofs.Equation.Iterates

/-! What Newton's method keeps to, whatever the equation is. A slope that passes the test against
the tolerance can be divided by, and a step that passes the test against the limit gives a finite
number within it, so that no division by zero is met and nothing but the guess is given that is not
in range. A nan in a value, a slope or a step fails every test it is put to, and ends the run at
the test of the step. -/

namespace DerivativeEngine

/-- What the tests of a slope and of a step let through. -/
structure Scalar.StepLaws (α : Type) [Scalar α] : Prop where
  steep : ∀ d : α, ¬ Scalar.abs d < Expr.flatTolerance → (d == 0) = false
  inRange : ∀ x : α, Expr.InRange x → Scalar.abs x ≤ Expr.divergenceLimit

theorem stepLaws_real : Scalar.StepLaws ℝ where
  steep d beyond := by
    rw [beq_eq_false_iff_ne]
    rintro rfl
    refine beyond ?_
    change |(0 : ℝ)| < 1e-15
    norm_num
  inRange x h := not_lt.1 h.2

open Double in
theorem stepLaws_double : Scalar.StepLaws Float where
  steep d beyond := by
    obtain ⟨n, e, pos, above, full⟩ : ∃ n e pos, -1074 < e ∧
        (Expr.flatTolerance : Float).toModel.unpack = .finite .positive n e pos :=
      ⟨_, _, _, by decide, rfl⟩
    exact Bool.eq_false_iff.2 fun zero =>
      beyond (abs_lt_of_exponent full above (exponent_of_zeroed (beq_zero_iff.1 zero)))
  inRange x h := by
    have limit : IsNumber (Expr.divergenceLimit : Float) := numeric_of_isFinite (by decide)
    exact le_of_not_lt (isNumber_abs (numeric_of_isFinite h.1)) limit h.2

namespace Expr

variable {α : Type} [Scalar α] [NumberText α]

/-- The iterations with divisions that stop at zero, and counted. -/
def watchedSteps (f df : Expr α) (name : String) (tolerance : α) (limit : ℤ) :
    (left done : ℕ) → α → Option α → Run (Except ArithmeticFault (NewtonResult α × ℕ))
  | 0, _, x, finalError => return .ok (⟨x, .exhausted, limit, finalError⟩, 0)
  | left + 1, done, x, _ => do
    let iteration := done + 1
    let fx ← f.valueAt name x
    let dfx ← df.valueAt name x
    let finalError := Scalar.abs fx
    if finalError < tolerance then
      Run.record .solve .debug
        s!"Newton converged to {NumberText.general 12 x} after {iteration} iterations"
      return .ok (⟨x, .smallValue, iteration, some finalError⟩, 1)
    else if Scalar.abs dfx < flatTolerance then
      return .ok (⟨x, .flatDerivative, iteration, some finalError⟩, 1)
    else
      match divide fx dfx with
      | .error fault => return .error fault
      | .ok quotient =>
        let next := x - quotient
        if !Scalar.isFinite next || divergenceLimit < Scalar.abs next then
          return .ok (⟨x, .diverged, iteration, some finalError⟩, 1)
        else if 11 < iteration && Scalar.abs (next - x) < flatTolerance then
          return .ok (⟨next, .smallStep, iteration, some finalError⟩, 1)
        else
          let rest ← watchedSteps f df name tolerance limit left iteration next (some finalError)
          return rest.map fun (r, n) => (r, n + 1)

def watchedNumerically (equation : Expr α) (name : String) (guess tolerance : α)
    (maxIterations : ℤ) : Run (Except ArithmeticFault (NewtonResult α × ℕ)) :=
  let x := canonicalName name
  let f := equation.zeroForm
  watchedSteps f (f.partialDerivative x).value x tolerance maxIterations maxIterations.toNat 0
    guess none

/-- Watching finds no division by zero and no more iterations than were left, and changes nothing
else. -/
theorem watchedSteps_eq (laws : Scalar.StepLaws α) (f df : Expr α) (name : String) (tolerance : α)
    (limit : ℤ) : ∀ (left done : ℕ) (x : α) (last : Option α) (engine : Engine), ∃ n ≤ left,
      let out := newtonSteps f df name tolerance limit left done x last engine
      watchedSteps f df name tolerance limit left done x last engine = (.ok (out.1, n), out.2) ∧
        (out.1.iterations = (done + n : ℕ) ∨ n = left ∧ out.1.iterations = limit)
  | 0, done, x, last, engine => ⟨0, le_refl _, rfl, .inr ⟨rfl, rfl⟩⟩
  | left + 1, done, x, last, engine => by
    simp only [watchedSteps, newtonSteps, bind, StateT.bind]
    rcases f.valueAt name x engine with ⟨fx, engine₁⟩
    dsimp only
    rcases df.valueAt name x engine₁ with ⟨dfx, engine₂⟩
    dsimp only
    by_cases small : Scalar.abs fx < tolerance
    · rw [if_pos small, if_pos small]
      exact ⟨1, by omega, rfl, .inl rfl⟩
    rw [if_neg small, if_neg small]
    by_cases flat : Scalar.abs dfx < flatTolerance
    · rw [if_pos flat, if_pos flat]
      exact ⟨1, by omega, rfl, .inl rfl⟩
    rw [if_neg flat, if_neg flat, divide_of_ne_zero (laws.steep dfx flat)]
    dsimp only
    by_cases leaves : (!Scalar.isFinite (x - fx / dfx) ||
        decide (divergenceLimit < Scalar.abs (x - fx / dfx))) = true
    · rw [if_pos leaves, if_pos leaves]
      exact ⟨1, by omega, rfl, .inl rfl⟩
    rw [if_neg leaves, if_neg leaves]
    by_cases still : (decide (11 < done + 1) &&
        decide (Scalar.abs (x - fx / dfx - x) < flatTolerance)) = true
    · rw [if_pos still, if_pos still]
      exact ⟨1, by omega, rfl, .inl rfl⟩
    rw [if_neg still, if_neg still]
    obtain ⟨n, within, watched, count⟩ := watchedSteps_eq laws f df name tolerance limit left
      (done + 1) (x - fx / dfx) (some (Scalar.abs fx)) engine₂
    refine ⟨n + 1, by omega, ?_, ?_⟩
    · simp only [StateT.bind, watched]
      rfl
    · rcases count with counted | ⟨rfl, exhausted⟩
      · exact .inl (by rw [counted]; omega)
      · exact .inr ⟨rfl, exhausted⟩

section Reports

omit [NumberText α]

variable {equation : Expr α} {name : String} {tolerance : α} {limit : ℤ}
  {x : ℕ → α × RandomStream} {n : ℕ} {r : NewtonResult α}

theorem inRange_iterate (steps : ∀ n, x (n + 1) = equation.newtonNext name (x n))
    (before : ∀ m < n, equation.Continues name tolerance m (x m)) :
    (x n).1 = (x 0).1 ∨ InRange (x n).1 := by
  cases n with
  | zero => exact .inl rfl
  | succ n =>
    rw [steps]
    exact .inr (before n (Nat.lt_succ_self n)).inRange

theorem Reports.solution_inRange (reports : equation.Reports name tolerance limit x n r)
    (steps : ∀ n, x (n + 1) = equation.newtonNext name (x n))
    (before : ∀ m, m + 1 < n → equation.Continues name tolerance m (x m)) :
    r.solution = (x 0).1 ∨ InRange r.solution := by
  cases reports with
  | smallValue n | flatDerivative n | diverged n =>
    exact inRange_iterate steps fun m h => before m (by omega)
  | smallStep n inRange => exact .inr inRange
  | exhausted continues => exact inRange_iterate steps continues

theorem Reports.iterations_le (reports : equation.Reports name tolerance limit x n r)
    (within : n ≤ limit.toNat) : r.iterations ≤ limit := by
  cases reports with
  | exhausted => exact le_refl _
  | _ n => exact Int.le_of_lt_add_one (by dsimp only; omega)

theorem Reports.small_of_converged (reports : equation.Reports name tolerance limit x n r)
    (converged : r.converged = true) : ∃ k : ℕ, r.iterations = k + 1 ∧
      ((r.solution = (x k).1 ∧
          Scalar.abs (equation.zeroValue name r.solution (x k).2) < tolerance) ∨
        (11 < r.iterations ∧ r.solution = (x (k + 1)).1 ∧
          Scalar.abs (r.solution - (x k).1) < flatTolerance)) := by
  cases reports with
  | smallValue k small => exact ⟨k, rfl, .inl ⟨rfl, small⟩⟩
  | smallStep k _ late still => exact ⟨k, rfl, .inr ⟨by dsimp only; omega, rfl, still⟩⟩
  | _ => cases converged

end Reports

/-- What solving from a guess keeps to: no division by zero and no more iterations than allowed, no
number out of range but the guess, and convergence only by a small value at the solution or by a
small step to it after the eleventh. -/
structure KeepsRange (equation : Expr α) (name : String) (guess tolerance : α)
    (maxIterations : ℤ) (engine : Engine) (r : NewtonResult α) : Prop where
  watched : ∃ n ≤ maxIterations.toNat, (1 ≤ maxIterations → r.iterations = n) ∧
    equation.watchedNumerically name guess tolerance maxIterations engine =
      (.ok (r, n), (equation.solveNumerically name guess tolerance maxIterations engine).2)
  iterations : r.iterations ≤ maxIterations
  finite : Scalar.isFinite guess = true → Scalar.isFinite r.solution = true
  bounded : r.solution = guess ∨ Scalar.abs r.solution ≤ divergenceLimit
  converged : r.converged = true → ∃ k : ℕ, r.iterations = k + 1 ∧
    let p := equation.iterate name (guess, engine.stream) k
    (r.solution = p.1 ∧ Scalar.abs (equation.zeroValue name r.solution p.2) < tolerance) ∨
      (11 < r.iterations ∧ r.solution = (equation.newtonNext name p).1 ∧
        Scalar.abs (r.solution - p.1) < flatTolerance)

theorem keepsRange (laws : Scalar.StepLaws α) (equation : Expr α) (name : String)
    (guess tolerance : α) (maxIterations : ℤ) (engine : Engine) :
    equation.KeepsRange name guess tolerance maxIterations engine
      (equation.solveNumerically name guess tolerance maxIterations engine).1 := by
  obtain ⟨n, within, watched, count⟩ := watchedSteps_eq laws equation.zeroForm
    (equation.zeroForm.partialDerivative (canonicalName name)).value (canonicalName name)
    tolerance maxIterations maxIterations.toNat 0 guess none engine
  obtain ⟨m, made, -, reports, before⟩ :=
    equation.solveNumerically_reports name tolerance guess maxIterations engine
  have steps := equation.iterate_succ name (guess, engine.stream)
  have place := reports.solution_inRange steps before
  refine ⟨⟨n, within, fun positive => ?_, watched⟩, reports.iterations_le made, fun finite => ?_,
    ?_, fun converged => ?_⟩
  · rcases count with counted | ⟨rfl, exhausted⟩
    · exact counted.trans (by rw [Nat.zero_add])
    · exact exhausted.trans (by omega)
  · rcases place with guessed | inRange
    · rw [guessed]
      exact finite
    · exact inRange.1
  · exact place.imp id fun inRange => laws.inRange _ inRange
  · obtain ⟨k, last, small⟩ := reports.small_of_converged converged
    rw [steps] at small
    exact ⟨k, last, small⟩

/-- Over doubles, the infinite ones and the nan among them, and over exact arithmetic. -/
theorem solveNumerically_keepsRange [NumberText ℝ] (name : String) (maxIterations : ℤ)
    (engine : Engine) :
    (∀ (equation : Expr Float) (guess tolerance : Float),
      equation.KeepsRange name guess tolerance maxIterations engine
        (equation.solveNumerically name guess tolerance maxIterations engine).1) ∧
    ∀ (equation : Expr ℝ) (guess tolerance : ℝ),
      equation.KeepsRange name guess tolerance maxIterations engine
        (equation.solveNumerically name guess tolerance maxIterations engine).1 :=
  ⟨fun equation guess tolerance =>
      keepsRange stepLaws_double equation name guess tolerance maxIterations engine,
    fun equation guess tolerance =>
      keepsRange stepLaws_real equation name guess tolerance maxIterations engine⟩

end Expr

end DerivativeEngine
