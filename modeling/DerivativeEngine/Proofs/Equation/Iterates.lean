import DerivativeEngine.Equation.Newton
import DerivativeEngine.Proofs.Engine.Discretion
import DerivativeEngine.Proofs.Equation.Roots
import DerivativeEngine.Scalar.Double

/-! Newton's method as the iteration of one map. An iterate is a number together with the stream
that its iteration draws from; the map takes it to the next one by the value and the slope there.
A run goes along the iterates from the guess until a test ends it, and what it reports is read off
them. At three of the five exits the solution is the iterate whose value is reported as the final
error; after a small step and at the limit of iterations it is the iterate beyond that, where no
value was taken. -/

namespace DerivativeEngine.Expr

variable {α : Type} [Scalar α] (equation : Expr α) (name : String)

def errorAt (p : α × RandomStream) : α := Scalar.abs (equation.zeroValue name p.1 p.2)

def slopeAt (p : α × RandomStream) : α × RandomStream :=
  (equation.zeroForm.partialDerivative (canonicalName name)).value.evaluate
    (some (.single (canonicalName name) p.1))
    (equation.zeroForm.evaluate (some (.single (canonicalName name) p.1)) p.2).2

def newtonNext (p : α × RandomStream) : α × RandomStream :=
  (p.1 - equation.zeroValue name p.1 p.2 / (equation.slopeAt name p).1, (equation.slopeAt name p).2)

def iterate (start : α × RandomStream) (n : ℕ) : α × RandomStream :=
  (equation.newtonNext name)^[n] start

theorem iterate_succ (start : α × RandomStream) (n : ℕ) :
    equation.iterate name start (n + 1) =
      equation.newtonNext name (equation.iterate name start n) :=
  Function.iterate_succ_apply' _ n start

def InRange (x : α) : Prop := Scalar.isFinite x = true ∧ ¬ divergenceLimit < Scalar.abs x

instance (x : α) : Decidable (InRange x) := inferInstanceAs (Decidable (_ ∧ _))

theorem leaves_iff (x : α) :
    (!Scalar.isFinite x || decide (divergenceLimit < Scalar.abs x)) = true ↔ ¬ InRange x := by
  simp [InRange, imp_iff_not_or]

structure Continues (tolerance : α) (done : ℕ) (p : α × RandomStream) : Prop where
  large : ¬ equation.errorAt name p < tolerance
  steep : ¬ Scalar.abs (equation.slopeAt name p).1 < flatTolerance
  inRange : InRange (equation.newtonNext name p).1
  moves : ¬ (11 < done + 1 ∧ Scalar.abs ((equation.newtonNext name p).1 - p.1) < flatTolerance)

/-- What a run of so many iterations along `x` reports at each exit. -/
inductive Reports (tolerance : α) (limit : ℤ) (x : ℕ → α × RandomStream) :
    ℕ → NewtonResult α → Prop
  | smallValue (n : ℕ) (small : equation.errorAt name (x n) < tolerance) :
      Reports tolerance limit x (n + 1)
        ⟨(x n).1, .smallValue, (n + 1 : ℕ), some (equation.errorAt name (x n))⟩
  | flatDerivative (n : ℕ) (flat : Scalar.abs (equation.slopeAt name (x n)).1 < flatTolerance) :
      Reports tolerance limit x (n + 1)
        ⟨(x n).1, .flatDerivative, (n + 1 : ℕ), some (equation.errorAt name (x n))⟩
  | diverged (n : ℕ) (leaves : ¬ InRange (x (n + 1)).1) :
      Reports tolerance limit x (n + 1)
        ⟨(x n).1, .diverged, (n + 1 : ℕ), some (equation.errorAt name (x n))⟩
  | smallStep (n : ℕ) (inRange : InRange (x (n + 1)).1) (late : 11 < n + 1)
      (still : Scalar.abs ((x (n + 1)).1 - (x n).1) < flatTolerance) :
      Reports tolerance limit x (n + 1)
        ⟨(x (n + 1)).1, .smallStep, (n + 1 : ℕ), some (equation.errorAt name (x n))⟩
  | exhausted (continues : ∀ n < limit.toNat, equation.Continues name tolerance n (x n)) :
      Reports tolerance limit x limit.toNat
        ⟨(x limit.toNat).1, .exhausted, limit,
          if limit.toNat = 0 then none else some (equation.errorAt name (x (limit.toNat - 1)))⟩

section Runs

variable [NumberText α] (tolerance guess : α) (limit : ℤ)

def newtonFrom (left done : ℕ) (v : α) (last : Option α) : Run (NewtonResult α) :=
  newtonSteps equation.zeroForm
    (equation.zeroForm.partialDerivative (canonicalName name)).value (canonicalName name)
    tolerance limit left done v last

theorem stream_valueAt (e : Expr α) (x : String) (v : α) (engine : Engine) :
    (e.valueAt x v engine).2.stream = (e.evaluate (some (.single x v)) engine.stream).2 :=
  (Run.Remarks.debug .eval
    (fun _ => e.kindName ++ " -> " ++ NumberText.general 17
      (e.evaluate (some (.single x v)) engine.stream).1) false).stream
    { engine with stream := (e.evaluate (some (.single x v)) engine.stream).2 }

theorem sampled_iterate {p : α × RandomStream} {engine : Engine} (stream : p.2 = engine.stream) :
    ∃ engine₁ engine₂ : Engine,
      equation.zeroForm.valueAt (canonicalName name) p.1 engine =
        (equation.zeroValue name p.1 p.2, engine₁) ∧
      (equation.zeroForm.partialDerivative (canonicalName name)).value.valueAt
        (canonicalName name) p.1 engine₁ = ((equation.slopeAt name p).1, engine₂) ∧
      engine₂.stream = (equation.newtonNext name p).2 := by
  have first := stream_valueAt equation.zeroForm (canonicalName name) p.1 engine
  rw [← stream] at first
  refine ⟨_, _, Prod.ext ?_ rfl, Prod.ext ?_ rfl, ?_⟩
  · rw [stream]
    rfl
  · rw [slopeAt, ← first]
    rfl
  · rw [newtonNext, slopeAt, ← first]
    exact stream_valueAt _ _ p.1 _

theorem newtonFrom_succ (left done : ℕ) (last : Option α) {p : α × RandomStream}
    {engine : Engine} (stream : p.2 = engine.stream) :
    ∃ engine₁ engine₂ : Engine, engine₁.stream = (equation.newtonNext name p).2 ∧
      engine₂.stream = (equation.newtonNext name p).2 ∧
      equation.newtonFrom name tolerance limit (left + 1) done p.1 last engine =
        if equation.errorAt name p < tolerance then
          (⟨p.1, .smallValue, (done + 1 : ℕ), some (equation.errorAt name p)⟩, engine₁)
        else if Scalar.abs (equation.slopeAt name p).1 < flatTolerance then
          (⟨p.1, .flatDerivative, (done + 1 : ℕ), some (equation.errorAt name p)⟩, engine₂)
        else if InRange (equation.newtonNext name p).1 then
          if 11 < done + 1 ∧
              Scalar.abs ((equation.newtonNext name p).1 - p.1) < flatTolerance then
            (⟨(equation.newtonNext name p).1, .smallStep, (done + 1 : ℕ),
              some (equation.errorAt name p)⟩, engine₂)
          else equation.newtonFrom name tolerance limit left (done + 1)
            (equation.newtonNext name p).1 (some (equation.errorAt name p)) engine₂
        else (⟨p.1, .diverged, (done + 1 : ℕ), some (equation.errorAt name p)⟩, engine₂) := by
  obtain ⟨engine₁, engine₂, value, slope, after⟩ := equation.sampled_iterate name stream
  let said := s!"Newton converged to {NumberText.general 12 p.1} after {done + 1} iterations"
  refine ⟨(Run.record .solve .debug said engine₂).2, engine₂, after, after, ?_⟩
  simp only [newtonFrom, newtonSteps, bind, StateT.bind, value, slope, leaves_iff,
    Bool.and_eq_true, decide_eq_true_eq]
  change (if equation.errorAt name p < tolerance then _ else if _ then _ else
    if ¬ InRange (equation.newtonNext name p).1 then _ else if 11 < done + 1 ∧
      Scalar.abs ((equation.newtonNext name p).1 - p.1) < flatTolerance then _ else _ :
    Run (NewtonResult α)) engine₂ = _
  by_cases small : equation.errorAt name p < tolerance
  · rw [if_pos small, if_pos small]
    rfl
  rw [if_neg small, if_neg small]
  by_cases flat : Scalar.abs (equation.slopeAt name p).1 < flatTolerance
  · rw [if_pos flat, if_pos flat]
    rfl
  rw [if_neg flat, if_neg flat]
  by_cases inRange : InRange (equation.newtonNext name p).1
  · rw [if_neg (not_not_intro inRange), if_pos inRange]
    split_ifs
    · rfl
    · rfl
  · rw [if_pos inRange, if_neg inRange]
    rfl

theorem newtonFrom_reports {x : ℕ → α × RandomStream}
    (steps : ∀ n, x (n + 1) = equation.newtonNext name (x n)) :
    ∀ (left done : ℕ) (engine : Engine), done + left = limit.toNat → (x done).2 = engine.stream →
      (∀ m < done, equation.Continues name tolerance m (x m)) → ∃ n ≤ limit.toNat,
        let out := equation.newtonFrom name tolerance limit left done (x done).1
          (if done = 0 then none else some (equation.errorAt name (x (done - 1)))) engine
        out.2.stream = (x n).2 ∧ equation.Reports name tolerance limit x n out.1 ∧
          ∀ m, m + 1 < n → equation.Continues name tolerance m (x m)
  -- No exit was taken on the way to the iterate. The induction is on the iterations that are left.
  | 0, done, engine, total, stream, before => by
    obtain rfl : done = limit.toNat := total
    exact ⟨_, le_refl _, stream.symm, .exhausted before, fun m h => before m (by omega)⟩
  | left + 1, done, engine, total, stream, before => by
    obtain ⟨engine₁, engine₂, after₁, after₂, run⟩ := equation.newtonFrom_succ name tolerance limit
      left done (if done = 0 then none else some (equation.errorAt name (x (done - 1)))) stream
    have within : done + 1 ≤ limit.toNat := by omega
    have earlier : ∀ m, m + 1 < done + 1 → equation.Continues name tolerance m (x m) :=
      fun m h => before m (by omega)
    rw [← steps] at run after₁ after₂
    dsimp only
    rw [run]
    split_ifs with small flat inRange still
    · exact ⟨done + 1, within, after₁, .smallValue done small, earlier⟩
    · exact ⟨done + 1, within, after₂, .flatDerivative done flat, earlier⟩
    · exact ⟨done + 1, within, after₂, .smallStep done inRange still.1 still.2, earlier⟩
    · have here : equation.Continues name tolerance done (x done) := by
        refine ⟨small, flat, ?_, ?_⟩ <;> rw [← steps]
        · exact inRange
        · exact still
      refine newtonFrom_reports steps left (done + 1) engine₂ (by omega) after₂.symm fun m h => ?_
      rcases Nat.lt_succ_iff_lt_or_eq.1 h with h | rfl
      · exact before m h
      · exact here
    · exact ⟨done + 1, within, after₂, .diverged done inRange, earlier⟩

theorem solveNumerically_reports (engine : Engine) : ∃ n ≤ limit.toNat,
    let out := equation.solveNumerically name guess tolerance limit engine
    let x := equation.iterate name (guess, engine.stream)
    out.2.stream = (x n).2 ∧ equation.Reports name tolerance limit x n out.1 ∧
      ∀ m, m + 1 < n → equation.Continues name tolerance m (x m) :=
  equation.newtonFrom_reports name tolerance limit
    (equation.iterate_succ name (guess, engine.stream)) limit.toNat 0 engine (Nat.zero_add _) rfl
    (fun _ h => absurd h (Nat.not_lt_zero _))

/-- The final error belongs to the solution: it is the magnitude of the value there, drawn from the
stream. -/
def Paired (r : NewtonResult α) (s : RandomStream) : Prop :=
  r.finalError = some (Scalar.abs (equation.zeroValue name r.solution s))

/-- A run of at least one iteration has a last iterate at which a value was taken. The final error
is that of the solution at the three exits that give this iterate; the two exits that go one step
further keep its error. -/
theorem finalError_solveNumerically (engine : Engine) :
    let r := (equation.solveNumerically name guess tolerance limit engine).1
    let x := equation.iterate name (guess, engine.stream)
    (limit < 1 ∧ r = ⟨guess, .exhausted, limit, none⟩) ∨
      ∃ n : ℕ, r.iterations = n + 1 ∧ n + 1 ≤ limit ∧
        r.finalError = some (equation.errorAt name (x n)) ∧
        (r.exit = .smallValue ∨ r.exit = .flatDerivative ∨ r.exit = .diverged →
          r.solution = (x n).1 ∧ equation.Paired name r (x n).2) ∧
        (r.exit = .smallStep ∨ r.exit = .exhausted →
          r.solution = (x n).1 - equation.zeroValue name (x n).1 (x n).2 /
            (equation.slopeAt name (x n)).1) := by
  intro r x
  obtain ⟨n, within, -, reports, -⟩ :=
    equation.solveNumerically_reports name tolerance guess limit engine
  change equation.Reports name tolerance limit x n r at reports
  have steps : ∀ n, x (n + 1) = equation.newtonNext name (x n) :=
    equation.iterate_succ name (guess, engine.stream)
  generalize r = r at reports
  cases reports with
  | smallValue n | flatDerivative n | diverged n =>
    exact .inr ⟨n, by simp, by omega, rfl, fun _ => ⟨rfl, rfl⟩, by simp⟩
  | smallStep n =>
    exact .inr ⟨n, by simp, by omega, rfl, by simp, fun _ => congrArg Prod.fst (steps n)⟩
  | exhausted =>
    by_cases positive : 1 ≤ limit
    · obtain ⟨n, total⟩ : ∃ n, limit.toNat = n + 1 := ⟨limit.toNat - 1, by omega⟩
      refine .inr ⟨n, by dsimp only; omega, by omega, by simp [total], by simp, fun _ => ?_⟩
      dsimp only
      rw [total, steps]
      rfl
    · have none : limit.toNat = 0 := by omega
      rw [none]
      exact .inl ⟨by omega, rfl⟩

end Runs

/-- One iteration for `X * X` from one gives a half, where the square is a quarter, and reports the
value one of the guess. -/
theorem not_paired_exhausted :
    let e : Expr Float := bin .mul (var "X") (var "X")
    let r := (e.solveNumerically "X" 1 1e-10 1 .start).1
    r.exit = .exhausted ∧ (r.solution == 0.5) = true ∧ r.finalError.any (· == 1) = true ∧
      ∀ s, (Scalar.abs (e.zeroValue "X" r.solution s) == 0.25) = true ∧ ¬ e.Paired "X" r s := by
  intro e r
  have drawless (s : RandomStream) :
      e.zeroValue "X" r.solution s = e.zeroValue "X" r.solution (.ofSeed 0) := by
    have still : e.EveryNode DrawsNothing := ⟨trivial, trivial, trivial⟩
    simp only [zeroValue]
    change (e.evaluate _ s).1 = (e.evaluate _ _).1
    rw [evaluate_eq_value _ e still, evaluate_eq_value _ e still]
  have quarter : (Scalar.abs (e.zeroValue "X" r.solution (.ofSeed 0)) == 0.25) = true := by
    decide +kernel
  have one : r.finalError.any (· == 1) = true := by decide +kernel
  refine ⟨by decide +kernel, by decide +kernel, one, fun s => ⟨?_, fun paired => ?_⟩⟩
  · rw [drawless]
    exact quarter
  · rw [paired, drawless] at one
    revert one
    decide +kernel

end DerivativeEngine.Expr
