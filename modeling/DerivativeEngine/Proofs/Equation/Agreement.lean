import DerivativeEngine.Proofs.Equation.Completeness
import DerivativeEngine.Proofs.Equation.Iterates
import DerivativeEngine.Proofs.Expr.Draws
import DerivativeEngine.Proofs.Rewrite.TaylorPolynomial

/-! The two ways of solving agree on lines. Where the zero form of an equation is a tree of numbers,
the variable, sums and products that comes to `a x + b`, its simplified derivative comes to `a`
everywhere, whatever terms cancelled on the way. So one Newton step from anywhere gives the root of
the line, where the value is zero and the run ends; solving in closed form gives the same number. -/

namespace DerivativeEngine.Expr

open Polynomial

section Lines

variable {equation : Expr ℝ} {name : String} {a b : ℝ}

/-- The zero form is a polynomial tree, and the polynomial is a line. -/
structure IsLine (equation : Expr ℝ) (name : String) (a b : ℝ) : Prop where
  shape : PolynomialIn (canonicalName name) equation.zeroForm
  value : ∀ v s, equation.zeroValue name v s = a * v + b
  /-- Simplification of the derivative meets no near miss. -/
  separated : ∀ q ∈ (equation.zeroForm.differentiate name).value.comparisons, Separated q

theorem IsLine.hasPolynomial (line : equation.IsLine name a b) :
    HasPolynomial (canonicalName name) equation.zeroForm (C a * X + C b) := by
  obtain ⟨p, stands⟩ := line.shape
  have same : p = C a * X + C b := by
    refine Polynomial.funext fun v => ?_
    have value := line.value v (.ofSeed 0)
    rw [zeroValue, evaluate_eq_value _ _ (stands.everyNode atomic_drawsNothing trivial),
      stands.value_eq, Bindings.valueOf_single (canonicalName_canonicalName name)] at value
    simpa using value
  exact same ▸ stands

theorem IsLine.slope (line : equation.IsLine name a b) (p : ℝ × RandomStream) :
    (equation.slopeAt name p).1 = a := by
  have canonical := canonicalName_canonicalName name
  have separated : ∀ q ∈ (equation.zeroForm.differentiate (canonicalName name)).value.comparisons,
      Separated q := by
    rw [differentiate, canonical]
    exact line.separated
  have derived := line.hasPolynomial.partialDerivative canonical separated
  rw [slopeAt, evaluate_eq_value _ _ (derived.everyNode atomic_drawsNothing trivial),
    derived.value_eq]
  simp

theorem IsLine.newtonNext (line : equation.IsLine name a b) (steep : a ≠ 0)
    (p : ℝ × RandomStream) : (equation.newtonNext name p).1 = -b / a := by
  rw [Expr.newtonNext, line.value, line.slope]
  field_simp
  ring

theorem IsLine.errorAt (line : equation.IsLine name a b) (p : ℝ × RandomStream) :
    equation.errorAt name p = |a * p.1 + b| := by
  rw [Expr.errorAt, line.value]
  rfl

theorem IsLine.errorAt_root (line : equation.IsLine name a b) (steep : a ≠ 0)
    (p : ℝ × RandomStream) (root : p.1 = -b / a) : equation.errorAt name p = 0 := by
  rw [line.errorAt, root, mul_div_cancel₀ _ steep, neg_add_cancel, abs_zero]

theorem IsLine.not_continues (line : equation.IsLine name a b) (steep : a ≠ 0) {tolerance : ℝ}
    (positive : 0 < tolerance) {x : ℕ → ℝ × RandomStream}
    (steps : ∀ n, x (n + 1) = equation.newtonNext name (x n)) (n : ℕ) :
    ¬ equation.Continues name tolerance (n + 1) (x (n + 1)) := by
  intro continues
  have root : (x (n + 1)).1 = -b / a := by rw [steps, line.newtonNext steep]
  exact continues.large (by rwa [line.errorAt_root steep _ root])

theorem IsLine.not_flat (line : equation.IsLine name a b) (steep : zeroTolerance ≤ Scalar.abs a)
    (p : ℝ × RandomStream) : ¬ Scalar.abs (equation.slopeAt name p).1 < flatTolerance := by
  have tolerances : (flatTolerance : ℝ) ≤ zeroTolerance := by
    change (1e-15 : ℝ) ≤ 1e-12
    norm_num
  rw [line.slope]
  exact not_lt.2 (tolerances.trans steep)

variable {tolerance : ℝ} {maxIterations : ℤ}

theorem IsLine.reports (line : equation.IsLine name a b) (steep : zeroTolerance ≤ Scalar.abs a)
    (near : Scalar.abs (-b / a) ≤ divergenceLimit) (positive : 0 < tolerance)
    (enough : 2 ≤ maxIterations) {x : ℕ → ℝ × RandomStream}
    (steps : ∀ n, x (n + 1) = equation.newtonNext name (x n)) {n : ℕ} {r : NewtonResult ℝ}
    (reports : equation.Reports name tolerance maxIterations x n r)
    (before : ∀ m, m + 1 < n → equation.Continues name tolerance m (x m)) :
    (equation.errorAt name (x 0) < tolerance ∧
        r = ⟨(x 0).1, .smallValue, 1, some (equation.errorAt name (x 0))⟩) ∨
      (tolerance ≤ equation.errorAt name (x 0) ∧ r = ⟨-b / a, .smallValue, 2, some 0⟩) := by
  have leading := ne_zero_of_not_vanishes (not_vanishes_of_le steep)
  have root (k : ℕ) : (x (k + 1)).1 = -b / a := by rw [steps, line.newtonNext leading]
  have ends := line.not_continues leading positive steps
  cases reports with
  | smallValue n small =>
    match n with
    | 0 => exact .inl ⟨small, rfl⟩
    | 1 =>
      have large := not_lt.1 (before 0 (by omega)).large
      rw [root, line.errorAt_root leading _ (root 0)]
      exact .inr ⟨large, rfl⟩
    | n + 2 => exact absurd (before 1 (by omega)) (ends 0)
  | flatDerivative n flat => exact absurd flat (line.not_flat steep _)
  | diverged n leaves =>
    rw [root] at leaves
    exact absurd ⟨rfl, not_lt.2 near⟩ leaves
  | smallStep n _ late => exact absurd (before 1 (by omega)) (ends 0)
  | exhausted continues => exact absurd (continues 1 (by omega)) (ends 0)

variable [NumberText ℝ]

theorem IsLine.solve (line : equation.IsLine name a b) (steep : zeroTolerance ≤ Scalar.abs a)
    (engine : Engine) : (equation.solve name engine).1 = .ok (.found [-b / a]) := by
  have value : ∀ v s, equation.zeroValue name v s = polynomialValue (0, a, b) v := by
    intro v s
    rw [line.value, polynomialValue]
    ring
  rw [solve_of_line value, solveLinear, if_neg (not_vanishes_of_le steep)]

/-- Newton's method gives the guess where its value is small enough, and after one step the root
that solving in closed form gives. -/
theorem solveNumerically_line (line : equation.IsLine name a b)
    (steep : zeroTolerance ≤ Scalar.abs a) (near : Scalar.abs (-b / a) ≤ divergenceLimit)
    (positive : 0 < tolerance) (enough : 2 ≤ maxIterations) (guess : ℝ) (engine : Engine) :
    let r := (equation.solveNumerically name guess tolerance maxIterations engine).1
    ((|a * guess + b| < tolerance ∧ r = ⟨guess, .smallValue, 1, some |a * guess + b|⟩) ∨
      (tolerance ≤ |a * guess + b| ∧ r = ⟨-b / a, .smallValue, 2, some 0⟩)) ∧
    ∀ engine', ∃ s, (equation.solve name engine').1 = .ok s ∧ s.hasSolution = true ∧
      ∀ engine'', (s.values engine'').1 = [-b / a] := by
  intro r
  refine ⟨?_, fun engine' => ⟨_, line.solve steep engine', rfl, SolveResult.run_values _⟩⟩
  obtain ⟨n, -, -, reports, before⟩ :=
    equation.solveNumerically_reports name tolerance guess maxIterations engine
  have start : equation.errorAt name (guess, engine.stream) = |a * guess + b| := line.errorAt _
  rw [← start]
  exact line.reports steep near positive enough (equation.iterate_succ name _) reports before

end Lines

theorem solveNumerically_line_squares :
    let x : Expr ℝ := var "X"
    let e :=
      bin .eq (bin .add (bin .mul x x) (bin .mul (num 2) x)) (bin .add (bin .mul x x) (num 6))
    e.IsLine "X" 2 (-6) ∧ zeroTolerance ≤ Scalar.abs (2 : ℝ) ∧
      Scalar.abs (-(-6) / 2 : ℝ) ≤ divergenceLimit ∧
      (e.solveNumerically "X" 0 1e-10 2 .start).1 = ⟨3, .smallValue, 2, some 0⟩ ∧
      ∃ s, (e.solve "X" .start).1 = .ok s ∧ (s.values .start).1 = [3] := by
  intro x e
  have shape : PolynomialIn (canonicalName "X") e.zeroForm := by
    rw [canonicalName_x]
    exact ⟨_, .sub (.add (.mul .var .var) (.mul (.num 2) .var)) (.add (.mul .var .var) (.num 6))⟩
  have value (v : ℝ) (s : RandomStream) : e.zeroValue "X" v s = 2 * v + -6 := by
    have bound : valueOf (some (.single (canonicalName "X") v)) "X" = v := by
      rw [canonicalName_x, Bindings.valueOf_single canonicalName_x]
    simp only [zeroValue, e, x, zeroForm, evaluate, BinaryOp.apply, bound]
    ring
  have separated : ∀ q ∈ (e.zeroForm.differentiate "X").value.comparisons, Separated q := by
    have apart : Separated ((1 : ℝ) + 1, (0 : ℝ)) ∧ Separated ((1 : ℝ) + 1, (1 : ℝ)) :=
      ⟨.inr (tolerance_le_abs (by norm_num)), .inr (tolerance_le_abs (by norm_num))⟩
    have notZero : near ((1 : ℝ) + 1) 0 = false := near_eq_false apart.1 (by norm_num)
    have notOne : near ((1 : ℝ) + 1) 1 = false := near_eq_false apart.2 (by norm_num)
    simp [e, x, zeroForm, differentiate, Expr.derivative, canonicalName_x, clone, Expr.simplify,
      Expr.simplifyBinary, simplifyOperands, isNumber, Expr.combineLikeTerms,
      Expr.splitCoefficient, equal, BinaryOp.apply, comparisons, comparedOperands, areNumbers,
      comparedTerms, compared, apart, notZero, notOne]
  have line : e.IsLine "X" 2 (-6) := ⟨shape, value, separated⟩
  have steep : zeroTolerance ≤ Scalar.abs (2 : ℝ) := by
    change (1e-12 : ℝ) ≤ |2|
    norm_num
  have close : Scalar.abs (-(-6) / 2 : ℝ) ≤ divergenceLimit := by
    change |(-(-6) / 2 : ℝ)| ≤ 1e10
    norm_num
  have root : (-(-6) / 2 : ℝ) = 3 := by norm_num
  obtain ⟨newton, closed⟩ := solveNumerically_line line steep close
    (by norm_num : (0 : ℝ) < 1e-10) (le_refl 2) 0 .start
  obtain ⟨s, solved, -, values⟩ := closed .start
  refine ⟨line, steep, close, ?_, s, solved, by rw [values, root]⟩
  rcases newton with ⟨small, -⟩ | ⟨-, found⟩
  · norm_num at small
  · rw [found, root]

/-- A variable that is not written in its canonical form is found by evaluation and missed by the
derivative: for `x`, Newton's method stops at the guess one, where it takes the slope for zero, and
solving in closed form gives the root zero. -/
theorem solveNumerically_line_lowercase :
    let e : Expr ℝ := var "x"
    PolynomialIn "x" e ∧ (∀ v s, e.zeroValue "x" v s = 1 * v + 0) ∧
      (e.zeroForm.differentiate "x").value.comparisons = [] ∧
      (e.solveNumerically "x" 1 1e-10 100 .start).1 = ⟨1, .flatDerivative, 1, some 1⟩ ∧
      (e.solve "x" .start).1 = .ok (.found [0]) := by
  intro e
  have lower : canonicalName "x" = "X" := by decide +kernel
  have value (v : ℝ) (s : RandomStream) : e.zeroValue "x" v s = 1 * v + 0 := by
    have bound : valueOf (some (.single (canonicalName "x") v)) "x" = v := by
      rw [← valueOf_canonicalName, Bindings.valueOf_single (canonicalName_canonicalName "x")]
    simp only [zeroValue, e, zeroForm, evaluate, bound]
    ring
  have derived : (e.zeroForm.differentiate "x").value = num 0 := by
    simp [e, zeroForm, differentiate, Expr.derivative, lower]
  have slope (p : ℝ × RandomStream) : (e.slopeAt "x" p).1 = 0 := by
    simp [slopeAt, e, zeroForm, Expr.partialDerivative, differentiate, Expr.derivative, lower,
      canonicalName_x, Expr.simplify, evaluate]
  have error (p : ℝ × RandomStream) : e.errorAt "x" p = |p.1| := by
    rw [errorAt, value, one_mul, add_zero]
    rfl
  have large : ¬ e.errorAt "x" (1, Engine.start.stream) < 1e-10 := by
    rw [error]
    norm_num
  have flat : Scalar.abs (e.slopeAt "x" (1, Engine.start.stream)).1 < flatTolerance := by
    rw [slope]
    change |(0 : ℝ)| < 1e-15
    norm_num
  have steep : zeroTolerance ≤ Scalar.abs (1 : ℝ) := by
    change (1e-12 : ℝ) ≤ |1|
    norm_num
  have polynomial : ∀ v s, e.zeroValue "x" v s = polynomialValue (0, 1, 0) v := by
    intro v s
    rw [value, polynomialValue]
    ring
  refine ⟨⟨_, .var⟩, value, by rw [derived]; rfl, ?_, ?_⟩
  · have start : ((1 : ℝ), Engine.start.stream).2 = Engine.start.stream := rfl
    obtain ⟨_, _, -, -, first⟩ := e.newtonFrom_succ "x" 1e-10 100 99 0 none start
    change (e.newtonFrom "x" 1e-10 100 (99 + 1) 0 1 none .start).1 = _
    rw [first, if_neg large, if_pos flat, error]
    norm_num
  · rw [solve_of_line polynomial, solveLinear, if_neg (not_vanishes_of_le steep)]
    norm_num

end DerivativeEngine.Expr
