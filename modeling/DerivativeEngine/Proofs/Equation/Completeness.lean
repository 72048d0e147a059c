import DerivativeEngine.Proofs.Equation.Roots

/-! All the roots of a polynomial. Where the zero form of an equation is a polynomial of degree two
at most, and what is compared with a tolerance is zero or well beyond it, solving over the real
numbers gives every root of the polynomial, each once. The line is tried first, and takes no
parabola whose leading coefficient is beyond the tolerance. -/

namespace DerivativeEngine

structure SolveResult.Solves (r : SolveResult ℝ) (f : ℝ → ℝ) : Prop where
  nodup : r.roots.Nodup
  mem_iff : ∀ v, v ∈ r.roots ↔ f v = 0
  hasSolution : r.hasSolution = true ↔ ∃ v, f v = 0

namespace Expr

section Polynomials

variable {a b c : ℝ}

theorem not_vanishes_of_le (large : zeroTolerance ≤ Scalar.abs a) : ¬ vanishes a = true :=
  fun small => not_le_of_gt (of_decide_eq_true small) large

theorem vanishes_zero : vanishes (0 : ℝ) = true := by
  refine decide_eq_true ?_
  change |(0 : ℝ)| < 1e-12
  norm_num

theorem zeroTolerance_pos : (0 : ℝ) < zeroTolerance := by
  change (0 : ℝ) < 1e-12
  norm_num

theorem solves_of_discriminant_zero (leading : a ≠ 0) (zero : b * b - 4.0 * a * c = 0) :
    (SolveResult.found [-b / (2.0 * a)]).Solves (polynomialValue (a, b, c)) := by
  have root (v : ℝ) : polynomialValue (a, b, c) v = 0 ↔ v = -b / (2.0 * a) := by
    have vanishing : discrim a b c = 0 := by
      rw [discrim, ← zero]
      norm_num
      ring
    rw [polynomialValue, mul_assoc, quadratic_eq_zero_iff_of_discrim_eq_zero leading vanishing]
    norm_num
  refine ⟨List.nodup_singleton _, fun v => ?_, fun _ => ⟨_, (root _).2 rfl⟩, fun _ => rfl⟩
  rw [root]
  exact List.mem_singleton

theorem solves_of_discriminant_neg (negative : b * b - 4.0 * a * c < 0) :
    (SolveResult.none .noRealRoot).Solves (polynomialValue (a, b, c)) := by
  have rootless (v : ℝ) : polynomialValue (a, b, c) v ≠ 0 := by
    rw [polynomialValue, mul_assoc]
    refine quadratic_ne_zero_of_discrim_ne_sq (fun s square => ?_) v
    rw [discrim] at square
    norm_num at negative
    nlinarith [sq_nonneg s]
  refine ⟨List.nodup_nil, fun v => ⟨fun given => ?_, fun root => absurd root (rootless v)⟩,
    fun some => ?_, ?_⟩
  · cases given
  · cases some
  · rintro ⟨v, root⟩
    exact absurd root (rootless v)

theorem solves_of_discriminant_pos (leading : a ≠ 0) (positive : 0 < b * b - 4.0 * a * c) :
    (SolveResult.found [(-b + Scalar.sqrt (b * b - 4.0 * a * c)) / (2.0 * a),
      (-b - Scalar.sqrt (b * b - 4.0 * a * c)) / (2.0 * a)]).Solves
        (polynomialValue (a, b, c)) := by
  set s := Scalar.sqrt (b * b - 4.0 * a * c)
  have above : 0 < s := Real.sqrt_pos.2 positive
  have square : discrim a b c = s * s := by
    rw [discrim]
    refine Eq.trans ?_ (Real.mul_self_sqrt positive.le).symm
    norm_num
    ring
  have root (v : ℝ) : polynomialValue (a, b, c) v = 0 ↔
      v = (-b + s) / (2.0 * a) ∨ v = (-b - s) / (2.0 * a) := by
    rw [polynomialValue, mul_assoc, quadratic_eq_zero_iff leading square]
    norm_num
  have apart : (-b + s) / (2.0 * a) ≠ (-b - s) / (2.0 * a) := by
    intro same
    have same := mul_right_cancel₀ (inv_ne_zero (mul_ne_zero (by norm_num) leading)) same
    linarith
  refine ⟨by simpa [SolveResult.found] using apart, fun v => ?_,
    fun _ => ⟨_, (root _).2 (.inl rfl)⟩, fun _ => rfl⟩
  rw [root]
  exact List.mem_pair

theorem solves_solveQuadratic (large : zeroTolerance ≤ Scalar.abs a)
    (clear : b * b - 4.0 * a * c = 0 ∨ zeroTolerance < Scalar.abs (b * b - 4.0 * a * c)) :
    ∃ r, solveQuadratic a b c = .ok r ∧ r.Solves (polynomialValue (a, b, c)) := by
  have present := not_vanishes_of_le large
  have leading := ne_zero_of_not_vanishes present
  have tolerance := zeroTolerance_pos
  simp only [solveQuadratic, if_neg present]
  rcases clear with zero | beyond
  · have real : ¬ b * b - 4.0 * a * c < -zeroTolerance := by linarith
    have double : vanishes (b * b - 4.0 * a * c) = true := zero ▸ vanishes_zero
    rw [if_neg real, if_pos double]
    exact ⟨_, rfl, solves_of_discriminant_zero leading zero⟩
  · rcases lt_abs.1 beyond with positive | negative
    · have real : ¬ b * b - 4.0 * a * c < -zeroTolerance := by linarith
      have notNegative : ¬ b * b - 4.0 * a * c < 0 := by linarith
      rw [if_neg real, if_neg (not_vanishes_of_le beyond.le), if_neg notNegative]
      exact ⟨_, rfl, solves_of_discriminant_pos leading (tolerance.trans positive)⟩
    · rw [if_pos (lt_neg_of_lt_neg negative)]
      exact ⟨_, rfl, solves_of_discriminant_neg (by linarith)⟩

end Polynomials

section Equations

variable [NumberText ℝ] {equation : Expr ℝ} {name : String} {a b c : ℝ}

theorem solve_of_line (value : ∀ v s, equation.zeroValue name v s = polynomialValue (0, b, c) v)
    (engine : Engine) : (equation.solve name engine).1 = .ok (solveLinear b c) := by
  obtain ⟨engine', line⟩ := linearFit_of_samples value engine
  have exactly : polynomialValue (0, b, c) 2.0 - (2.0 * (polynomialValue (0, b, c) 1 -
      polynomialValue (0, b, c) 0) + polynomialValue (0, b, c) 0) = 0 := by
    simp only [polynomialValue]
    norm_num
    ring
  have close : Scalar.abs (0 : ℝ) < linearTolerance := by
    change |(0 : ℝ)| < 1e-10
    norm_num
  have sampled : equation.sampledLine? name engine = some (b, c) := by
    rw [sampledLine?, line, exactly, if_pos close]
    simp [polynomialValue]
  rw [solve_result, sampled]

theorem solve_of_parabola (value : ∀ v s, equation.zeroValue name v s = polynomialValue (a, b, c) v)
    (large : 5e-11 ≤ Scalar.abs a) (engine : Engine) :
    (equation.solve name engine).1 = solveQuadratic a b c := by
  have beyond : (5e-11 : ℝ) ≤ |a| := large
  have leading : linearTolerance ≤ Scalar.abs (2.0 * a) := by
    change (1e-10 : ℝ) ≤ |2.0 * a|
    rw [abs_mul]
    norm_num at beyond ⊢
    linarith
  have present : a ≠ 0 := abs_pos.1 (lt_of_lt_of_le (by norm_num) beyond)
  obtain ⟨line, parabola⟩ := ((IsPolynomial.mk value (.inr leading)).sampled engine).2 present
  rw [solve_result, line, parabola]

/-- Solving an equation whose zero form is `a x² + b x + c`: the one root of a line that is not
flat, no root and the reason for it where the line is flat, and each real root once for a parabola
whose discriminant is zero or beyond the tolerance. -/
theorem solve_polynomial
    (value : ∀ v s, equation.zeroValue name v s = polynomialValue (a, b, c) v) (engine : Engine) :
    (a = 0 → zeroTolerance ≤ Scalar.abs b →
      ∃ r, (equation.solve name engine).1 = .ok r ∧ r.hasSolution = true ∧
        ∀ engine', (r.values engine').1 = [-c / b]) ∧
    (a = 0 → b = 0 →
      ∃ r, (equation.solve name engine).1 = .ok r ∧ r.hasSolution = false ∧ r.roots = [] ∧
        (c = 0 → r.message = "Infinite solutions") ∧
        (zeroTolerance ≤ Scalar.abs c → r.message = "No solution")) ∧
    (5e-11 ≤ Scalar.abs a →
      b * b - 4.0 * a * c = 0 ∨ zeroTolerance < Scalar.abs (b * b - 4.0 * a * c) →
      ∃ r, (equation.solve name engine).1 = .ok r ∧
        (r.hasSolution = true ↔ ∃ v, a * v * v + b * v + c = 0) ∧
        ∀ engine', (r.values engine').1.Nodup ∧
          ∀ v, v ∈ (r.values engine').1 ↔ a * v * v + b * v + c = 0) := by
  refine ⟨fun flat slope => ?_, fun flat level => ?_, fun large clear => ?_⟩
  · subst flat
    rw [solve_of_line value, solveLinear, if_neg (not_vanishes_of_le slope)]
    exact ⟨_, rfl, rfl, fun engine' => SolveResult.run_values _ engine'⟩
  · subst flat level
    rw [solve_of_line value, solveLinear, if_pos vanishes_zero]
    refine ⟨_, rfl, rfl, rfl, fun zero => ?_, fun away => ?_⟩
    · rw [zero, if_pos vanishes_zero]
      rfl
    · rw [if_neg (not_vanishes_of_le away)]
      rfl
  · have beyond : zeroTolerance ≤ Scalar.abs a := by
      have tolerance : (zeroTolerance : ℝ) ≤ 5e-11 := by
        change (1e-12 : ℝ) ≤ 5e-11
        norm_num
      exact tolerance.trans large
    obtain ⟨r, solved, solves⟩ := solves_solveQuadratic beyond clear
    refine ⟨r, (solve_of_parabola value large engine).trans solved, solves.hasSolution,
      fun engine' => ?_⟩
    rw [SolveResult.run_values]
    exact ⟨solves.nodup, solves.mem_iff⟩

end Equations

theorem solve_polynomial_square :
    let e : Expr ℝ := bin .eq (bin .pow (var "X") (num 2)) (num 2)
    (∀ v s, e.zeroValue "X" v s = polynomialValue (1, 0, -2) v) ∧
      ∃ r, (e.solve "X" .start).1 = .ok r ∧ r.hasSolution = true ∧
        (r.values .start).1.Nodup ∧ ∀ v, v ∈ (r.values .start).1 ↔ v = √2 ∨ v = -√2 := by
  intro e
  have value (v : ℝ) (s : RandomStream) :
      e.zeroValue "X" v s = polynomialValue (1, 0, -2) v := by
    change BinaryOp.pow.apply (valueOf (some (.single (canonicalName "X") v)) "X") 2 - 2 = _
    rw [canonicalName_x, Bindings.valueOf_single canonicalName_x, apply_pow_two, polynomialValue]
    ring
  have large : 5e-11 ≤ Scalar.abs (1 : ℝ) := by
    change (5e-11 : ℝ) ≤ |1|
    norm_num
  have clear : (0 * 0 - 4.0 * 1 * -2 : ℝ) = 0 ∨
      zeroTolerance < Scalar.abs (0 * 0 - 4.0 * 1 * -2 : ℝ) := by
    refine .inr ?_
    change (1e-12 : ℝ) < |0 * 0 - 4.0 * 1 * -2|
    norm_num
  have root (v : ℝ) : 1 * v * v + 0 * v + -2 = 0 ↔ v = √2 ∨ v = -√2 := by
    rw [← sq_eq_sq_iff_eq_or_eq_neg, Real.sq_sqrt (by norm_num)]
    constructor
    · intro zero
      linarith
    · intro square
      linarith
  obtain ⟨r, solved, some, roots⟩ := (solve_polynomial value .start).2.2 large clear
  refine ⟨value, r, solved, some.2 ⟨√2, (root _).2 (.inl rfl)⟩, (roots .start).1, fun v => ?_⟩
  rw [(roots .start).2 v, root]

end Expr

end DerivativeEngine
