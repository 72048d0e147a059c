import Mathlib
import DerivativeEngine.Equation.Closed
import DerivativeEngine.Proofs.Rewrite.Factoring

/-! Roots in closed form. What is solved is not the equation itself but the line through its samples
at `0`, `1` and `2`, or the parabola through those at `0` to `3`. Over the real numbers every value
that is given is a root of that line or parabola, and so a root of the equation wherever the
equation has the same value; where the equation is a polynomial of degree two at most, it always
has. -/

namespace DerivativeEngine

theorem SolveResult.run_values {α : Type} [Scalar α] [NumberText α] (r : SolveResult α)
    (engine : Engine) : (r.values engine).1 = r.roots := by
  have each : ∀ (vs : List α) (engine : Engine),
      ((vs.map Expr.num).mapM (fun e => e.run .none) engine).1 = vs := by
    intro vs
    induction vs with
    | nil => intro engine; rfl
    | cons v vs ih =>
      intro engine
      rw [List.map_cons, List.mapM_cons]
      exact congrArg (v :: ·) (ih _)
  exact each r.roots engine

namespace Expr

section Samples

variable {α : Type} [Scalar α]

/-- What the difference of the sides is, or the tree itself, with one variable bound and all others
unbound. -/
def zeroValue (equation : Expr α) (name : String) (v : α) (s : RandomStream) : α :=
  (equation.zeroForm.evaluate (some (.single (canonicalName name) v)) s).1

def polynomialValue (q : α × α × α) (v : α) : α := q.1 * v * v + q.2.1 * v + q.2.2

/-- The discriminant is zero, or not near it. -/
def ClearDiscriminant (q : α × α × α) : Prop :=
  let d := q.2.1 * q.2.1 - 4.0 * q.1 * q.2.2
  d = 0 ∨ zeroTolerance ≤ Scalar.abs d

variable [NumberText α]

def sampledLine? (equation : Expr α) (name : String) (engine : Engine) : Option (α × α) :=
  (equation.zeroForm.linearFit (canonicalName name) engine).1

def sampledParabola? (equation : Expr α) (name : String) (engine : Engine) :
    Option (α × α × α) :=
  match equation.zeroForm.linearFit (canonicalName name) engine with
  | (some _, _) => none
  | (none, engine) => (equation.zeroForm.quadraticFit (canonicalName name) engine).1

/-- What an equation is solved as, by its coefficients. -/
def sampledPolynomial? (equation : Expr α) (name : String) (engine : Engine) :
    Option (α × α × α) :=
  match equation.sampledLine? name engine with
  | some (a, b) => some (0, a, b)
  | none => equation.sampledParabola? name engine

theorem solve_result (equation : Expr α) (name : String) (engine : Engine) :
    (equation.solve name engine).1 =
      match equation.sampledLine? name engine with
      | some (a, b) => .ok (solveLinear a b)
      | none =>
        match equation.sampledParabola? name engine with
        | some (a, b, c) => solveQuadratic a b c
        | none => .ok (.none .unsupported) := by
  simp only [solve, sampledLine?, sampledParabola?, bind, StateT.bind]
  rcases equation.zeroForm.linearFit (canonicalName name) engine with ⟨_ | ⟨a, b⟩, engine'⟩
  · simp only [StateT.bind]
    rcases equation.zeroForm.quadraticFit (canonicalName name) engine' with ⟨_ | ⟨a, b, c⟩, _⟩
    · rfl
    · rfl
  · rfl

end Samples

section Roots

variable {a b c v : ℝ}

theorem ne_zero_of_not_vanishes (h : ¬ vanishes a = true) : a ≠ 0 := by
  rintro rfl
  refine h (decide_eq_true ?_)
  change |(0 : ℝ)| < 1e-12
  norm_num

theorem root_of_solveLinear (root : v ∈ (solveLinear a b).roots) : a * v + b = 0 := by
  unfold solveLinear at root
  split at root
  · cases root
  · next large =>
    obtain rfl := List.mem_singleton.1 root
    have leading := ne_zero_of_not_vanishes large
    field_simp
    ring

theorem root_of_solveQuadratic {r : SolveResult ℝ} (clear : ClearDiscriminant (a, b, c))
    (solved : solveQuadratic a b c = .ok r) (root : v ∈ r.roots) :
    a * v * v + b * v + c = 0 := by
  simp only [solveQuadratic] at solved
  split_ifs at solved with small negative double imaginary
  · obtain rfl := Except.ok.inj solved
    cases root
  · obtain rfl := Except.ok.inj solved
    cases root
  · -- A discriminant that is taken for zero is zero.
    have zero : b * b - 4.0 * a * c = 0 :=
      clear.resolve_right (not_le_of_gt (of_decide_eq_true double))
    have leading := ne_zero_of_not_vanishes small
    obtain rfl := Except.ok.inj solved
    obtain rfl := List.mem_singleton.1 root
    norm_num at zero ⊢
    field_simp
    linear_combination -zero
  · have leading := ne_zero_of_not_vanishes small
    obtain rfl := Except.ok.inj solved
    rw [← quadratic_eq_product leading (not_lt.1 imaginary)]
    rcases List.mem_pair.1 root with rfl | rfl
    · exact mul_eq_zero_of_right _ (mul_eq_zero_of_left (sub_self _) _)
    · exact mul_eq_zero_of_right _ (mul_eq_zero_of_right _ (sub_self _))

variable [NumberText ℝ] {equation : Expr ℝ} {name : String} {engine : Engine}

theorem root_of_solve {r : SolveResult ℝ} (solved : (equation.solve name engine).1 = .ok r)
    (clear : ∀ q ∈ equation.sampledParabola? name engine, ClearDiscriminant q)
    (root : v ∈ r.roots) :
    ∃ q ∈ equation.sampledPolynomial? name engine, polynomialValue q v = 0 := by
  rw [solve_result] at solved
  unfold sampledPolynomial?
  split at solved
  · next a b line =>
    obtain rfl := Except.ok.inj solved
    refine ⟨(0, a, b), rfl, ?_⟩
    have zero := root_of_solveLinear root
    simp only [polynomialValue]
    linear_combination zero
  · next line =>
    split at solved
    · next a b c parabola =>
      refine ⟨(a, b, c), parabola, ?_⟩
      exact root_of_solveQuadratic (clear _ parabola) solved root
    · obtain rfl := Except.ok.inj solved
      cases root

section Fits

variable {f : ℝ → ℝ}

theorem valueAt_of_samples {e : Expr ℝ} {x : String}
    (samples : ∀ v s, (e.evaluate (some (.single x v)) s).1 = f v) (v : ℝ) (engine : Engine) :
    ∃ engine', e.valueAt x v engine = (f v, engine') :=
  ⟨_, Prod.ext (samples v engine.stream) rfl⟩

variable (samples : ∀ v s, equation.zeroValue name v s = f v)
include samples

theorem linearFit_of_samples (engine : Engine) :
    ∃ engine', equation.zeroForm.linearFit (canonicalName name) engine =
      (if Scalar.abs (f 2.0 - (2.0 * (f 1 - f 0) + f 0)) < linearTolerance then
        some (f 1 - f 0, f 0) else none, engine') := by
  obtain ⟨engine₁, atZero⟩ := valueAt_of_samples samples 0 engine
  obtain ⟨engine₂, atOne⟩ := valueAt_of_samples samples 1 engine₁
  obtain ⟨engine₃, atTwo⟩ := valueAt_of_samples samples 2.0 engine₂
  refine ⟨engine₃, ?_⟩
  simp only [linearFit, bind, StateT.bind, atZero, atOne, atTwo]
  rfl

theorem quadraticFit_of_samples {a b c : ℝ} (constant : f 0 = c)
    (leading : (f 2.0 - 2.0 * f 1 + c) / 2.0 = a) (linear : f 1 - c - a = b)
    (close : Scalar.abs (f 3.0 - (9.0 * a + 3.0 * b + c)) < quadraticTolerance)
    (engine : Engine) :
    (equation.zeroForm.quadraticFit (canonicalName name) engine).1 = some (a, b, c) := by
  obtain ⟨engine₁, atZero⟩ := valueAt_of_samples samples 0 engine
  obtain ⟨engine₂, atOne⟩ := valueAt_of_samples samples 1 engine₁
  obtain ⟨engine₃, atTwo⟩ := valueAt_of_samples samples 2.0 engine₂
  obtain ⟨engine₄, atThree⟩ := valueAt_of_samples samples 3.0 engine₃
  simp only [quadraticFit, bind, StateT.bind, atZero, atOne, atTwo, atThree, constant, leading,
    linear, if_pos close]
  rfl

end Fits

/-- The equation is a polynomial of degree two at most, and its leading coefficient not near zero
unless it is zero. -/
structure IsPolynomial (equation : Expr ℝ) (name : String) (q : ℝ × ℝ × ℝ) : Prop where
  value : ∀ v s, equation.zeroValue name v s = polynomialValue q v
  leading : q.1 = 0 ∨ linearTolerance ≤ Scalar.abs (2.0 * q.1)

theorem IsPolynomial.sampled {q : ℝ × ℝ × ℝ} (h : equation.IsPolynomial name q)
    (engine : Engine) : equation.sampledPolynomial? name engine = some q ∧
      (q.1 ≠ 0 → equation.sampledLine? name engine = none ∧
        equation.sampledParabola? name engine = some q) := by
  obtain ⟨a, b, c⟩ := q
  obtain ⟨engine', line⟩ := linearFit_of_samples h.value engine
  have slope : polynomialValue (a, b, c) 1 - polynomialValue (a, b, c) 0 = a + b := by
    simp only [polynomialValue]
    ring
  have constant : polynomialValue (a, b, c) 0 = c := by
    simp [polynomialValue]
  have miss : polynomialValue (a, b, c) 2.0 - (2.0 * (a + b) + c) = 2.0 * a := by
    simp only [polynomialValue]
    norm_num
    ring
  rw [slope, constant, miss] at line
  unfold sampledPolynomial? sampledParabola? sampledLine?
  rw [line]
  by_cases straight : Scalar.abs (2.0 * a) < linearTolerance
  · rw [if_pos straight]
    obtain rfl : a = 0 := h.leading.resolve_right (not_le_of_gt straight)
    simp
  · have leading :
        (polynomialValue (a, b, c) 2.0 - 2.0 * polynomialValue (a, b, c) 1 + c) / 2.0 = a := by
      simp only [polynomialValue]
      norm_num
      ring
    have linear : polynomialValue (a, b, c) 1 - c - a = b := by
      simp only [polynomialValue]
      ring
    have exactly : polynomialValue (a, b, c) 3.0 - (9.0 * a + 3.0 * b + c) = 0 := by
      simp only [polynomialValue]
      norm_num
      ring
    have close : Scalar.abs (polynomialValue (a, b, c) 3.0 - (9.0 * a + 3.0 * b + c)) <
        (quadraticTolerance : ℝ) := by
      rw [exactly]
      change |(0 : ℝ)| < 1e-9
      norm_num
    rw [if_neg straight]
    have parabola := quadraticFit_of_samples h.value constant leading linear close engine'
    exact ⟨parabola, fun _ => ⟨rfl, parabola⟩⟩

/-- A value that solving gives is a root of what the equation was sampled as, and so of the equation
wherever that is a polynomial of degree two at most. -/
theorem zeroValue_of_solve {r : SolveResult ℝ} {engine' : Engine}
    (solved : (equation.solve name engine).1 = .ok r)
    (clear : ∀ q ∈ equation.sampledParabola? name engine, ClearDiscriminant q) :
    ∀ v ∈ (r.values engine').1,
      (∃ q ∈ equation.sampledPolynomial? name engine, polynomialValue q v = 0) ∧
      ∀ q, equation.IsPolynomial name q → ∀ s, equation.zeroValue name v s = 0 := by
  intro v returned
  rw [SolveResult.run_values] at returned
  obtain ⟨q, sampled, zero⟩ := root_of_solve solved clear returned
  refine ⟨⟨q, sampled, zero⟩, fun p polynomial s => ?_⟩
  obtain rfl := Option.some.inj ((polynomial.sampled engine).1.symm.trans sampled)
  rw [polynomial.value, zero]

end Roots

theorem zeroValue_of_solve_parabola :
    let e : Expr ℝ := bin .eq (bin .pow (var "X") (num 2))
      (bin .sub (bin .mul (num 5) (var "X")) (num 6))
    e.IsPolynomial "X" (1, -5, 6) ∧
      (∀ q ∈ e.sampledParabola? "X" .start, ClearDiscriminant q) ∧
      ∃ r, (e.solve "X" .start).1 = .ok r ∧ r.hasSolution = true ∧ (r.values .start).1 = [3, 2] ∧
        ∀ v ∈ (r.values .start).1, ∀ s, e.zeroValue "X" v s = 0 := by
  intro e
  have polynomial : e.IsPolynomial "X" (1, -5, 6) := by
    refine ⟨fun v s => ?_, .inr ?_⟩
    · change BinaryOp.pow.apply (valueOf (some (.single (canonicalName "X") v)) "X") 2 -
        (5 * valueOf (some (.single (canonicalName "X") v)) "X" - 6) = _
      rw [canonicalName_x, Bindings.valueOf_single canonicalName_x, apply_pow_two, polynomialValue]
      ring
    · change (1e-10 : ℝ) ≤ |2.0 * 1|
      norm_num
  obtain ⟨line, parabola⟩ := (polynomial.sampled .start).2 one_ne_zero
  have clear : ∀ q ∈ e.sampledParabola? "X" .start, ClearDiscriminant q := by
    rw [parabola]
    rintro q ⟨⟩
    refine .inr ?_
    change (1e-12 : ℝ) ≤ |-5 * -5 - 4.0 * 1 * 6|
    norm_num
  have solved : (e.solve "X" .start).1 = .ok (.found [3, 2]) := by
    have large : ¬ vanishes (1 : ℝ) = true := by
      simp only [vanishes, decide_eq_true_eq]
      change ¬ |(1 : ℝ)| < 1e-12
      norm_num
    have real : ¬ (-5 * -5 - 4.0 * 1 * 6 : ℝ) < -zeroTolerance := by
      change ¬ (-5 * -5 - 4.0 * 1 * 6 : ℝ) < -1e-12
      norm_num
    have apart : ¬ vanishes (-5 * -5 - 4.0 * 1 * 6 : ℝ) = true := by
      simp only [vanishes, decide_eq_true_eq]
      change ¬ |(-5 * -5 - 4.0 * 1 * 6 : ℝ)| < 1e-12
      norm_num
    have positive : ¬ (-5 * -5 - 4.0 * 1 * 6 : ℝ) < 0 := by
      norm_num
    have root : Scalar.sqrt (-5 * -5 - 4.0 * 1 * 6 : ℝ) = 1 := by
      change √(-5 * -5 - 4.0 * 1 * 6 : ℝ) = 1
      norm_num
    rw [solve_result, line, parabola]
    simp only [solveQuadratic, if_neg large, if_neg real, if_neg apart, if_neg positive, root]
    norm_num
  refine ⟨polynomial, clear, _, solved, rfl, SolveResult.run_values _ _, fun v returned s => ?_⟩
  exact (zeroValue_of_solve solved clear v returned).2 _ polynomial s

/-- The samples of `X * (X - 1) * (X - 2) + X - 5` are on a line with the root five, where the
equation itself is sixty. -/
theorem zeroValue_of_solve_cubic :
    let x : Expr ℝ := var "X"
    let e := bin .sub (bin .add
      (bin .mul (bin .mul x (bin .sub x (num 1))) (bin .sub x (num 2))) x) (num 5)
    (∀ q ∈ e.sampledParabola? "X" .start, ClearDiscriminant q) ∧
      e.sampledLine? "X" .start = some (1, -5) ∧
      (∀ s, e.zeroValue "X" 0 s = -5 ∧ e.zeroValue "X" 1 s = -4 ∧ e.zeroValue "X" 2 s = -3) ∧
      ∃ r, (e.solve "X" .start).1 = .ok r ∧ r.hasSolution = true ∧ (r.values .start).1 = [5] ∧
        ∀ s, e.zeroValue "X" 5 s = 60 := by
  intro x e
  have value (v : ℝ) (s : RandomStream) :
      e.zeroValue "X" v s = v * (v - 1) * (v - 2) + v - 5 := by
    have bound : valueOf (some (.single (canonicalName "X") v)) "X" = v := by
      rw [canonicalName_x, Bindings.valueOf_single canonicalName_x]
    change valueOf (some (.single (canonicalName "X") v)) "X" *
      (valueOf (some (.single (canonicalName "X") v)) "X" - 1) *
      (valueOf (some (.single (canonicalName "X") v)) "X" - 2) +
      valueOf (some (.single (canonicalName "X") v)) "X" - 5 = _
    rw [bound]
  obtain ⟨engine', fit⟩ := linearFit_of_samples value .start
  have close : Scalar.abs ((2.0 : ℝ) * (2.0 - 1) * (2.0 - 2) + 2.0 - 5 - (2.0 *
      (1 * (1 - 1) * (1 - 2) + 1 - 5 - (0 * (0 - 1) * (0 - 2) + 0 - 5)) +
        (0 * (0 - 1) * (0 - 2) + 0 - 5))) < linearTolerance := by
    change |_| < (1e-10 : ℝ)
    norm_num
  rw [if_pos close] at fit
  have line : e.sampledLine? "X" .start = some (1, -5) := by
    unfold sampledLine?
    rw [fit]
    norm_num
  have solved : (e.solve "X" .start).1 = .ok (.found [5]) := by
    have large : ¬ vanishes (1 : ℝ) = true := by
      simp only [vanishes, decide_eq_true_eq]
      change ¬ |(1 : ℝ)| < 1e-12
      norm_num
    rw [solve_result, line]
    simp only [solveLinear, if_neg large]
    norm_num
  refine ⟨?_, line, fun s => ?_, _, solved, rfl, SolveResult.run_values _ _, fun s => ?_⟩
  · unfold sampledParabola?
    rw [fit]
    nofun
  · rw [value, value, value]
    norm_num
  · rw [value]
    norm_num

end Expr

end DerivativeEngine
