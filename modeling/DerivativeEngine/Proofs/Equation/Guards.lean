import DerivativeEngine.Optimize.Step
import DerivativeEngine.Proofs.Equation.Roots
import DerivativeEngine.Proofs.Scalar.Magnitude

/-! What the tests of solving keep out. Every divisor of the closed forms has passed the test
against the tolerance, or is a nonzero constant, and so is not zero, in exact arithmetic and in
doubles. The two tests of the discriminant leave one negative number between them, the tolerance
with a minus: there, and only there, a root of a negative number is asked for and solving stops. -/

namespace DerivativeEngine

/-- What passes a test against the tolerance can be divided by, as it is or doubled, and what passes
both tests of a discriminant is below zero for one number only. -/
structure Scalar.GuardLaws (α : Type) [Scalar α] : Prop where
  two : ((2.0 : α) == 0) = false
  leading : ∀ a : α, Expr.vanishes a = false → (a == 0) = false
  doubled : ∀ a : α, Expr.vanishes a = false → (2.0 * a == 0) = false
  between : ∀ d : α, (d == -Expr.zeroTolerance) = true ↔
    ¬ d < -Expr.zeroTolerance ∧ Expr.vanishes d = false ∧ d < 0

theorem guardLaws_real : Scalar.GuardLaws ℝ where
  two := by
    rw [beq_eq_false_iff_ne]
    norm_num
  leading a beyond := by
    rw [beq_eq_false_iff_ne]
    exact Expr.ne_zero_of_not_vanishes (by simp [beyond])
  doubled a beyond := by
    rw [beq_eq_false_iff_ne]
    exact mul_ne_zero (by norm_num) (Expr.ne_zero_of_not_vanishes (by simp [beyond]))
  between d := by
    have tolerance : (0 : ℝ) < Expr.zeroTolerance := by
      change (0 : ℝ) < 1e-12
      norm_num
    have beyond : Expr.vanishes d = false ↔ Expr.zeroTolerance ≤ |d| := by
      rw [Expr.vanishes, decide_eq_false_iff_not, not_lt]
      rfl
    rw [beq_iff_eq, beyond]
    constructor
    · rintro rfl
      refine ⟨lt_irrefl _, ?_, by linarith⟩
      rw [abs_neg]
      exact le_abs_self _
    · rintro ⟨above, large, below⟩
      rw [abs_of_neg below] at large
      linarith

open Double in
theorem guardLaws_double : Scalar.GuardLaws Float := by
  obtain ⟨n, e, pos, above, full⟩ : ∃ n e pos, -1074 < e ∧
      (Expr.zeroTolerance : Float).toModel.unpack = .finite .positive n e pos :=
    ⟨_, _, _, by decide, rfl⟩
  have number : IsNumber (Expr.zeroTolerance : Float) := by
    rw [isNumber_iff, full]
    nofun
  have negated : IsNumber (-Expr.zeroTolerance : Float) := by
    rw [isNumber_iff, unpack_neg number, full]
    nofun
  have exponent {a : Float} (beyond : Expr.vanishes a = false) : exponent a ≠ 0#11 :=
    fun bottom => of_decide_eq_false beyond (abs_lt_of_exponent full above bottom)
  refine ⟨by decide, fun a beyond => ?_, fun a beyond => two_mul_beq_zero (exponent beyond),
    fun d => ⟨fun same => ?_, fun ⟨above, beyond, below⟩ => ?_⟩⟩
  · exact Bool.eq_false_iff.2 fun zero =>
      exponent beyond (exponent_of_zeroed (beq_zero_iff.1 zero))
  · obtain rfl : d = -Expr.zeroTolerance := by
      rcases unpack_of_beq same with equal | ⟨-, t, zero⟩
      · exact eq_of_unpack (isNumber_iff.2 (equal ▸ isNumber_iff.1 negated)) negated equal
      · cases zero
    decide
  · exact beq_neg_of_not_lt number below above (of_decide_eq_false beyond)

namespace Expr

variable {α : Type} [Scalar α]

def checkedLinear (a b : α) : Except ArithmeticFault (SolveResult α) :=
  if vanishes a then .ok (.none (if vanishes b then .everyNumber else .noNumber))
  else do return .found [← divide (-b) a]

def checkedQuadratic (a b c : α) : Except ArithmeticFault (SolveResult α) :=
  if vanishes a then .ok (.none .notQuadratic)
  else
    let discriminant := b * b - 4.0 * a * c
    if discriminant < -zeroTolerance then .ok (.none .noRealRoot)
    else if vanishes discriminant then do return .found [← divide (-b) (2.0 * a)]
    else do
      let s ← root discriminant
      return .found [← divide (-b + s) (2.0 * a), ← divide (-b - s) (2.0 * a)]

/-- The leading coefficient is beyond the tolerance, and the discriminant is the negative of it. -/
def OnBoundary (q : α × α × α) : Prop :=
  vanishes q.1 = false ∧ (q.2.1 * q.2.1 - 4.0 * q.1 * q.2.2 == -zeroTolerance) = true

theorem divide_of_ne_zero {x y : α} (apart : (y == 0) = false) : divide x y = .ok (x / y) := by
  rw [divide, apart]
  rfl

section Laws

variable (laws : Scalar.GuardLaws α) {a b c : α}
include laws

theorem checkedLinear_eq : checkedLinear a b = .ok (solveLinear a b) := by
  unfold checkedLinear solveLinear
  cases beyond : vanishes a with
  | true => rfl
  | false =>
    rw [divide_of_ne_zero (laws.leading a beyond)]
    rfl

theorem checkedQuadratic_eq : checkedQuadratic a b c = solveQuadratic a b c := by
  unfold checkedQuadratic solveQuadratic
  cases beyond : vanishes a with
  | true => rfl
  | false =>
    simp only [divide_of_ne_zero (laws.doubled a beyond), root]
    split_ifs <;> rfl

theorem solveQuadratic_error {f : ArithmeticFault} :
    solveQuadratic a b c = .error f ↔ f = .negativeRoot ∧ OnBoundary (a, b, c) := by
  unfold OnBoundary
  rw [laws.between]
  simp only [solveQuadratic]
  split_ifs with small imaginary double below
  · simp [small]
  · simp [imaginary]
  · simp [double]
  · refine ⟨fun stopped => ⟨(Except.error.inj stopped).symm, ?_⟩, fun stopped => stopped.1 ▸ rfl⟩
    exact ⟨Bool.eq_false_iff.2 small, imaginary, Bool.eq_false_iff.2 double, below⟩
  · simp [below]

variable [NumberText α]

def checkedFit (e : Expr α) (x : String) :
    Run (Except ArithmeticFault (Option (α × α × α))) := do
  let y₀ ← e.valueAt x 0
  let y₁ ← e.valueAt x 1
  let y₂ ← e.valueAt x 2.0
  match divide (y₂ - 2.0 * y₁ + y₀) 2.0 with
  | .error fault => return .error fault
  | .ok a =>
    let b := y₁ - y₀ - a
    let atThree ← e.valueAt x 3.0
    return .ok (if Scalar.abs (atThree - (9.0 * a + 3.0 * b + y₀)) < quadraticTolerance then
      some (a, b, y₀) else none)

theorem checkedFit_eq (e : Expr α) (x : String) :
    e.checkedFit x = Except.ok <$> e.quadraticFit x := by
  simp only [checkedFit, quadraticFit, divide_of_ne_zero laws.two, map_bind, map_pure]

def checkedSolve (equation : Expr α) (name : String) :
    Run (Except ArithmeticFault (SolveResult α)) := do
  let e := equation.zeroForm
  let x := canonicalName name
  match ← e.linearFit x with
  | some (a, b) => return checkedLinear a b
  | none =>
    match ← e.checkedFit x with
    | .error fault => return .error fault
    | .ok (some (a, b, c)) => return checkedQuadratic a b c
    | .ok none => return .ok (.none .unsupported)

theorem checkedSolve_eq (equation : Expr α) (name : String) :
    equation.checkedSolve name = equation.solve name := by
  simp only [checkedSolve, solve, checkedFit_eq laws, checkedLinear_eq laws,
    checkedQuadratic_eq laws, bind_map_left]
  refine bind_congr fun line => ?_
  cases line with
  | some line => rfl
  | none => exact bind_congr fun parabola => by cases parabola <;> rfl

theorem solve_error {equation : Expr α} {name : String} {engine : Engine} {f : ArithmeticFault} :
    (equation.solve name engine).1 = .error f ↔
      f = .negativeRoot ∧ ∃ q ∈ equation.sampledParabola? name engine, OnBoundary q := by
  rw [solve_result]
  cases line : equation.sampledLine? name engine with
  | some line =>
    have none : equation.sampledParabola? name engine = none := by
      unfold sampledLine? at line
      unfold sampledParabola?
      split
      · rfl
      · simp_all
    simp [none]
  | none =>
    cases equation.sampledParabola? name engine with
    | some q => simp [solveQuadratic_error laws]
    | none => simp

/-- No divisor is zero, and no number below zero is asked for its root, except on the boundary
between the two tests of the discriminant. -/
structure Guarded (equation : Expr α) (name : String) : Prop where
  checked : equation.checkedSolve name = equation.solve name
  returns : ∀ engine, (∃ r, (equation.solve name engine).1 = .ok r) ↔
    ∀ q ∈ equation.sampledParabola? name engine, ¬ OnBoundary q
  fault : ∀ engine f, (equation.solve name engine).1 = .error f → f = .negativeRoot

theorem guarded (equation : Expr α) (name : String) : equation.Guarded name where
  checked := checkedSolve_eq laws equation name
  returns engine := by
    constructor
    · rintro ⟨r, returned⟩ q sampled boundary
      have stopped := (solve_error laws).2 ⟨rfl, q, sampled, boundary⟩
      rw [returned] at stopped
      cases stopped
    · intro inside
      cases result : (equation.solve name engine).1 with
      | ok r => exact ⟨r, rfl⟩
      | error f =>
        obtain ⟨-, q, sampled, boundary⟩ := (solve_error laws).1 result
        exact absurd boundary (inside q sampled)
  fault engine f stopped := ((solve_error laws).1 stopped).1

end Laws

/-- Over exact arithmetic and over doubles, every equation is solved as it would be with checked
divisions and roots, and solving returns unless a sampled parabola is on the boundary, where it
stops at the root of a negative discriminant. -/
theorem solve_guarded [NumberText ℝ] (name : String) :
    (∀ equation : Expr ℝ, equation.Guarded name) ∧ ∀ equation : Expr Float, equation.Guarded name :=
  ⟨fun equation => guarded guardLaws_real equation name,
    fun equation => guarded guardLaws_double equation name⟩

/-- `1048576 * X * X + 1e-12 / 4194304`, whose discriminant is `-1e-12`. -/
def edge : Expr α :=
  bin .add (bin .mul (num 1048576.0) (bin .mul (var "X") (var "X")))
    (num 2.384185791015625e-19)

/-- Solving stops on the boundary, in exact arithmetic and in doubles. -/
theorem not_ok_of_edge :
    (∀ [NumberText ℝ], ((edge : Expr ℝ).solve "X" .start).1 = .error .negativeRoot) ∧
      ((edge : Expr Float).solve "X" .start).1 = .error .negativeRoot := by
  constructor
  · intro _
    have polynomial : (edge : Expr ℝ).IsPolynomial "X" (1048576, 0, 2.384185791015625e-19) := by
      refine ⟨fun v s => ?_, .inr ?_⟩
      · change (1048576.0 : ℝ) * (valueOf (some (.single (canonicalName "X") v)) "X" *
          valueOf (some (.single (canonicalName "X") v)) "X") + 2.384185791015625e-19 = _
        rw [canonicalName_x, Bindings.valueOf_single canonicalName_x, polynomialValue]
        norm_num
        ring
      · change (1e-10 : ℝ) ≤ |2.0 * 1048576|
        norm_num
    have boundary : OnBoundary ((1048576, 0, 2.384185791015625e-19) : ℝ × ℝ × ℝ) := by
      constructor
      · rw [vanishes, decide_eq_false_iff_not]
        change ¬ |(1048576 : ℝ)| < 1e-12
        norm_num
      · rw [beq_iff_eq]
        change (0 * 0 - 4.0 * 1048576 * 2.384185791015625e-19 : ℝ) = -1e-12
        norm_num
    have sampled := ((polynomial.sampled .start).2 (by norm_num)).2
    exact (solve_error guardLaws_real).2 ⟨rfl, _, sampled, boundary⟩
  · have stopped : ((edge : Expr Float).solve "X" .start).1.toOption.isNone = true := by
      decide +kernel
    cases result : ((edge : Expr Float).solve "X" .start).1 with
    | ok r =>
      rw [result] at stopped
      cases stopped
    | error f => rw [(guarded guardLaws_double edge "X").fault .start f result]

end Expr

end DerivativeEngine
