import Mathlib
import DerivativeEngine.Equation.Quadrature
import DerivativeEngine.Proofs.Equation.Roots

/-! Composite quadrature over the real numbers. Either rule comes to a sum over its panels, in which
an inner end is counted once for each of the two panels that meet there. So a rule is exact on the
polynomials that it is exact on over one panel: those of degree one at most for trapezia, and those
of degree three at most for Simpson's rule, a panel of which is two steps wide. Whatever is
integrated, Simpson's rule is the extrapolation of the trapezoidal one from half as many panels. -/

namespace DerivativeEngine.Expr

open Finset Polynomial

theorem sum_map_range' (g : ℕ → ℝ) (first count step : ℕ) :
    ((List.range' first count step).map g).sum =
      ∑ k ∈ range count, g (first + step * k) := by
  induction count with
  | zero => simp
  | succ count ih =>
    rw [List.range'_concat, List.map_append, List.sum_append, ih, sum_range_succ]
    simp

theorem sum_adjacent (g : ℕ → ℝ) (m : ℕ) :
    ∑ k ∈ range (m + 1), (g k + g (k + 1)) =
      g 0 + 2 * ∑ k ∈ range m, g (k + 1) + g (m + 1) := by
  rw [sum_add_distrib, sum_range_succ', sum_range_succ (fun k => g (k + 1))]
  ring

theorem sum_adjacent_middle (g middle : ℕ → ℝ) (m : ℕ) :
    ∑ k ∈ range (m + 1), (g k + 4 * middle k + g (k + 1)) =
      g 0 + 4 * ∑ k ∈ range (m + 1), middle k + 2 * ∑ k ∈ range m, g (k + 1) + g (m + 1) := by
  have split (k : ℕ) : g k + 4 * middle k + g (k + 1) = g k + g (k + 1) + 4 * middle k := by ring
  simp only [split]
  rw [sum_add_distrib, sum_adjacent, ← mul_sum]
  ring

theorem add_steps (a b : ℝ) {n : ℕ} (positive : 0 < n) : a + n * ((b - a) / n) = b := by
  rw [mul_div_cancel₀ _ (Nat.cast_ne_zero.2 positive.ne')]
  ring

section Rules

variable [NumberText ℝ] {e : Expr ℝ} {x : String} {f : ℝ → ℝ}
  (samples : ∀ v s, (e.evaluate (some (.single x v)) s).1 = f v)
include samples

theorem sumAt_of_samples (a h : ℝ) (first count step : ℕ) (engine : Engine) :
    ∃ engine', e.sumAt x a h (List.range' first count step) engine =
      (∑ k ∈ range count, f (a + (first + step * k : ℕ) * h), engine') := by
  -- The running total starts at any number.
  have general (points : List ℕ) (total : ℝ) (engine : Engine) : ∃ engine',
      points.foldlM (m := Run) (fun total i => do
        return total + (← e.valueAt x (a + Scalar.ofNat i * h))) total engine =
      (total + (points.map fun i : ℕ => f (a + i * h)).sum, engine') := by
    induction points generalizing total engine with
    | nil => exact ⟨engine, by simp [pure, StateT.pure]⟩
    | cons i points ih =>
      obtain ⟨engine₁, sample⟩ := valueAt_of_samples samples (a + Scalar.ofNat i * h) engine
      obtain ⟨engine₂, rest⟩ := ih (total + f (a + Scalar.ofNat i * h)) engine₁
      refine ⟨engine₂, ?_⟩
      rw [List.foldlM_cons, List.map_cons, List.sum_cons, ← add_assoc]
      simp only [bind, StateT.bind, sample]
      exact rest
  obtain ⟨engine', total⟩ := general (List.range' first count step) 0 engine
  refine ⟨engine', ?_⟩
  rwa [zero_add, sum_map_range' fun i : ℕ => f (a + i * h)] at total

theorem trapezoidal_panels (a b : ℝ) {n : ℕ} (positive : 0 < n) (engine : Engine) :
    let h := (b - a) / n
    (e.trapezoidal x a b n engine).1 =
      ∑ k ∈ range n, h / 2 * (f (a + k * h) + f (a + (k + 1 : ℕ) * h)) := by
  intro h
  obtain ⟨m, rfl⟩ := Nat.exists_eq_add_one.2 positive
  obtain ⟨engine₁, interior⟩ := sumAt_of_samples samples a h 1 (m + 1 - 1) 1 engine
  obtain ⟨engine₂, atA⟩ := valueAt_of_samples samples a engine₁
  obtain ⟨engine₃, atB⟩ := valueAt_of_samples samples b engine₂
  have last : a + (m + 1 : ℕ) * h = b := add_steps a b positive
  have value : (e.trapezoidal x a b (m + 1) engine).1 =
      h / 2.0 * (f a + 2.0 * (∑ k ∈ range m, f (a + (1 + 1 * k : ℕ) * h)) + f b) := by
    simp only [trapezoidal, bind, StateT.bind]
    rw [show (b - a) / Scalar.ofNat (m + 1) = h from rfl, interior]
    simp only [atA, atB]
    rfl
  rw [value, ← mul_sum, sum_adjacent fun k => f (a + k * h), last]
  norm_num [add_comm]

theorem simpson_panels (a b : ℝ) {m : ℕ} (positive : 0 < m) (engine : Engine) :
    let h := (b - a) / (2 * m : ℕ)
    (e.simpson x a b (2 * m) engine).1 =
      ∑ k ∈ range m, h / 3 * (f (a + (2 * k : ℕ) * h) + 4 * f (a + (2 * k + 1 : ℕ) * h) +
        f (a + (2 * (k + 1) : ℕ) * h)) := by
  intro h
  obtain ⟨m, rfl⟩ := Nat.exists_eq_add_one.2 positive
  have halves : 2 * (m + 1) / 2 = m + 1 := by omega
  obtain ⟨engine₁, odd⟩ := sumAt_of_samples samples a h 1 (2 * (m + 1) / 2) 2 engine
  obtain ⟨engine₂, even⟩ := sumAt_of_samples samples a h 2 (2 * (m + 1) / 2 - 1) 2 engine₁
  obtain ⟨engine₃, atA⟩ := valueAt_of_samples samples a engine₂
  obtain ⟨engine₄, atB⟩ := valueAt_of_samples samples b engine₃
  have last : a + (2 * (m + 1) : ℕ) * h = b := add_steps a b (by omega)
  have value : (e.simpson x a b (2 * (m + 1)) engine).1 =
      h / 3.0 * (f a + 4.0 * (∑ k ∈ range (m + 1), f (a + (1 + 2 * k : ℕ) * h)) +
        2.0 * (∑ k ∈ range m, f (a + (2 + 2 * k : ℕ) * h)) + f b) := by
    rw [halves] at odd even
    simp only [simpson, bind, StateT.bind, halves]
    rw [show (b - a) / Scalar.ofNat (2 * (m + 1)) = h from rfl, odd]
    simp only [even, atA, atB]
    rfl
  rw [value, ← mul_sum, sum_adjacent_middle (fun k => f (a + (2 * k : ℕ) * h)), last]
  norm_num [add_comm, mul_add]

end Rules

section Integrals

variable {p : ℝ[X]}

theorem integral_eval {n : ℕ} (degree : p.natDegree < n) (u w : ℝ) :
    ∫ v in u..w, p.eval v =
      ∑ i ∈ range n, p.coeff i * ((w ^ (i + 1) - u ^ (i + 1)) / (i + 1)) := by
  simp only [eval_eq_sum_range' degree]
  rw [intervalIntegral.integral_finsetSum fun i _ =>
    Continuous.intervalIntegrable (by fun_prop) u w]
  simp only [intervalIntegral.integral_const_mul, integral_pow]

theorem integral_panel_of_natDegree_le_one (degree : p.natDegree ≤ 1) (u h : ℝ) :
    ∫ v in u..(u + h), p.eval v = h / 2 * (p.eval u + p.eval (u + h)) := by
  rw [integral_eval (Nat.lt_succ_of_le degree)]
  simp only [eval_eq_sum_range' (Nat.lt_succ_of_le degree), sum_range_succ, range_zero, sum_empty]
  norm_num
  ring

theorem integral_panel_of_natDegree_le_three (degree : p.natDegree ≤ 3) (u h : ℝ) :
    ∫ v in u..(u + 2 * h), p.eval v =
      h / 3 * (p.eval u + 4 * p.eval (u + h) + p.eval (u + 2 * h)) := by
  rw [integral_eval (Nat.lt_succ_of_le degree)]
  simp only [eval_eq_sum_range' (Nat.lt_succ_of_le degree), sum_range_succ, range_zero, sum_empty]
  norm_num
  ring

theorem sum_integral_panels (p : ℝ[X]) (a : ℝ) {b h : ℝ} {n : ℕ} (whole : a + n * h = b) :
    ∑ k ∈ range n, ∫ v in (a + k * h)..(a + (k + 1 : ℕ) * h), p.eval v = ∫ v in a..b, p.eval v := by
  have adjacent := intervalIntegral.sum_integral_adjacent_intervals
    (f := fun v => p.eval v) (a := fun k : ℕ => a + k * h) (n := n)
    fun k _ => (p.continuous.intervalIntegrable _ _ : IntervalIntegrable _ MeasureTheory.volume _ _)
  simpa [whole] using adjacent

end Integrals

section Exact

variable [NumberText ℝ] {e : Expr ℝ} {x : String} {p : ℝ[X]}

theorem trapezoidal_eq_integral
    (samples : ∀ v s, (e.evaluate (some (.single x v)) s).1 = p.eval v)
    (degree : p.natDegree ≤ 1) (a b : ℝ) {n : ℕ} (positive : 0 < n) (engine : Engine) :
    (e.trapezoidal x a b n engine).1 = ∫ v in a..b, p.eval v := by
  rw [trapezoidal_panels samples a b positive, ← sum_integral_panels p a (add_steps a b positive)]
  generalize (b - a) / n = h
  have next (k : ℕ) : a + (k + 1 : ℕ) * h = a + k * h + h := by
    push_cast
    ring
  refine sum_congr rfl fun k _ => ?_
  rw [next, integral_panel_of_natDegree_le_one degree]

theorem simpson_eq_integral
    (samples : ∀ v s, (e.evaluate (some (.single x v)) s).1 = p.eval v)
    (degree : p.natDegree ≤ 3) (a b : ℝ) {m : ℕ} (positive : 0 < m) (engine : Engine) :
    (e.simpson x a b (2 * m) engine).1 = ∫ v in a..b, p.eval v := by
  have total := add_steps a b (by omega : 0 < 2 * m)
  rw [simpson_panels samples a b positive]
  generalize (b - a) / (2 * m : ℕ) = h at total ⊢
  -- The panels of the sum are two steps wide.
  have first (k : ℕ) : a + (2 * k : ℕ) * h = a + k * (2 * h) := by
    push_cast
    ring
  have middle (k : ℕ) : a + (2 * k + 1 : ℕ) * h = a + k * (2 * h) + h := by
    push_cast
    ring
  have last (k : ℕ) : a + (k + 1 : ℕ) * (2 * h) = a + k * (2 * h) + 2 * h := by
    push_cast
    ring
  rw [← sum_integral_panels p a ((first m).symm.trans total)]
  refine sum_congr rfl fun k _ => ?_
  rw [first k, middle, first (k + 1), last, integral_panel_of_natDegree_le_three degree]

/-- For every positive number of panels Simpson's rule is exact on cubics, and the trapezoidal rule
on lines. -/
theorem integrate_eq_integral {name : String}
    (samples : ∀ v s, (e.evaluate (some (.single (canonicalName name) v)) s).1 = p.eval v)
    (a b : ℝ) {n : ℤ} (panels : 1 ≤ n) (engine : Engine) :
    (p.natDegree ≤ 3 →
      (e.integrateSimpson name a b n engine).1 = .ok (∫ v in a..b, p.eval v)) ∧
    (p.natDegree ≤ 1 →
      (e.integrateTrapezoidal name a b n engine).1 = .ok (∫ v in a..b, p.eval v)) := by
  have positive : ¬ n ≤ 0 := by omega
  constructor
  · intro degree
    obtain ⟨m, even⟩ : ∃ m, n.toNat + n.toNat % 2 = 2 * m :=
      ⟨(n.toNat + n.toNat % 2) / 2, by omega⟩
    have exact := simpson_eq_integral samples degree a b (by omega : 0 < m) engine
    rw [← even] at exact
    rw [integrateSimpson, if_neg positive, ← exact]
    rfl
  · intro degree
    have exact := trapezoidal_eq_integral samples degree a b (by omega : 0 < n.toNat) engine
    rw [integrateTrapezoidal, if_neg positive, ← exact]
    rfl

end Exact

theorem integrate_eq_integral_odd :
    let line : Expr ℝ := var "X"
    let cube : Expr ℝ := bin .mul (bin .mul line line) line
    (∀ v s, (cube.evaluate (some (.single (canonicalName "X") v)) s).1 = (X ^ 3 : ℝ[X]).eval v) ∧
      (∀ v s, (line.evaluate (some (.single (canonicalName "X") v)) s).1 = (X : ℝ[X]).eval v) ∧
      (cube.integrateSimpson "X" 0 2 3 .start).1 = .ok 4 ∧
      (line.integrateTrapezoidal "X" 0 2 3 .start).1 = .ok 2 := by
  intro line cube
  have bound (v : ℝ) : valueOf (some (.single (canonicalName "X") v)) "X" = v := by
    rw [canonicalName_x, Bindings.valueOf_single canonicalName_x]
  have cubes (v : ℝ) (s : RandomStream) :
      (cube.evaluate (some (.single (canonicalName "X") v)) s).1 = (X ^ 3 : ℝ[X]).eval v := by
    simp only [cube, line, evaluate, BinaryOp.apply, bound, eval_pow, eval_X]
    ring
  have lines (v : ℝ) (s : RandomStream) :
      (line.evaluate (some (.single (canonicalName "X") v)) s).1 = (X : ℝ[X]).eval v := by
    simp only [line, evaluate, bound, eval_X]
  refine ⟨cubes, lines, ?_, ?_⟩
  · rw [(integrate_eq_integral cubes 0 2 (by norm_num) .start).1 (by simp)]
    simp only [eval_pow, eval_X, integral_pow]
    norm_num
  · rw [(integrate_eq_integral lines 0 2 (by norm_num) .start).2 (by simp)]
    simp only [eval_X, integral_id]
    norm_num

section Extrapolation

theorem sum_range_two_mul (g : ℕ → ℝ) (m : ℕ) :
    ∑ k ∈ range (2 * m), g k = ∑ k ∈ range m, (g (2 * k) + g (2 * k + 1)) := by
  induction m with
  | zero => rfl
  | succ m ih =>
    rw [Nat.mul_succ, sum_range_succ, sum_range_succ, sum_range_succ, ih]
    ring

variable [NumberText ℝ] {e : Expr ℝ} {x : String} {f : ℝ → ℝ}

theorem simpson_extrapolates
    (samples : ∀ v s, (e.evaluate (some (.single x v)) s).1 = f v) (a b : ℝ) {m : ℕ}
    (positive : 0 < m) (engine₁ engine₂ engine₃ : Engine) :
    3 * (e.simpson x a b (2 * m) engine₁).1 =
      4 * (e.trapezoidal x a b (2 * m) engine₂).1 - (e.trapezoidal x a b m engine₃).1 := by
  rw [simpson_panels samples a b positive, trapezoidal_panels samples a b (by omega : 0 < 2 * m),
    trapezoidal_panels samples a b positive, sum_range_two_mul]
  have wide : (b - a) / m = 2 * ((b - a) / (2 * m : ℕ)) := by
    push_cast
    rw [mul_div_assoc', mul_div_mul_left _ _ two_ne_zero]
  rw [wide]
  generalize (b - a) / (2 * m : ℕ) = h
  have shared (k : ℕ) : a + k * (2 * h) = a + (2 * k : ℕ) * h := by
    push_cast
    ring
  rw [mul_sum, mul_sum, ← sum_sub_distrib]
  refine sum_congr rfl fun k _ => ?_
  rw [shared, shared, Nat.mul_succ]
  ring

/-- Simpson's rule is what is extrapolated from two trapezoidal sums, for any tree that draws
nothing. -/
theorem three_mul_integrateSimpson (drawless : e.EveryNode DrawsNothing) (name : String)
    (a b : ℝ) {n : ℤ} (panels : 2 ≤ n) (even : Even n) (engine₁ engine₂ engine₃ : Engine) :
    ∃ simpson fine coarse : ℝ,
      (e.integrateSimpson name a b n engine₁).1 = .ok simpson ∧
      (e.integrateTrapezoidal name a b n engine₂).1 = .ok fine ∧
      (e.integrateTrapezoidal name a b (n / 2) engine₃).1 = .ok coarse ∧
      3 * simpson = 4 * fine - coarse := by
  have samples (v : ℝ) (s : RandomStream) :
      (e.evaluate (some (.single (canonicalName name) v)) s).1 =
        e.value (some (.single (canonicalName name) v)) := by
    rw [evaluate_eq_value _ e drawless]
  obtain ⟨m, rfl⟩ := even.two_dvd
  obtain ⟨m, rfl⟩ := Int.eq_ofNat_of_zero_le (by omega : 0 ≤ m)
  have half : 2 * (m : ℤ) / 2 = m := by omega
  have positive : ¬ 2 * (m : ℤ) ≤ 0 := by omega
  have whole : (2 * (m : ℤ)).toNat = 2 * m := by omega
  have evened : (2 * (m : ℤ)).toNat + (2 * (m : ℤ)).toNat % 2 = 2 * m := by omega
  refine ⟨_, _, _, ?_, ?_, ?_,
    simpson_extrapolates samples a b (by omega : 0 < m) engine₁ engine₂ engine₃⟩
  · rw [integrateSimpson, if_neg positive, evened]
    rfl
  · rw [integrateTrapezoidal, if_neg positive, whole]
    rfl
  · rw [half, integrateTrapezoidal, if_neg (by omega), Int.toNat_natCast]
    rfl

end Extrapolation

theorem three_mul_integrateSimpson_sine :
    let sine : Expr ℝ := call "SIN" [var "X"]
    sine.EveryNode DrawsNothing ∧ (2 : ℤ) ≤ 4 ∧ Even (4 : ℤ) ∧ ∃ simpson fine coarse : ℝ,
      (sine.integrateSimpson "X" 0 1 4 .start).1 = .ok simpson ∧
      (sine.integrateTrapezoidal "X" 0 1 4 .start).1 = .ok fine ∧
      (sine.integrateTrapezoidal "X" 0 1 2 .start).1 = .ok coarse ∧
      3 * simpson = 4 * fine - coarse := by
  intro sine
  have drawless : sine.EveryNode DrawsNothing := ⟨trivial, trivial, trivial⟩
  have panels : (2 : ℤ) ≤ 4 := by norm_num
  have even : Even (4 : ℤ) := by decide
  exact ⟨drawless, panels, even,
    three_mul_integrateSimpson drawless "X" 0 1 panels even .start .start .start⟩

end DerivativeEngine.Expr
