import Mathlib
import DerivativeEngine.Proofs.Expr.Bindings
import DerivativeEngine.Proofs.Rewrite.Simplification
import DerivativeEngine.Rewrite.Factor

/-! Factoring and the value of a tree. Over the real numbers a difference of squares and a sum with
a common factor keep their value, and where nothing was found, the tree is copied. A quadratic is
found by four samples, with all other variables unbound; what comes out has the value of the sampled
quadratic, and so the value of the tree wherever the tree has that value too. -/

namespace DerivativeEngine.Expr

section Comparisons

variable {α : Type} [Scalar α]

def ClearInteger (x : α) : Prop :=
  ∀ n, Scalar.nearestInt? x = some n →
    x = Scalar.ofInt n ∨ factorTolerance ≤ Scalar.abs (x - Scalar.ofInt n)

/-- No number in a difference of squares comes close to what is looked for and misses it. -/
def ClearSquares (x : String) : Expr α → Prop
  | bin .sub (bin .pow (var y) (num n)) (num c) =>
    y = x → Separated (n, 2.0) ∧ (n = 2.0 → 0 < c → ClearInteger (Scalar.sqrt c))
  | _ => True

/-- The roots are integers or not near any, and the leading coefficient is one or not near it. -/
structure ClearQuadratic (a b c : α) : Prop where
  greater : ClearInteger ((-b + Scalar.sqrt (b * b - 4.0 * a * c)) / (2.0 * a))
  smaller : ClearInteger ((-b - Scalar.sqrt (b * b - 4.0 * a * c)) / (2.0 * a))
  leading : a = 1 ∨ factorTolerance ≤ Scalar.abs (a - 1)

theorem eq_of_nearInteger [ExactScalar α] {x k : α} (clear : ClearInteger x)
    (h : nearInteger? x = some k) : x = k := by
  unfold nearInteger? at h
  cases nearest : Scalar.nearestInt? x with
  | none => simp [nearest] at h
  | some n =>
    simp only [nearest, Option.ite_none_right_eq_some, Option.some.injEq] at h
    obtain ⟨close, rfl⟩ := h
    rcases clear n nearest with same | apart
    · exact same
    · exact absurd close (ExactScalar.not_lt_of_le _ _ apart)

/-- The quadratic that a tree is factored as: the sampled one, if it comes to factors. -/
def sampledQuadratic? [NumberText α] (e : Expr α) (x : String) (engine : Engine) :
    Option (α × α × α) :=
  if (e.factorSquares x).isSome then none
  else (e.quadraticCoefficients x engine).1.filter fun (a, b, c) =>
    (factorQuadratic x a b c).isSome

end Comparisons

section Integers

variable {a n m : ℤ}

theorem ofInt_real (n : ℤ) : (Scalar.ofInt n : ℝ) = n := by
  unfold Scalar.ofInt
  split
  · next negative =>
    change -((n.natAbs : ℕ) : ℝ) = n
    rw [Nat.cast_natAbs, abs_of_neg negative, Int.cast_neg, neg_neg]
  · next nonneg =>
    change ((n.natAbs : ℕ) : ℝ) = n
    rw [Nat.cast_natAbs, abs_of_nonneg (not_lt.1 nonneg)]

theorem nearestInt?_intCast (n : ℤ) : Scalar.nearestInt? (n : ℝ) = some n := by
  change some (nearestEven n) = some n
  simp [nearestEven]

theorem clearInteger_of_eq {x : ℝ} {n : ℤ} (whole : x = n) : ClearInteger x := by
  subst whole
  intro m nearest
  obtain rfl := Option.some.inj ((nearestInt?_intCast n).symm.trans nearest)
  exact .inl (ofInt_real n).symm

theorem nearInteger?_intCast (n : ℤ) : nearInteger? (n : ℝ) = some (n : ℝ) := by
  have close : Scalar.abs ((n : ℝ) - n) < (factorTolerance : ℝ) := by
    change |(n : ℝ) - n| < 1e-9
    norm_num
  simp only [nearInteger?, nearestInt?_intCast, ofInt_real, if_pos close]

theorem roots_eq (nonzero : a ≠ 0) (ordered : 0 ≤ a * (n - m)) :
    (-(-(a * (n + m)) : ℝ) + Scalar.sqrt (-(a * (n + m) : ℝ) * -(a * (n + m) : ℝ) -
        4.0 * a * (a * n * m))) / (2.0 * a) = n ∧
      (-(-(a * (n + m)) : ℝ) - Scalar.sqrt (-(a * (n + m) : ℝ) * -(a * (n + m) : ℝ) -
        4.0 * a * (a * n * m))) / (2.0 * a) = m := by
  have leading : (a : ℝ) ≠ 0 := Int.cast_ne_zero.2 nonzero
  have apart : (0 : ℝ) ≤ a * (n - m) := by exact_mod_cast ordered
  have square : (-(a * (n + m) : ℝ) * -(a * (n + m) : ℝ) - 4.0 * a * (a * n * m)) =
      (a * (n - m) : ℝ) ^ 2 := by
    norm_num
    ring
  have root : Scalar.sqrt (-(a * (n + m) : ℝ) * -(a * (n + m) : ℝ) - 4.0 * a * (a * n * m)) =
      a * (n - m) := by
    rw [square]
    exact Real.sqrt_sq apart
  rw [root]
  norm_num
  constructor <;> field_simp <;> ring

theorem leading_intCast (a : ℤ) : (a : ℝ) = 1 ∨ factorTolerance ≤ Scalar.abs ((a : ℝ) - 1) := by
  by_cases one : a = 1
  · exact .inl (by rw [one, Int.cast_one])
  · have whole : (1 : ℝ) ≤ |((a - 1 : ℤ) : ℝ)| := by
      exact_mod_cast Int.one_le_abs (sub_ne_zero.2 one)
    have small : (factorTolerance : ℝ) ≤ 1 := by
      change (1e-9 : ℝ) ≤ 1
      norm_num
    rw [Int.cast_sub, Int.cast_one] at whole
    exact .inr (small.trans whole)

theorem clearQuadratic_of_roots (nonzero : a ≠ 0) (ordered : 0 ≤ a * (n - m)) :
    ClearQuadratic (a : ℝ) (-(a * (n + m))) (a * n * m) where
  greater := clearInteger_of_eq (roots_eq nonzero ordered).1
  smaller := clearInteger_of_eq (roots_eq nonzero ordered).2
  leading := leading_intCast a

theorem factorQuadratic_of_roots (x : String) (nonzero : a ≠ 0) (ordered : 0 ≤ a * (n - m)) :
    factorQuadratic x (a : ℝ) (-(a * (n + m))) (a * n * m) =
      some (if a = 1 then bin .mul (linearFactor .sub x (n : ℝ)) (linearFactor .sub x (m : ℝ))
        else bin .mul (num (a : ℝ))
          (bin .mul (linearFactor .sub x (n : ℝ)) (linearFactor .sub x (m : ℝ)))) := by
  obtain ⟨greater, smaller⟩ := roots_eq nonzero ordered
  have large : ¬ Scalar.abs (a : ℝ) ≤ factorTolerance := by
    have whole : (1 : ℝ) ≤ |(a : ℝ)| := by exact_mod_cast Int.one_le_abs nonzero
    change ¬ |(a : ℝ)| ≤ 1e-9
    norm_num
    linarith
  have real : ¬ (-(a * (n + m) : ℝ) * -(a * (n + m) : ℝ) - 4.0 * a * (a * n * m)) < 0 := by
    norm_num
    nlinarith [sq_nonneg (a * (n - m) : ℝ)]
  have monic : Scalar.abs ((a : ℝ) - 1) < factorTolerance ↔ a = 1 := by
    constructor
    · intro close
      exact Int.cast_eq_one.1 ((leading_intCast a).resolve_right (not_le_of_gt close))
    · rintro rfl
      change |((1 : ℤ) : ℝ) - 1| < 1e-9
      norm_num
  simp only [factorQuadratic, if_neg large, if_neg real, greater, smaller, nearInteger?_intCast,
    monic]

end Integers

section Values

variable {b : Option (Bindings ℝ)} {s : RandomStream} {x : String}

theorem evaluate_factorSquares {e p : Expr ℝ} (clear : e.ClearSquares x)
    (found : e.factorSquares x = some p) : (p.evaluate b s).1 = (e.evaluate b s).1 := by
  unfold factorSquares at found
  split at found
  · next y n c =>
    simp only [Option.ite_none_right_eq_some, Bool.and_eq_true, beq_iff_eq, decide_eq_true_eq,
      Option.map_eq_some_iff] at found
    obtain ⟨⟨⟨rfl, two⟩, positive⟩, k, root, rfl⟩ := found
    obtain ⟨exponent, square⟩ := clear rfl
    obtain rfl := eq_of_near exponent two
    obtain rfl := eq_of_nearInteger (square rfl positive) root
    have roots : √c * √c = c := Real.mul_self_sqrt (le_of_lt positive)
    have power : valueOf b y ^ (2.0 : ℝ) = valueOf b y * valueOf b y := by
      norm_num [pow_two]
    change (valueOf b y - √c) * (valueOf b y + √c) = valueOf b y ^ (2.0 : ℝ) - c
    linear_combination -roots - power
  · cases found

theorem quadratic_eq_product {a b c v : ℝ} (leading : a ≠ 0) (real : 0 ≤ b * b - 4.0 * a * c) :
    a * ((v - (-b + √(b * b - 4.0 * a * c)) / (2.0 * a)) *
      (v - (-b - √(b * b - 4.0 * a * c)) / (2.0 * a))) = a * v * v + b * v + c := by
  have squared := Real.mul_self_sqrt real
  generalize √(b * b - 4.0 * a * c) = root at squared
  norm_num at squared ⊢
  field_simp
  linear_combination -squared

theorem evaluate_factorQuadratic {a₂ a₁ a₀ : ℝ} {p : Expr ℝ} (clear : ClearQuadratic a₂ a₁ a₀)
    (found : factorQuadratic x a₂ a₁ a₀ = some p) :
    (p.evaluate b s).1 = a₂ * valueOf b x * valueOf b x + a₁ * valueOf b x + a₀ := by
  simp only [factorQuadratic, Option.ite_none_left_eq_some] at found
  obtain ⟨large, real, found⟩ := found
  have leading : a₂ ≠ 0 := by
    rintro rfl
    refine large ?_
    change |(0 : ℝ)| ≤ 1e-9
    norm_num
  rw [← quadratic_eq_product leading (not_lt.1 real)]
  split at found
  · next r₁ r₂ first second =>
    obtain rfl := eq_of_nearInteger clear.greater first
    obtain rfl := eq_of_nearInteger clear.smaller second
    obtain rfl := Option.some.inj found
    split
    · next close =>
      obtain rfl := clear.leading.resolve_right (not_le_of_gt close)
      exact (one_mul _).symm
    · rfl
  · cases found

theorem commonDivisor_ok (k c : ℝ) : ∃ d, commonDivisor k c = .ok d := by
  unfold commonDivisor
  split
  · exact ⟨_, rfl⟩
  · exact ⟨_, rfl⟩

theorem factorCommon_ok (e : Expr ℝ) : ∃ r?, e.factorCommon = .ok r? ∧
    ∀ r ∈ r?, (r.value.evaluate b s).1 = (e.evaluate b s).1 := by
  unfold factorCommon
  split
  · next k t c =>
    obtain ⟨d, divisor⟩ := commonDivisor_ok k c
    rw [divisor]
    change ∃ r?, (if d ≤ 1 + factorTolerance then _ else _) = Except.ok r? ∧ _
    split
    · exact ⟨none, rfl, nofun⟩
    · next large =>
      refine ⟨_, rfl, ?_⟩
      rintro r ⟨⟩
      have nonzero : d ≠ 0 := by
        rintro rfl
        refine large ?_
        change (0 : ℝ) ≤ 1 + 1e-9
        norm_num
      have divided (v : ℝ) : d * (k / d * v + c / d) = k * v + c := by
        field_simp
      simp only [Retaining.bind_value, Retaining.pure_value, clone_value]
      exact divided (t.evaluate b s).1
  · exact ⟨none, rfl, nofun⟩

theorem apply_pow_two (v : ℝ) : BinaryOp.pow.apply v 2 = v * v :=
  (Real.rpow_two v).trans (pow_two v)

end Values

section Factors

variable [NumberText ℝ] {x : String}

theorem sampledQuadratic?_of_not_squares {e : Expr ℝ} (engine : Engine)
    (squares : e.factorSquares x = none) :
    (∃ p q, (e.quadraticCoefficients x engine).1.bind (fun (a, b, c) => factorQuadratic x a b c) =
        some p ∧ factorQuadratic x q.1 q.2.1 q.2.2 = some p ∧
          e.sampledQuadratic? x engine = some q) ∨
      (e.quadraticCoefficients x engine).1.bind (fun (a, b, c) => factorQuadratic x a b c) = none ∧
        e.sampledQuadratic? x engine = none := by
  rw [sampledQuadratic?, squares, if_neg (by simp)]
  cases (e.quadraticCoefficients x engine).1 with
  | none => exact .inr ⟨rfl, rfl⟩
  | some q =>
    obtain ⟨a₂, a₁, a₀⟩ := q
    cases found : factorQuadratic x a₂ a₁ a₀ with
    | some p => exact .inl ⟨p, (a₂, a₁, a₀), found, found, by simp [found]⟩
    | none => exact .inr ⟨found, by simp [found]⟩

theorem quadraticCoefficients_of_quadratic {e : Expr ℝ} {a₂ a₁ a₀ : ℝ}
    (samples : ∀ v s, (e.evaluate (some (.single x v)) s).1 = a₂ * v * v + a₁ * v + a₀)
    (engine : Engine) : (e.quadraticCoefficients x engine).1 = some (a₂, a₁, a₀) := by
  have sample {v y : ℝ} (value : a₂ * v * v + a₁ * v + a₀ = y) (engine : Engine) :
      ∃ engine', e.valueAt x v engine = (y, engine') :=
    ⟨_, Prod.ext ((samples v engine.stream).trans value) rfl⟩
  obtain ⟨engine₁, atZero⟩ := sample (v := 0) (y := a₀) (by ring) engine
  obtain ⟨engine₂, atOne⟩ := sample (v := 1) (y := a₂ + a₁ + a₀) (by ring) engine₁
  obtain ⟨engine₃, atMinusOne⟩ := sample (v := -1) (y := a₂ - a₁ + a₀) (by ring) engine₂
  obtain ⟨engine₄, atTwo⟩ :=
    sample (v := 2.0) (y := 4 * a₂ + 2 * a₁ + a₀) (by norm_num; ring) engine₃
  have leading : (a₂ + a₁ + a₀ - a₀ + (a₂ - a₁ + a₀ - a₀)) / 2.0 = a₂ := by
    norm_num
  have linear : (a₂ + a₁ + a₀ - a₀ - (a₂ - a₁ + a₀ - a₀)) / 2.0 = a₁ := by
    norm_num
  have close : Scalar.abs (4 * a₂ + 2 * a₁ + a₀ - (4.0 * a₂ + 2.0 * a₁ + a₀)) <
      (factorTolerance : ℝ) := by
    change |4 * a₂ + 2 * a₁ + a₀ - (4.0 * a₂ + 2.0 * a₁ + a₀)| < 1e-9
    norm_num
  simp only [quadraticCoefficients, bind, StateT.bind, atZero, atOne, atMinusOne, atTwo]
  rw [leading, linear, if_pos close]
  rfl

section Roots

variable {e : Expr ℝ} {a n m : ℤ}
  (samples : ∀ v s, (e.evaluate (some (.single x v)) s).1 = a * (v - n) * (v - m))
include samples

theorem quadraticCoefficients_of_roots (engine : Engine) :
    (e.quadraticCoefficients x engine).1 = some ((a : ℝ), -(a * (n + m) : ℝ), (a : ℝ) * n * m) := by
  refine quadraticCoefficients_of_quadratic (fun v s => ?_) engine
  rw [samples]
  ring

theorem eq_of_sampledQuadratic {engine : Engine} {q : ℝ × ℝ × ℝ}
    (sampled : q ∈ e.sampledQuadratic? x engine) :
    q = ((a : ℝ), -(a * (n + m) : ℝ), (a : ℝ) * n * m) := by
  unfold sampledQuadratic? at sampled
  split at sampled
  · cases sampled
  · rw [quadraticCoefficients_of_roots samples] at sampled
    exact (Option.some.inj (Option.filter_eq_some_iff.1 sampled).1).symm

/-- A tree with the values of two linear factors with integer roots becomes their product. -/
theorem factor_of_roots {name : String} (canonical : canonicalName name = x) (engine : Engine)
    (nonzero : a ≠ 0) (ordered : 0 ≤ a * (n - m)) (squares : e.factorSquares x = none) :
    (e.factor name engine).1 = .ok (pure (if a = 1 then
        bin .mul (linearFactor .sub x (n : ℝ)) (linearFactor .sub x (m : ℝ))
      else bin .mul (num (a : ℝ))
        (bin .mul (linearFactor .sub x (n : ℝ)) (linearFactor .sub x (m : ℝ))))) := by
  have coefficients := quadraticCoefficients_of_roots samples engine
  have factors := factorQuadratic_of_roots x nonzero ordered
  simp only [factor_result, canonical, squares, coefficients, Option.bind_some, factors]

end Roots

/-- Factoring over the real numbers gives a tree, and where no compared number is a near miss, it
keeps the value of the tree, unless it took it for a quadratic that has another value there. -/
theorem evaluate_factor (e : Expr ℝ) (name : String) (engine : Engine)
    (squares : e.ClearSquares (canonicalName name))
    (quadratic : ∀ q ∈ e.sampledQuadratic? (canonicalName name) engine,
      ClearQuadratic q.1 q.2.1 q.2.2) (b : Option (Bindings ℝ)) (s : RandomStream) :
    ∃ r, (e.factor name engine).1 = .ok r ∧ ((r.value.evaluate b s).1 = (e.evaluate b s).1 ↔
      ∀ q ∈ e.sampledQuadratic? (canonicalName name) engine,
        (e.evaluate b s).1 = q.1 * valueOf b (canonicalName name) *
          valueOf b (canonicalName name) + q.2.1 * valueOf b (canonicalName name) + q.2.2) := by
  rw [factor_result]
  generalize canonicalName name = x at *
  cases squared : e.factorSquares x with
  | some p =>
    have unsampled : e.sampledQuadratic? x engine = none := by
      rw [sampledQuadratic?, squared]
      rfl
    rw [unsampled]
    exact ⟨pure p, rfl, iff_of_true (evaluate_factorSquares squares squared) nofun⟩
  | none =>
    rcases sampledQuadratic?_of_not_squares engine squared with
      ⟨p, q, found, factored, sampled⟩ | ⟨found, unsampled⟩
    · have taken := evaluate_factorQuadratic (b := b) (s := s) (quadratic q sampled) factored
      simp only [found, sampled, Option.mem_some, forall_eq', pure]
      exact ⟨_, rfl, taken ▸ eq_comm⟩
    · obtain ⟨r?, common, same⟩ := factorCommon_ok (b := b) (s := s) e
      simp only [found, unsampled, common]
      refine ⟨r?.getD e.clone, rfl, iff_of_true ?_ nofun⟩
      cases r? with
      | none => rw [Option.getD_none, clone_value]
      | some r => exact same r rfl

end Factors

/-- Nothing depends on how real numbers are written. -/
instance : NumberText ℝ := ⟨fun _ => "", fun _ _ => "", fun _ _ => "", fun _ _ => ""⟩

theorem evaluate_factor_trinomial :
    let e : Expr ℝ := bin .add (bin .sub (bin .pow (var "X") (num 2))
      (bin .mul (num 5) (var "X"))) (num 6)
    let b : Bindings ℝ := ⟨[7, 1], some [("X", 0), ("Y", 1)]⟩
    let s : RandomStream := .ofSeed 0
    e.ClearSquares (canonicalName "X") ∧
      (∀ q ∈ e.sampledQuadratic? (canonicalName "X") .start, ClearQuadratic q.1 q.2.1 q.2.2) ∧
      ∃ r, (e.factor "X" .start).1 = .ok r ∧
        r.value = bin .mul (bin .sub (var "X") (num 3)) (bin .sub (var "X") (num 2)) ∧
        (r.value.evaluate (some b) s).1 = (e.evaluate (some b) s).1 := by
  intro e b s
  have value (b : Option (Bindings ℝ)) (s : RandomStream) : (e.evaluate b s).1 =
      (1 : ℤ) * (valueOf b "X" - (3 : ℤ)) * (valueOf b "X" - (2 : ℤ)) := by
    change BinaryOp.pow.apply (valueOf b "X") 2 - 5 * valueOf b "X" + 6 = _
    rw [apply_pow_two]
    push_cast
    ring
  have samples (v : ℝ) (s : RandomStream) : (e.evaluate (some (.single "X" v)) s).1 =
      (1 : ℤ) * (v - (3 : ℤ)) * (v - (2 : ℤ)) := by
    rw [value, Bindings.valueOf_single canonicalName_x]
  have ordered : (0 : ℤ) ≤ 1 * (3 - 2) := by decide
  have product := factor_of_roots samples canonicalName_x .start one_ne_zero ordered rfl
  have quadratic : ∀ q ∈ e.sampledQuadratic? (canonicalName "X") .start,
      ClearQuadratic q.1 q.2.1 q.2.2 := by
    intro q sampled
    rw [canonicalName_x] at sampled
    rw [eq_of_sampledQuadratic samples sampled]
    exact clearQuadratic_of_roots one_ne_zero ordered
  obtain ⟨r, factored, same⟩ := evaluate_factor e "X" .start trivial quadratic (some b) s
  obtain rfl := Except.ok.inj (factored.symm.trans product)
  refine ⟨trivial, quadratic, _, factored, by simp [linearFactor], same.2 fun q sampled => ?_⟩
  rw [canonicalName_x] at sampled ⊢
  rw [eq_of_sampledQuadratic samples sampled, value]
  ring

/-- `X ^ 2 - Y` is sampled where `Y` is zero, and becomes `(X - 0) * (X - 0)`. -/
theorem evaluate_factor_unbound :
    let e : Expr ℝ := bin .sub (bin .pow (var "X") (num 2)) (var "Y")
    let b : Bindings ℝ := ⟨[0, 1], some [("X", 0), ("Y", 1)]⟩
    let s : RandomStream := .ofSeed 0
    e.ClearSquares (canonicalName "X") ∧
      (∀ q ∈ e.sampledQuadratic? (canonicalName "X") .start, ClearQuadratic q.1 q.2.1 q.2.2) ∧
      ∃ r, (e.factor "X" .start).1 = .ok r ∧
        r.value = bin .mul (bin .sub (var "X") (num 0)) (bin .sub (var "X") (num 0)) ∧
        (r.value.evaluate (some b) s).1 = 0 ∧ (e.evaluate (some b) s).1 = -1 := by
  intro e b s
  have value (b : Option (Bindings ℝ)) (s : RandomStream) : (e.evaluate b s).1 =
      valueOf b "X" * valueOf b "X" - valueOf b "Y" :=
    congrArg (· - valueOf b "Y") (apply_pow_two _)
  have other : canonicalName "Y" = "Y" := by decide +kernel
  have samples (v : ℝ) (s : RandomStream) : (e.evaluate (some (.single "X" v)) s).1 =
      (1 : ℤ) * (v - (0 : ℤ)) * (v - (0 : ℤ)) := by
    have unbound : valueOf (some (.single "X" v)) "Y" = 0 := by
      simp [valueOf, Bindings.single, Bindings.ofPairs, Bindings.insert, Bindings.empty,
        Bindings.lookup?, Bindings.index?, Bindings.position?, canonicalName_x, other, assign,
        List.lookup]
    rw [value, Bindings.valueOf_single canonicalName_x, unbound]
    push_cast
    ring
  have bound : valueOf (some b) "X" = 0 ∧ valueOf (some b) "Y" = 1 := by
    simp [b, valueOf, Bindings.lookup?, Bindings.index?, Bindings.position?, canonicalName_x, other,
      List.lookup]
  have product := factor_of_roots samples canonicalName_x .start one_ne_zero (le_refl 0) rfl
  refine ⟨trivial, fun q sampled => ?_, _, product, by simp [linearFactor], ?_, ?_⟩
  · rw [canonicalName_x] at sampled
    rw [eq_of_sampledQuadratic samples sampled]
    exact clearQuadratic_of_roots one_ne_zero (le_refl 0)
  · change (valueOf (some b) "X" - (0 : ℤ)) * (valueOf (some b) "X" - (0 : ℤ)) = 0
    rw [bound.1]
    norm_num
  · rw [value, bound.1, bound.2]
    norm_num

end DerivativeEngine.Expr
