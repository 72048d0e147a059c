import DerivativeEngine.Proofs.Rewrite.Factoring
import DerivativeEngine.Proofs.Text.Uppercase

/-! Quadratics with integer roots are factored. Whatever a tree looks like, if its values are those
of an integer multiple of two linear factors with integer roots, it becomes the product of two such
factors. A difference of squares is recognised before any sample is taken, and it has the same
roots: its values leave no other leading coefficient than one, and no roots but opposite ones. -/

namespace DerivativeEngine.Expr

inductive LinearFactor (x : String) (r : ℝ) : Expr ℝ → Prop
  | sub : LinearFactor x r (bin .sub (var x) (num r))
  | add : LinearFactor x r (bin .add (var x) (num (-r)))

/-- The product of two linear factors with the roots `r` and `r'`, in any order. -/
def LinearProduct (x : String) (r r' : ℝ) (e : Expr ℝ) : Prop :=
  ∃ f f', LinearFactor x r f ∧ LinearFactor x r' f' ∧ (e = bin .mul f f' ∨ e = bin .mul f' f)

theorem LinearProduct.swap {x : String} {r r' : ℝ} {e : Expr ℝ} (h : LinearProduct x r r' e) :
    LinearProduct x r' r e := by
  obtain ⟨f, f', first, second, product⟩ := h
  exact ⟨f', f, second, first, product.symm⟩

section Squares

variable {a r r' : ℤ} {n c : ℝ}

theorem opposite_of_values (positive : n ≠ 0)
    (values : ∀ v : ℝ, v ^ n - c = a * (v - r) * (v - r')) : a = 1 ∧ r' = -r ∧ c = (r : ℝ) ^ 2 := by
  have atZero := values 0
  have atOne := values 1
  have atTwo := values 2
  rw [Real.zero_rpow positive] at atZero
  rw [Real.one_rpow] at atOne
  have unit : a * (1 - r - r') = 1 := by
    have : (a : ℝ) * (1 - r - r') = 1 := by linear_combination atZero - atOne
    exact_mod_cast this
  have power : (2 : ℝ) ^ n = 2 * a + 2 := by
    have unit : (a : ℝ) * (1 - r - r') = 1 := by exact_mod_cast unit
    linear_combination atTwo - atZero + 2 * unit
  have above : (0 : ℝ) < 2 ^ n := Real.rpow_pos_of_pos two_pos n
  have monic : a = 1 := by
    rcases Int.isUnit_iff.1 (IsUnit.of_mul_eq_one _ unit) with one | minusOne
    · exact one
    · rw [minusOne] at power
      norm_num at power
      exact absurd power above.ne'
  subst monic
  have opposite : r' = -r := by omega
  subst opposite
  refine ⟨rfl, rfl, ?_⟩
  push_cast at atZero
  linear_combination -atZero

end Squares

variable {x : String} {a r r' : ℤ} {e : Expr ℝ}

theorem linearProduct_of_factorSquares (canonical : canonicalName x = x)
    (values : ∀ v s, (e.evaluate (some (.single x v)) s).1 = a * (v - r) * (v - r')) {p : Expr ℝ}
    (found : e.factorSquares x = some p) : a = 1 ∧ LinearProduct x r r' p := by
  unfold factorSquares at found
  split at found
  · next y n c =>
    simp only [Option.ite_none_right_eq_some, Bool.and_eq_true, beq_iff_eq, decide_eq_true_eq,
      Option.map_eq_some_iff] at found
    obtain ⟨⟨⟨rfl, two⟩, -⟩, k, root, rfl⟩ := found
    have exponent : n ≠ 0 := by
      rintro rfl
      have close : |(0 : ℝ) - 2.0| < 1e-12 := of_decide_eq_true two
      norm_num at close
    have powers (v : ℝ) : v ^ n - c = a * (v - r) * (v - r') := by
      rw [← values v (.ofSeed 0)]
      simp only [evaluate, Bindings.valueOf_single canonical]
      rfl
    obtain ⟨monic, rfl, rfl⟩ := opposite_of_values exponent powers
    have magnitude : Scalar.sqrt ((r : ℝ) ^ 2) = ((|r| : ℤ) : ℝ) := by
      rw [Int.cast_abs]
      exact Real.sqrt_sq_eq_abs _
    rw [magnitude, nearInteger?_intCast] at root
    obtain rfl := Option.some.inj root
    refine ⟨monic, ?_⟩
    rcases abs_choice r with same | opposite
    · rw [same, Int.cast_neg]
      refine ⟨_, _, .sub, .add, .inl ?_⟩
      rw [neg_neg]
      rfl
    · rw [opposite, Int.cast_neg]
      exact ⟨_, _, .add, .sub, .inr rfl⟩
  · cases found

section Samples

variable [NumberText ℝ]

theorem linearProduct_of_samples {name : String} (canonical : canonicalName name = x)
    (nonzero : a ≠ 0) (ordered : 0 ≤ a * (r - r')) (squares : e.factorSquares x = none)
    (values : ∀ v s, (e.evaluate (some (.single x v)) s).1 = a * (v - r) * (v - r'))
    (engine : Engine) : ∃ p, LinearProduct x r r' p ∧
      (e.factor name engine).1 = .ok (pure (if a = 1 then p else bin .mul (num (a : ℝ)) p)) :=
  ⟨_, ⟨_, _, .sub, .sub, .inl rfl⟩, factor_of_roots values canonical engine nonzero ordered squares⟩

/-- A tree with the values `a * (x - r) * (x - r')` for integers `a`, `r` and `r'` is factored into
two linear factors with these roots, and the number `a` in front where it is not one. -/
theorem factor_integerRoots {name : String} (nonzero : a ≠ 0)
    (values : ∀ v s, (e.evaluate (some (.single (canonicalName name) v)) s).1 =
      a * (v - r) * (v - r')) (engine : Engine) :
    ∃ p, LinearProduct (canonicalName name) r r' p ∧
      (e.factor name engine).1 = .ok (pure (if a = 1 then p else bin .mul (num (a : ℝ)) p)) := by
  cases squared : e.factorSquares (canonicalName name) with
  | some p =>
    obtain ⟨monic, product⟩ :=
      linearProduct_of_factorSquares (canonicalName_canonicalName name) values squared
    refine ⟨p, product, ?_⟩
    rw [factor_result, squared, if_pos monic]
  | none =>
    rcases le_total 0 (a * (r - r')) with ordered | ordered
    · exact linearProduct_of_samples rfl nonzero ordered squared values engine
    · have swapped (v : ℝ) (s : RandomStream) :
          (e.evaluate (some (.single (canonicalName name) v)) s).1 = a * (v - r') * (v - r) := by
        rw [values]
        ring
      have reversed : 0 ≤ a * (r' - r) := by linarith
      obtain ⟨p, product, factored⟩ :=
        linearProduct_of_samples rfl nonzero reversed squared swapped engine
      exact ⟨p, product.swap, factored⟩

end Samples

theorem factor_integerRoots_negative :
    let e : Expr ℝ := bin .sub (bin .sub (num 12) (bin .mul (num 9) (var "X")))
      (bin .mul (num 3) (bin .pow (var "X") (num 2)))
    (-3 : ℤ) ≠ 0 ∧
      (∀ v s, (e.evaluate (some (.single (canonicalName "x") v)) s).1 =
        (-3 : ℤ) * (v - (1 : ℤ)) * (v - (-4 : ℤ))) ∧
      ∃ p, LinearProduct (canonicalName "x") (1 : ℤ) (-4 : ℤ) p ∧
        (e.factor "x" .start).1 = .ok (pure (bin .mul (num ((-3 : ℤ) : ℝ)) p)) := by
  intro e
  have upper : canonicalName "x" = "X" := by decide +kernel
  have values (v : ℝ) (s : RandomStream) :
      (e.evaluate (some (.single (canonicalName "x") v)) s).1 =
        (-3 : ℤ) * (v - (1 : ℤ)) * (v - (-4 : ℤ)) := by
    change 12 - 9 * valueOf (some (.single (canonicalName "x") v)) "X" -
      3 * BinaryOp.pow.apply (valueOf (some (.single (canonicalName "x") v)) "X") 2 = _
    rw [upper, Bindings.valueOf_single canonicalName_x, apply_pow_two]
    push_cast
    ring
  exact ⟨by decide, values, factor_integerRoots (by decide) values .start⟩

end DerivativeEngine.Expr
