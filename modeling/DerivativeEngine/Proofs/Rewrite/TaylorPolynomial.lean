import Mathlib
import DerivativeEngine.Proofs.Rewrite.Differentiation
import DerivativeEngine.Proofs.Rewrite.LinearFactors
import DerivativeEngine.Rewrite.Taylor

/-! The Taylor polynomial of a polynomial is the polynomial itself. A tree of numbers, one variable,
sums, products and powers stands for a polynomial over the real numbers; simplified derivatives are
trees of the same kind, and the `k`-th of them stands for the `k`-th derivative. So the terms that
the series collects are those of the expansion about the centre, and from the degree on the sum is
complete. -/

namespace DerivativeEngine.Expr

open Polynomial

/-- The tree in the variable `x` stands for the polynomial. -/
inductive HasPolynomial (x : String) : Expr ℝ → ℝ[X] → Prop
  | num (c : ℝ) : HasPolynomial x (num c) (C c)
  | var : HasPolynomial x (var x) X
  | add {l r : Expr ℝ} {p q : ℝ[X]} (left : HasPolynomial x l p) (right : HasPolynomial x r q) :
      HasPolynomial x (bin .add l r) (p + q)
  | sub {l r : Expr ℝ} {p q : ℝ[X]} (left : HasPolynomial x l p) (right : HasPolynomial x r q) :
      HasPolynomial x (bin .sub l r) (p - q)
  | mul {l r : Expr ℝ} {p q : ℝ[X]} (left : HasPolynomial x l p) (right : HasPolynomial x r q) :
      HasPolynomial x (bin .mul l r) (p * q)
  | neg {e : Expr ℝ} {p : ℝ[X]} (operand : HasPolynomial x e p) :
      HasPolynomial x (un .neg e) (-p)
  | pow {e : Expr ℝ} {p : ℝ[X]} (base : HasPolynomial x e p) (n : ℕ) (positive : 1 ≤ n) :
      HasPolynomial x (bin .pow e (Expr.num n)) (p ^ n)

def PolynomialIn (x : String) (e : Expr ℝ) : Prop := ∃ p, HasPolynomial x e p

/-- Numbers that are compared while the first `n` derivatives are simplified are no near misses. -/
def SeparatedSlopes (x : String) : ℕ → Expr ℝ → Prop
  | 0, _ => True
  | n + 1, e => (∀ p ∈ (e.differentiate x).value.comparisons, Separated p) ∧
      SeparatedSlopes x n (e.partialDerivative x).value

variable {x : String}

section Values

variable {b : Option (Bindings ℝ)} {e : Expr ℝ} {p : ℝ[X]}

theorem HasPolynomial.everyNode {P : Expr ℝ → Prop} (atomic : Atomic P) (here : P (Expr.var x))
    (h : HasPolynomial x e p) : e.EveryNode P := by
  induction h with
  | num c => exact atomic.num c
  | var => exact here
  | add _ _ ihl ihr | sub _ _ ihl ihr | mul _ _ ihl ihr => exact ⟨atomic.bin _ _ _, ihl, ihr⟩
  | neg _ ih => exact ⟨atomic.un _ _, ih⟩
  | pow _ n _ ih => exact ⟨atomic.bin _ _ _, ih, atomic.num n⟩

theorem HasPolynomial.value_eq (h : HasPolynomial x e p) : e.value b = p.eval (valueOf b x) := by
  induction h with
  | num c => exact eval_C.symm
  | var => exact eval_X.symm
  | add _ _ ihl ihr => rw [value_add, eval_add, ihl, ihr]
  | sub _ _ ihl ihr => rw [value_sub, eval_sub, ihl, ihr]
  | mul _ _ ihl ihr => rw [value_mul, eval_mul, ihl, ihr]
  | neg _ ih => rw [value_neg, eval_neg, ih]
  | pow _ n _ ih =>
    rw [value_pow, eval_pow, ih]
    exact Real.rpow_natCast _ n

theorem derivative_numberPow (x : String) (e : Expr ℝ) (c : ℝ) :
    (Expr.derivative x (bin .pow e (num c))).value =
      bin .mul (bin .mul (num c) (bin .pow e (bin .sub (num c) (num 1))))
        (Expr.derivative x e).value := by
  have free : (num c).mentions x = false := rfl
  rw [Expr.derivative_pow, free, if_neg Bool.false_ne_true]

theorem HasPolynomial.value_derivative (h : HasPolynomial x e p) :
    (Expr.derivative x e).value.value b = (Polynomial.derivative p).eval (valueOf b x) := by
  induction h with
  | num c => simp [Expr.derivative, value]
  | var => simp [Expr.derivative, value]
  | add _ _ ihl ihr => rw [derivative_add, value_add, Polynomial.derivative_add, eval_add, ihl, ihr]
  | sub _ _ ihl ihr => rw [derivative_sub, value_sub, Polynomial.derivative_sub, eval_sub, ihl, ihr]
  | mul left right ihl ihr =>
    rw [derivative_mul, value_add, value_mul, value_mul, Polynomial.derivative_mul, eval_add,
      eval_mul, eval_mul, ihl, ihr, left.value_eq, right.value_eq]
  | neg _ ih => rw [derivative_neg, value_neg, Polynomial.derivative_neg, eval_neg, ih]
  | pow base n positive ih =>
    rw [derivative_numberPow, value_mul, value_mul, value_pow, value_sub, ih, base.value_eq,
      Polynomial.derivative_pow]
    simp only [value, ← Nat.cast_pred positive, Real.rpow_natCast, eval_mul, eval_C, eval_pow]

end Values

section Shape

variable {l r e : Expr ℝ}

theorem PolynomialIn.num (c : ℝ) : PolynomialIn x (num c) := ⟨_, .num c⟩

theorem PolynomialIn.bin {op : BinaryOp} (ring : op = .add ∨ op = .sub ∨ op = .mul)
    (hl : PolynomialIn x l) (hr : PolynomialIn x r) : PolynomialIn x (bin op l r) := by
  obtain ⟨p, hp⟩ := hl
  obtain ⟨q, hq⟩ := hr
  rcases ring with rfl | rfl | rfl
  · exact ⟨_, hp.add hq⟩
  · exact ⟨_, hp.sub hq⟩
  · exact ⟨_, hp.mul hq⟩

theorem PolynomialIn.ite {c : Bool} {e e' : Retaining (Expr ℝ)} (h : PolynomialIn x e.value)
    (h' : PolynomialIn x e'.value) : PolynomialIn x (if c then e else e').value := by
  cases c
  · exact h'
  · exact h

theorem PolynomialIn.splitCoefficient (h : PolynomialIn x e) :
    PolynomialIn x (splitCoefficient e).2 := by
  obtain ⟨p, hp⟩ := h
  unfold Expr.splitCoefficient
  split
  · cases hp with
    | mul _ right => exact ⟨_, right⟩
  · cases hp with
    | mul left _ => exact ⟨_, left⟩
  · exact ⟨p, hp⟩

theorem PolynomialIn.combineLikeTerms (h : PolynomialIn x l) {e : Retaining (Expr ℝ)}
    (combined : combineLikeTerms l r = some e) : PolynomialIn x e.value := by
  have term := h.splitCoefficient
  simp only [Expr.combineLikeTerms, Option.ite_none_right_eq_some, Option.some.injEq] at combined
  obtain ⟨-, rfl⟩ := combined
  refine .ite (.num 0) (.ite ?_ ?_)
  · rwa [clone_value]
  · rw [Retaining.bind_value, clone_value]
    exact .bin (by simp) (.num _) term

theorem PolynomialIn.simplifyBinary {op : BinaryOp} (ring : op = .add ∨ op = .sub ∨ op = .mul)
    (hl : PolynomialIn x l) (hr : PolynomialIn x r) :
    PolynomialIn x (simplifyBinary op l r).value := by
  have both := PolynomialIn.bin ring hl hr
  unfold Expr.simplifyBinary
  split
  · exact .num _
  · rcases ring with rfl | rfl | rfl
    · rw [simplifyOperands_add]
      refine .ite hl (.ite hr ?_)
      cases combined : Expr.combineLikeTerms l r with
      | none => exact both
      | some e => exact hl.combineLikeTerms combined
    · rw [simplifyOperands_sub]
      exact .ite hl both
    · rw [simplifyOperands_mul]
      exact .ite (.num 0) (.ite hl (.ite hr both))

theorem PolynomialIn.simplifyPow (h : PolynomialIn x e) (n : ℕ) :
    PolynomialIn x (Expr.simplifyBinary .pow e (Expr.num n)).value := by
  obtain ⟨p, hp⟩ := h
  unfold Expr.simplifyBinary
  split
  · exact .num _
  · rw [simplifyOperands_pow]
    by_cases zero : ((n : ℝ) == 0) = true
    · have removed : (Expr.num (n : ℝ)).isNumber 0 = true := zero
      rw [removed, if_pos rfl]
      exact .num 1
    · have positive : 1 ≤ n := by
        refine Nat.one_le_iff_ne_zero.2 ?_
        rintro rfl
        exact zero (by simp)
      have stays : (Expr.num (n : ℝ)).isNumber 0 = false := by simpa [isNumber] using zero
      rw [stays, if_neg Bool.false_ne_true]
      exact .ite ⟨p, hp⟩ (.ite (.num 0) (.ite (.num 1) ⟨_, hp.pow n positive⟩))

theorem PolynomialIn.simplifyUnary (h : PolynomialIn x e) :
    PolynomialIn x (Expr.simplifyUnary .neg e) := by
  obtain ⟨p, hp⟩ := h
  unfold Expr.simplifyUnary
  split
  · exact .num _
  · cases hp with
    | neg operand => exact ⟨_, operand⟩
  · exact ⟨_, hp.neg⟩

theorem HasPolynomial.simplify {p : ℝ[X]} (h : HasPolynomial x e p) :
    PolynomialIn x (simplify e).value := by
  induction h with
  | num c => exact .num c
  | var => exact ⟨_, .var⟩
  | add _ _ ihl ihr | sub _ _ ihl ihr | mul _ _ ihl ihr => exact .simplifyBinary (by simp) ihl ihr
  | neg _ ih => exact .simplifyUnary ih
  | pow _ n _ ih => exact .simplifyPow ih n

theorem simplify_lowered {n : ℕ} (positive : 1 ≤ n) :
    (Expr.simplify (bin .sub (num (n : ℝ)) (num 1))).value = num ((n - 1 : ℕ) : ℝ) :=
  congrArg num (Nat.cast_pred positive).symm

theorem HasPolynomial.simplify_derivative {p : ℝ[X]} (h : HasPolynomial x e p) :
    PolynomialIn x (Expr.simplify (Expr.derivative x e).value).value := by
  induction h with
  | num c => exact .num 0
  | var => exact .num _
  | add _ _ ihl ihr | sub _ _ ihl ihr => exact .simplifyBinary (by simp) ihl ihr
  | mul left right ihl ihr =>
    rw [derivative_mul]
    exact .simplifyBinary (by simp) (.simplifyBinary (by simp) ihl right.simplify)
      (.simplifyBinary (by simp) left.simplify ihr)
  | neg _ ih => exact .simplifyUnary ih
  | pow base n positive ih =>
    -- The exponent is folded before the power is simplified.
    have power := base.simplify.simplifyPow (n - 1)
    rw [← simplify_lowered positive] at power
    rw [derivative_numberPow]
    exact .simplifyBinary (by simp) (.simplifyBinary (by simp) (.num _) power) ih

end Shape

/-! No power of zero is removed: exponents are numbers once they are simplified. -/

theorem zeroPower_num (op : BinaryOp) (l : Expr ℝ) (c : ℝ) : zeroPower op l (num c) = [] := by
  cases l <;> simp [zeroPower, areNumbers, isNumber]

theorem zeroPower_of_ne {op : BinaryOp} (other : op ≠ .pow) (l r : Expr ℝ) :
    zeroPower op l r = [] := by
  simp [zeroPower, other]

theorem HasPolynomial.zeroPowers_eq {e : Expr ℝ} {p : ℝ[X]} (h : HasPolynomial x e p) :
    e.zeroPowers = [] := by
  induction h with
  | num c => rfl
  | var => rfl
  | add _ _ ihl ihr | sub _ _ ihl ihr | mul _ _ ihl ihr =>
    simp [zeroPowers, ihl, ihr, zeroPower_of_ne]
  | neg _ ih => exact ih
  | pow _ n _ ih => simp [zeroPowers, ih, Expr.simplify, zeroPower_num]

theorem HasPolynomial.zeroPowers_derivative {e : Expr ℝ} {p : ℝ[X]} (h : HasPolynomial x e p) :
    (Expr.derivative x e).value.zeroPowers = [] := by
  induction h with
  | num c => rfl
  | var => rfl
  | add _ _ ihl ihr =>
    rw [derivative_add]
    simp [zeroPowers, ihl, ihr, zeroPower_of_ne]
  | sub _ _ ihl ihr =>
    rw [derivative_sub]
    simp [zeroPowers, ihl, ihr, zeroPower_of_ne]
  | mul left right ihl ihr =>
    rw [derivative_mul]
    simp [zeroPowers, ihl, ihr, left.zeroPowers_eq, right.zeroPowers_eq, zeroPower_of_ne]
  | neg _ ih => exact ih
  | pow base n positive ih =>
    rw [derivative_numberPow]
    simp [zeroPowers, ih, base.zeroPowers_eq, simplify_lowered positive, zeroPower_num,
      zeroPower_of_ne]

theorem HasPolynomial.value_partialDerivative {e : Expr ℝ} {p : ℝ[X]} (h : HasPolynomial x e p)
    (canonical : canonicalName x = x)
    (separated : ∀ q ∈ (e.differentiate x).value.comparisons, Separated q)
    (b : Option (Bindings ℝ)) :
    (e.partialDerivative x).value.value b = (Polynomial.derivative p).eval (valueOf b x) := by
  have derived : (e.differentiate x).value = (Expr.derivative x e).value := by
    rw [differentiate, canonical]
  have literals : (Expr.derivative x e).value.EveryNode (MeansBy fun _ => 0) :=
    EveryNode.derivative (atomic_meansBy _) (fun _ _ => trivial) x e
      (h.everyNode (atomic_meansBy _) trivial)
  rw [derived] at separated
  rw [← h.value_derivative, partialDerivative, Retaining.bind_value, derived]
  exact value_simplify powerLaws_real _ literals separated (by simp [h.zeroPowers_derivative])

theorem HasPolynomial.partialDerivative {e : Expr ℝ} {p : ℝ[X]} (h : HasPolynomial x e p)
    (canonical : canonicalName x = x)
    (separated : ∀ q ∈ (e.differentiate x).value.comparisons, Separated q) :
    HasPolynomial x (e.partialDerivative x).value (Polynomial.derivative p) := by
  obtain ⟨q, hq⟩ : PolynomialIn x (e.partialDerivative x).value := by
    rw [Expr.partialDerivative, Retaining.bind_value, differentiate, canonical]
    exact h.simplify_derivative
  have same : q = Polynomial.derivative p := by
    refine Polynomial.funext fun t => ?_
    have value := h.value_partialDerivative canonical separated (some (.single x t))
    rwa [hq.value_eq, Bindings.valueOf_single canonical] at value
  exact same ▸ hq

section Expansion

variable {center : ℝ} {b : Option (Bindings ℝ)}

theorem value_taylorBase (x : String) (center : ℝ) :
    (taylorBase x center).value b = valueOf b x - center := by
  unfold taylorBase
  split
  · next zero =>
    rw [beq_iff_eq.1 zero, sub_zero]
    rfl
  · rfl

theorem drawsNothing_taylorBase (x : String) (center : ℝ) :
    (taylorBase x center).EveryNode DrawsNothing := by
  unfold taylorBase
  split
  · trivial
  · exact ⟨trivial, trivial, trivial⟩

theorem value_taylorTerm (base : Expr ℝ) (k : ℕ) (c : ℝ) :
    (taylorTerm base k c).value b = c * base.value b ^ k := by
  match k with
  | 0 => exact (mul_one c).symm.trans (congrArg (c * ·) (pow_zero _).symm)
  | 1 => exact congrArg (c * ·) (pow_one _).symm
  | k + 2 => exact congrArg (c * ·) (Real.rpow_natCast _ (k + 2))

theorem value_sumOfTerms (ts : List (Expr ℝ)) :
    (sumOfTerms ts).value b = (ts.map fun t => t.value b).sum := by
  have folded (ts : List (Expr ℝ)) (t : Expr ℝ) :
      (ts.foldl (bin .add) t).value b = t.value b + (ts.map fun t => t.value b).sum := by
    induction ts generalizing t with
    | nil => exact (add_zero _).symm
    | cons t' ts ih => rw [List.foldl_cons, ih, value_add, List.map_cons, List.sum_cons, add_assoc]
  cases ts with
  | nil => rfl
  | cons t ts => exact folded ts t

noncomputable def keptTerm (base : Expr ℝ) (k : ℕ) (coefficient : ℝ) : List (Expr ℝ) :=
  if taylorCutoff ≤ Scalar.abs coefficient then [taylorTerm base k coefficient] else []

variable {base e : Expr ℝ} {p : ℝ[X]}

theorem drawsNothing_keptTerm (still : base.EveryNode DrawsNothing) (k : ℕ) (c : ℝ) :
    ∀ t ∈ keptTerm base k c, t.EveryNode DrawsNothing := by
  intro t kept
  unfold keptTerm at kept
  split at kept
  · obtain rfl := List.mem_singleton.1 kept
    match k with
    | 0 => trivial
    | 1 => exact ⟨trivial, trivial, still⟩
    | k + 2 => exact ⟨trivial, trivial, trivial, still, trivial⟩
  · cases kept

theorem drawsNothing_sumOfTerms {ts : List (Expr ℝ)} (still : ∀ t ∈ ts, t.EveryNode DrawsNothing) :
    (sumOfTerms ts).EveryNode DrawsNothing := by
  have folded (ts : List (Expr ℝ)) (t : Expr ℝ) (ht : t.EveryNode DrawsNothing)
      (hts : ∀ t ∈ ts, t.EveryNode DrawsNothing) :
      (ts.foldl (bin .add) t).EveryNode DrawsNothing := by
    induction ts generalizing t with
    | nil => exact ht
    | cons t' ts ih =>
      obtain ⟨first, rest⟩ := List.forall_mem_cons.1 hts
      exact ih _ ⟨trivial, ht, first⟩ rest
  cases ts with
  | nil => trivial
  | cons t ts =>
    obtain ⟨first, rest⟩ := List.forall_mem_cons.1 still
    exact folded ts t first rest

theorem sum_keptTerm {k : ℕ} {c : ℝ} (clear : c = 0 ∨ taylorCutoff ≤ Scalar.abs c) :
    ((keptTerm base k c).map fun t => t.value b).sum = c * base.value b ^ k := by
  unfold keptTerm
  split
  · rw [List.map_singleton, List.sum_singleton, value_taylorTerm]
  · next small =>
    rw [clear.resolve_right small, zero_mul]
    rfl

theorem coefficient_eq (k : ℕ) :
    (Polynomial.derivative^[k] p).eval center / (k.factorial : ℝ) =
      (Polynomial.taylor center p).coeff k := by
  have scaled : (k.factorial • hasseDeriv k) p = Polynomial.derivative^[k] p :=
    congrFun (factorial_smul_hasseDeriv k) p
  have nonzero : (k.factorial : ℝ) ≠ 0 := Nat.cast_ne_zero.2 k.factorial_ne_zero
  rw [taylor_coeff, div_eq_iff nonzero, ← scaled]
  simp [mul_comm]

theorem clear_of_integers (q : ℤ[X]) (n : ℤ) (i : ℕ) :
    (Polynomial.taylor (n : ℝ) (q.map (Int.castRingHom ℝ))).coeff i = 0 ∨
      taylorCutoff ≤
        Scalar.abs ((Polynomial.taylor (n : ℝ) (q.map (Int.castRingHom ℝ))).coeff i) := by
  have whole : Polynomial.taylor (n : ℝ) (q.map (Int.castRingHom ℝ)) =
      (Polynomial.taylor n q).map (Int.castRingHom ℝ) := by
    simp [taylor_apply, Polynomial.map_comp]
  rw [whole, coeff_map]
  by_cases zero : (Polynomial.taylor n q).coeff i = 0
  · exact .inl (by rw [zero, map_zero])
  · have large : (1 : ℝ) ≤ |(((Polynomial.taylor n q).coeff i : ℤ) : ℝ)| := by
      exact_mod_cast Int.one_le_abs zero
    have small : (taylorCutoff : ℝ) ≤ 1 := by
      change (1e-12 : ℝ) ≤ 1
      norm_num
    exact .inr (small.trans large)

section Runs

variable [NumberText ℝ]

theorem taylorTerms_zero (base e : Expr ℝ) (k : ℕ) (factorial : ℝ) (engine : Engine) :
    (taylorTerms x center base 0 k factorial e engine).1.value =
      keptTerm base k ((e.valueAt x center engine).1 / factorial) :=
  rfl

theorem taylorTerms_succ (base e : Expr ℝ) (left k : ℕ) (factorial : ℝ) (engine : Engine) :
    (taylorTerms x center base (left + 1) k factorial e engine).1.value =
      keptTerm base k ((e.valueAt x center engine).1 / factorial) ++
        (taylorTerms x center base left (k + 1) (factorial * Scalar.ofNat (k + 1))
          (e.partialDerivative x).value (e.valueAt x center engine).2).1.value :=
  rfl

theorem taylor?_result (e : Expr ℝ) (name : String) (center : ℝ) {order : ℤ} (nonneg : 0 ≤ order)
    (engine : Engine) : ∃ t, (e.taylor? name center order engine).1 = .ok t ∧
      t.value = sumOfTerms (taylorTerms (canonicalName name) center
        (taylorBase (canonicalName name) center) order.toNat 0 1 e engine).1.value := by
  unfold taylor?
  rw [if_neg (not_lt.2 nonneg)]
  exact ⟨_, rfl, rfl⟩

theorem drawsNothing_taylorTerms (still : base.EveryNode DrawsNothing) (left k : ℕ) (f : ℝ)
    (e : Expr ℝ) (engine : Engine) :
    ∀ t ∈ (taylorTerms x center base left k f e engine).1.value, t.EveryNode DrawsNothing := by
  induction left generalizing k f e engine with
  | zero =>
    rw [taylorTerms_zero]
    exact drawsNothing_keptTerm still k _
  | succ left ih =>
    rw [taylorTerms_succ]
    intro t kept
    rcases List.mem_append.1 kept with kept | kept
    · exact drawsNothing_keptTerm still k _ t kept
    · exact ih _ _ _ _ t kept

theorem HasPolynomial.coefficient {k : ℕ} (h : HasPolynomial x e (Polynomial.derivative^[k] p))
    (canonical : canonicalName x = x) (engine : Engine) :
    (e.valueAt x center engine).1 / (k.factorial : ℝ) = (Polynomial.taylor center p).coeff k := by
  have still := h.everyNode atomic_drawsNothing trivial
  have value : (e.valueAt x center engine).1 = (Polynomial.derivative^[k] p).eval center := by
    change (e.evaluate (some (.single x center)) engine.stream).1 = _
    rw [evaluate_eq_value _ _ still, h.value_eq, Bindings.valueOf_single canonical]
  rw [value, coefficient_eq]

theorem sum_taylorTerms (base : Expr ℝ) (b : Option (Bindings ℝ)) (canonical : canonicalName x = x)
    (clear : ∀ i, (Polynomial.taylor center p).coeff i = 0 ∨
      taylorCutoff ≤ Scalar.abs ((Polynomial.taylor center p).coeff i))
    (left k : ℕ) (engine : Engine) (h : HasPolynomial x e (Polynomial.derivative^[k] p))
    (separated : SeparatedSlopes x left e) :
    ((taylorTerms x center base left k (k.factorial : ℝ) e engine).1.value.map
        fun t => t.value b).sum =
      ∑ i ∈ Finset.range (left + 1),
        (Polynomial.taylor center p).coeff (k + i) * base.value b ^ (k + i) := by
  -- The tree at hand stands for the `k`-th derivative, and its simplified derivative for the next
  -- one.
  induction left generalizing k e engine with
  | zero =>
    rw [taylorTerms_zero, h.coefficient canonical, sum_keptTerm (clear k)]
    simp
  | succ left ih =>
    obtain ⟨here, later⟩ := separated
    have next := h.partialDerivative canonical here
    rw [← Function.iterate_succ_apply' Polynomial.derivative] at next
    have rest := ih (k + 1) (e.valueAt x center engine).2 next later
    have factorial : (k.factorial : ℝ) * Scalar.ofNat (k + 1) = ((k + 1).factorial : ℝ) := by
      change (k.factorial : ℝ) * ((k + 1 : ℕ) : ℝ) = _
      rw [Nat.factorial_succ, Nat.cast_mul, mul_comm]
    rw [taylorTerms_succ, List.map_append, List.sum_append, h.coefficient canonical,
      sum_keptTerm (clear k), factorial, rest, Finset.sum_range_succ' _ (left + 1), add_comm]
    simp only [Nat.add_zero, Nat.add_assoc, Nat.add_comm 1]

/-- From the degree on the Taylor polynomial of a polynomial about any centre is the polynomial,
unless a coefficient is too small to be kept or a comparison of numbers is a near miss. -/
theorem evaluate_taylor {name : String} {order : ℤ}
    (h : HasPolynomial (canonicalName name) e p) (degree : (p.natDegree : ℤ) ≤ order)
    (clear : ∀ i, (Polynomial.taylor center p).coeff i = 0 ∨
      taylorCutoff ≤ Scalar.abs ((Polynomial.taylor center p).coeff i))
    (separated : SeparatedSlopes (canonicalName name) order.toNat e) (engine : Engine) :
    ∃ t, (e.taylor? name center order engine).1 = .ok t ∧
      ∀ b s, t.value.evaluate b s = e.evaluate b s := by
  have canonical := canonicalName_canonicalName name
  obtain ⟨t, result, expanded⟩ := taylor?_result e name center (by omega : 0 ≤ order) engine
  refine ⟨t, result, fun b s => ?_⟩
  have complete : (Polynomial.taylor center p).natDegree < order.toNat + 1 := by
    rw [natDegree_taylor]
    omega
  have terms := sum_taylorTerms (taylorBase (canonicalName name) center) b canonical clear
    order.toNat 0 engine h separated
  simp only [Nat.factorial_zero, Nat.cast_one, zero_add, value_taylorBase] at terms
  have still : t.value.EveryNode DrawsNothing := by
    rw [expanded]
    exact drawsNothing_sumOfTerms (drawsNothing_taylorTerms (drawsNothing_taylorBase _ _) _ _ _ _ _)
  have value : t.value.value b = e.value b := by
    rw [expanded, value_sumOfTerms, terms, ← eval_eq_sum_range' complete, taylor_eval,
      sub_add_cancel, h.value_eq]
  rw [evaluate_eq_value b _ still, evaluate_eq_value b _ (h.everyNode atomic_drawsNothing trivial),
    value]

end Runs

theorem evaluate_taylor_cubic :
    let e : Expr ℝ := bin .add (bin .pow (var "X") (num 3)) (bin .mul (var "X") (var "X"))
    let p : ℝ[X] := X ^ 3 + X * X
    HasPolynomial (canonicalName "x") e p ∧ (p.natDegree : ℤ) ≤ 4 ∧
      (∀ i, (Polynomial.taylor 1 p).coeff i = 0 ∨
        taylorCutoff ≤ Scalar.abs ((Polynomial.taylor 1 p).coeff i)) ∧
      SeparatedSlopes (canonicalName "x") (4 : ℤ).toNat e ∧
      ∃ t, (e.taylor? "x" 1 4 .start).1 = .ok t ∧
        ∀ b s, t.value.evaluate b s = e.evaluate b s := by
  intro e p
  have upper : canonicalName "x" = "X" := by decide +kernel
  have shape : HasPolynomial (canonicalName "x") e p := by
    rw [upper]
    have cube : HasPolynomial "X" (bin .pow (var "X") (num (3 : ℕ))) (X ^ 3) :=
      .pow .var 3 (by decide)
    rw [Nat.cast_ofNat] at cube
    exact cube.add (.mul .var .var)
  have degree : (p.natDegree : ℤ) ≤ 4 := by
    have three : p.natDegree ≤ 3 := by
      simp only [p]
      compute_degree
    omega
  have clear (i : ℕ) : (Polynomial.taylor 1 p).coeff i = 0 ∨
      taylorCutoff ≤ Scalar.abs ((Polynomial.taylor 1 p).coeff i) := by
    have integral : p = (X ^ 3 + X * X : ℤ[X]).map (Int.castRingHom ℝ) := by
      simp only [p, Polynomial.map_add, Polynomial.map_mul, Polynomial.map_pow, map_X]
    rw [integral, ← Int.cast_one]
    exact clear_of_integers _ 1 i
  have separated : SeparatedSlopes (canonicalName "x") (4 : ℤ).toNat e := by
    have apart : Separated ((2 : ℝ), (0 : ℝ)) ∧ Separated ((2 : ℝ), (1 : ℝ)) :=
      ⟨.inr (tolerance_le_abs (by norm_num)), .inr (tolerance_le_abs (by norm_num))⟩
    have notZero : near (2 : ℝ) 0 = false := near_eq_false apart.1 (by norm_num)
    have notOne : near (2 : ℝ) 1 = false := near_eq_false apart.2 (by norm_num)
    have lowered : (3 : ℝ) - 1 = 2 ∧ (2 : ℝ) - 1 = 1 ∧ (1 : ℝ) + 1 = 2 := by norm_num
    rw [upper]
    change SeparatedSlopes "X" 4 e
    simp [e, SeparatedSlopes, Expr.partialDerivative, differentiate, Expr.derivative,
      canonicalName_x, clone, mentions, Expr.simplify, Expr.simplifyBinary, simplifyOperands,
      isNumber, Expr.combineLikeTerms, Expr.splitCoefficient, equal, BinaryOp.apply, comparisons,
      comparedOperands, areNumbers, comparedTerms, compared, apart, notZero, notOne, lowered]
  exact ⟨shape, degree, clear, separated,
    evaluate_taylor shape degree clear separated .start⟩

end Expansion

end DerivativeEngine.Expr
