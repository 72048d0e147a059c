import Mathlib
import DerivativeEngine.Proofs.Expr.Draws
import DerivativeEngine.Proofs.Rewrite.Differentiation
import DerivativeEngine.Proofs.Rewrite.Simplification
import DerivativeEngine.Rewrite.Antiderivative

/-! Symbolic antiderivatives are antiderivatives. Over the real numbers, the value of the integrated
tree as a function of one variable has the value of the tree as its derivative, for all trees that
the rules reach, wherever the parts of the tree are defined. The rules put a constant factor in
front, so it is evaluated first: this must not change what is drawn, and it does not unless both
factors draw. Apart from that the integrated tree draws what the tree draws. -/

namespace DerivativeEngine.Expr

def integrated : List String := ["SIN", "COS", "EXP", "LN", "LOG"]

/-- The trees that integration by `x` has rules for, with all parts defined where `x` is `v`. -/
inductive Integrable (x : String) (v : ℝ) : Expr ℝ → Prop
  | num (c : ℝ) : Integrable x v (num c)
  | var (y : String) : Integrable x v (var y)
  | add {l r : Expr ℝ} (left : Integrable x v l) (right : Integrable x v r) :
      Integrable x v (bin .add l r)
  | sub {l r : Expr ℝ} (left : Integrable x v l) (right : Integrable x v r) :
      Integrable x v (bin .sub l r)
  | neg {e : Expr ℝ} (operand : Integrable x v e) : Integrable x v (un .neg e)
  | constMul {l r : Expr ℝ} (free : l.mentions x = false) (right : Integrable x v r) :
      Integrable x v (bin .mul l r)
  | mulConst {l r : Expr ℝ} (mentioned : l.mentions x = true) (free : r.mentions x = false)
      (left : Integrable x v l) : Integrable x v (bin .mul l r)
  | power {n : ℝ} (clear : Separated (n, -1)) (nonzero : ∀ k : ℤ, n = k → k < 0 → v ≠ 0)
      (positive : (n = -1 ∨ ∀ k : ℤ, n ≠ k) → 0 < v) :
      Integrable x v (bin .pow (Expr.var x) (Expr.num n))
  | call {name : String} (known : name ∈ integrated)
      (positive : name ∈ ["LN", "LOG"] → 0 < v) : Integrable x v (call name [Expr.var x])

def Spelled {α : Type} (x : String) : Expr α → Prop
  | var y => canonicalName y = x → y = x
  | _ => True

/-- Of two factors that change places one draws nothing. -/
def DrawsInOrder {α : Type} (x : String) : Expr α → Prop
  | bin .mul l r => l.mentions x = true → l.EveryNode DrawsNothing ∨ r.EveryNode DrawsNothing
  | _ => True

section Rules

variable {α : Type} [Scalar α] (x : String) {l r : Expr α}

theorem antiderivative_add : (antiderivative x (bin .add l r)).value =
    bin .add (antiderivative x l).value (antiderivative x r).value := rfl

theorem antiderivative_sub : (antiderivative x (bin .sub l r)).value =
    bin .sub (antiderivative x l).value (antiderivative x r).value := rfl

theorem antiderivative_var_self :
    (antiderivative x (var x : Expr α)).value = bin .div (square (var x)) (num 2.0) :=
  if_pos (beq_self_eq_true x)

theorem antiderivative_var_of_ne {y : String} (other : y ≠ x) :
    (antiderivative x (var y : Expr α)).value = bin .mul (var y) (var x) :=
  if_neg (ne_true_of_eq_false (beq_eq_false_iff_ne.2 other))

theorem antiderivative_mul : antiderivative x (bin .mul l r) =
    if !l.mentions x then do return bin .mul (← l.clone) (← antiderivative x r)
    else if !r.mentions x then do return bin .mul (← r.clone) (← antiderivative x l)
    else pure (num 0) := rfl

theorem antiderivative_constMul (free : l.mentions x = false) :
    (antiderivative x (bin .mul l r)).value = bin .mul l (antiderivative x r).value := by
  simp [antiderivative_mul, free]

theorem antiderivative_mulConst (mentioned : l.mentions x = true) (free : r.mentions x = false) :
    (antiderivative x (bin .mul l r)).value = bin .mul r (antiderivative x l).value := by
  simp [antiderivative_mul, mentioned, free]

theorem antiderivative_power (n : α) :
    (antiderivative x (bin .pow (var x) (num n))).value = integralOfPower x n :=
  if_pos (beq_self_eq_true x)

theorem antiderivative_call (name : String) :
    (antiderivative x (call name [var x] : Expr α)).value = integralOfCall x name :=
  if_pos (beq_self_eq_true x)

theorem integralOfCall_sin :
    (integralOfCall x "SIN" : Expr α) = un .neg (apply1 "COS" (var x)) := by
  simp [integralOfCall]

theorem integralOfCall_cos : (integralOfCall x "COS" : Expr α) = apply1 "SIN" (var x) := by
  simp [integralOfCall]

theorem integralOfCall_exp : (integralOfCall x "EXP" : Expr α) = apply1 "EXP" (var x) := by
  simp [integralOfCall]

end Rules

theorem drawsNothing_integralOfPower (x : String) (n : ℝ) :
    (integralOfPower x n).EveryNode DrawsNothing := by
  unfold integralOfPower
  split <;> simp [apply1, EveryNode, EveryNodes, DrawsNothing]

theorem drawsNothing_integralOfCall (x name : String) :
    (integralOfCall x name : Expr ℝ).EveryNode DrawsNothing := by
  unfold integralOfCall
  split_ifs <;> simp [apply1, EveryNode, EveryNodes, DrawsNothing]

theorem stream_antiderivative {x : String} {v : ℝ} {e : Expr ℝ} (integrable : Integrable x v e)
    (b : Option (Bindings ℝ)) : e.EveryNode (DrawsInOrder x) →
      ∀ s, ((antiderivative x e).value.evaluate b s).2 = (e.evaluate b s).2 := by
  induction integrable with
  | num c => exact fun _ _ => rfl
  | var y =>
    intro _ s
    by_cases same : y = x
    · subst same
      rw [antiderivative_var_self]
      rfl
    · rw [antiderivative_var_of_ne x same]
      rfl
  | add left right ihl ihr | sub left right ihl ihr =>
    intro ordered s
    simp only [antiderivative_add, antiderivative_sub, evaluate_bin, ihl ordered.2.1,
      ihr ordered.2.2]
  | neg operand ih => exact fun ordered => ih ordered.2
  | constMul free right ih =>
    intro ordered s
    simp only [antiderivative_constMul x free, evaluate_bin, ih ordered.2.2]
  | mulConst mentioned free left ih =>
    intro ordered s
    simp only [antiderivative_mulConst x mentioned free, evaluate_bin, ih ordered.2.1]
    rcases ordered.1 mentioned with still | still
    · simp only [evaluate_eq_value b _ still]
    · simp only [evaluate_eq_value b _ still]
  | power clear nonzero positive =>
    intro _ s
    rw [antiderivative_power, evaluate_eq_value b _ (drawsNothing_integralOfPower x _)]
    rfl
  | call known positive =>
    intro _ s
    rw [antiderivative_call, evaluate_eq_value b _ (drawsNothing_integralOfCall x _),
      evaluate_apply]
    rfl

section Slopes

variable {b : Option (Bindings ℝ)} {c : ℝ → Option (Bindings ℝ)} {x : String} {v : ℝ}

theorem evaluate_eq_of_not_mentions (rebinds : ∀ t, Bindings.Rebinds b x t (c t)) {e : Expr ℝ}
    (spelled : e.EveryNode (Spelled x)) (free : e.mentions x = false) (t u : ℝ) :
    e.evaluate (c t) = e.evaluate (c u) := by
  apply evaluate_congr
  intro y mentioned
  have other : canonicalName y ≠ x := by
    intro same
    obtain rfl : y = x := EveryNode.of_mentions e spelled mentioned same
    exact Bool.false_ne_true (free.symm.trans mentioned)
  have canonical := canonicalName_canonicalName y
  rw [← valueOf_canonicalName (c t), ← valueOf_canonicalName (c u),
    (rebinds t).others _ canonical other, (rebinds u).others _ canonical other]

theorem hasDerivAt_integralOfPower (bound : ∀ t, valueOf (c t) x = t) {n : ℝ}
    (clear : Separated (n, -1)) (nonzero : ∀ k : ℤ, n = k → k < 0 → v ≠ 0)
    (positive : (n = -1 ∨ ∀ k : ℤ, n ≠ k) → 0 < v) (s : RandomStream) :
    HasDerivAt (fun t => ((integralOfPower x n).evaluate (c t) s).1) (v ^ n) v := by
  unfold integralOfPower
  split
  · next reciprocal =>
    obtain rfl : n = -1 := eq_of_near clear reciprocal
    have logarithm := hasDerivAt_guardedLog (hasDerivAt_id' v) (positive (.inl rfl))
    simp only [apply1, evaluate_apply]
    simp only [evaluate, bound, applied_ln]
    rwa [Real.rpow_neg_one, ← one_div]
  · next other =>
    have shifted : n + 1 ≠ 0 := by
      intro zero
      refine other (decide_eq_true ?_)
      change |n - -1| < 1e-12
      rw [sub_neg_eq_add, zero, abs_zero]
      norm_num
    have differentiable : v ≠ 0 ∨ 1 ≤ n + 1 := by
      by_cases whole : ∃ k : ℤ, n = k
      · obtain ⟨k, rfl⟩ := whole
        rcases lt_or_ge k 0 with negative | nonneg
        · exact .inl (nonzero k rfl negative)
        · have : (0 : ℝ) ≤ k := by exact_mod_cast nonneg
          exact .inr (by linarith)
      · exact .inl (positive (.inr fun k same => whole ⟨k, same⟩)).ne'
    have power := (Real.hasDerivAt_rpow_const differentiable).div_const (n + 1)
    have quotient (t : ℝ) : ((bin .div (bin .pow (var x) (num (n + 1))) (num (n + 1))).evaluate
        (c t) s).1 = t ^ (n + 1) / (n + 1) := by
      simp only [evaluate, bound, apply_div]
      rfl
    simp only [quotient]
    refine power.congr_deriv ?_
    rw [add_sub_cancel_right]
    field_simp

theorem evaluate_apply1 (bound : ∀ t, valueOf (c t) x = t) (name : String) (t : ℝ)
    (s : RandomStream) : ((apply1 name (var x)).evaluate (c t) s).1 = applied name [t] := by
  rw [apply1, evaluate_apply]
  simp only [evaluate, bound]

theorem hasDerivAt_integralOfCall (bound : ∀ t, valueOf (c t) x = t) {name : String}
    (known : name ∈ integrated) (positive : name ∈ ["LN", "LOG"] → 0 < v) (s : RandomStream) :
    HasDerivAt (fun t => ((integralOfCall x name).evaluate (c t) s).1) (applied name [v]) v := by
  have logarithm (domain : 0 < v) : HasDerivAt (fun t => ((bin .sub (bin .mul (var x)
      (apply1 "LN" (var x))) (var x)).evaluate (c t) s).1) (Real.log v) v := by
    have inner := hasDerivAt_id' v
    have slope := (inner.mul (hasDerivAt_guardedLog inner domain)).sub inner
    simp only [evaluate_bin, evaluate_apply1 bound, applied_ln]
    simp only [evaluate, bound]
    refine slope.congr_deriv ?_
    rw [if_pos domain]
    field_simp
    ring
  simp only [integrated, List.mem_cons, List.not_mem_nil, or_false] at known
  rcases known with rfl | rfl | rfl | rfl | rfl
  · have slope := (Real.hasDerivAt_cos v).neg
    have cosine (t : ℝ) : ((un .neg (apply1 "COS" (var x))).evaluate (c t) s).1 = -Real.cos t :=
      congrArg (- ·) ((evaluate_apply1 bound "COS" t s).trans (applied_cos t))
    rw [neg_neg] at slope
    rw [applied_sin, integralOfCall_sin, funext cosine]
    exact slope
  · simp only [applied_cos, integralOfCall_cos, evaluate_apply1 bound, applied_sin]
    exact Real.hasDerivAt_sin v
  · simp only [applied_exp, integralOfCall_exp, evaluate_apply1 bound]
    exact Real.hasDerivAt_exp v
  · have domain := positive (by simp)
    rw [applied_ln, if_pos domain]
    exact logarithm domain
  · have domain := positive (by simp)
    rw [applied_log, if_pos domain]
    exact logarithm domain

theorem hasDerivAt_antiderivative (rebinds : ∀ t, Bindings.Rebinds b x t (c t))
    (canonical : canonicalName x = x) {e : Expr ℝ} (integrable : Integrable x v e) :
    e.EveryNode (Spelled x) → e.EveryNode (DrawsInOrder x) → ∀ s, HasDerivAt
      (fun t => ((antiderivative x e).value.evaluate (c t) s).1) (e.evaluate (c v) s).1 v := by
  have bound (t : ℝ) : valueOf (c t) x = t := (rebinds t).same canonical
  -- After each part the stream is where the part itself leaves it, so that the next part draws the
  -- same.
  induction integrable with
  | num k =>
    intro _ _ s
    have line := (hasDerivAt_id' v).const_mul k
    rw [mul_one] at line
    change HasDerivAt (fun t => k * valueOf (c t) x) k v
    simpa only [bound] using line
  | var y =>
    intro spelled _ s
    by_cases same : y = x
    · subst same
      have parabola := (hasDerivAt_pow 2 v).div_const 2
      have square (t : ℝ) : ((antiderivative y (var y)).value.evaluate (c t) s).1 = t ^ 2 / 2 := by
        have two : (2.0 : ℝ) = 2 := by norm_num
        simp only [antiderivative_var_self, square, evaluate_bin, evaluate, bound, apply_div, two]
        exact congrArg (· / 2) (Real.rpow_two t)
      simp only [square, evaluate, bound]
      exact parabola.congr_deriv (by norm_num)
    · have free : (var y : Expr ℝ).mentions x = false := by simpa [mentions] using same
      have constant (t : ℝ) : valueOf (c t) y = valueOf (c v) y :=
        congrArg (fun f => (f s).1) (evaluate_eq_of_not_mentions rebinds spelled free t v)
      have line := (hasDerivAt_id' v).const_mul (valueOf (c v) y)
      rw [mul_one] at line
      have product (t : ℝ) : ((antiderivative x (var y)).value.evaluate (c t) s).1 =
          valueOf (c v) y * t := by
        simp only [antiderivative_var_of_ne x same, evaluate_bin, evaluate, bound, constant,
          BinaryOp.apply]
      simp only [product]
      exact line
  | @add l r left right ihl ihr =>
    intro spelled ordered s
    have streams (t : ℝ) : ((antiderivative x l).value.evaluate (c t) s).2 =
        (l.evaluate (c v) s).2 :=
      (stream_antiderivative left (c t) ordered.2.1 s).trans (stream_evaluate (c t) (c v) l s)
    simp only [antiderivative_add, evaluate_bin, streams]
    exact (ihl spelled.2.1 ordered.2.1 s).add (ihr spelled.2.2 ordered.2.2 _)
  | @sub l r left right ihl ihr =>
    intro spelled ordered s
    have streams (t : ℝ) : ((antiderivative x l).value.evaluate (c t) s).2 =
        (l.evaluate (c v) s).2 :=
      (stream_antiderivative left (c t) ordered.2.1 s).trans (stream_evaluate (c t) (c v) l s)
    simp only [antiderivative_sub, evaluate_bin, streams]
    exact (ihl spelled.2.1 ordered.2.1 s).sub (ihr spelled.2.2 ordered.2.2 _)
  | neg operand ih => exact fun spelled ordered s => (ih spelled.2 ordered.2 s).neg
  | constMul free right ih =>
    intro spelled ordered s
    have factor (t : ℝ) := evaluate_eq_of_not_mentions rebinds spelled.2.1 free t v
    simp only [antiderivative_constMul x free, evaluate_bin, factor]
    exact (ih spelled.2.2 ordered.2.2 _).const_mul _
  | @mulConst l r mentioned free left ih =>
    intro spelled ordered s
    have factor (t : ℝ) := evaluate_eq_of_not_mentions rebinds spelled.2.2 free t v
    simp only [antiderivative_mulConst x mentioned free, evaluate_bin, factor]
    -- The constant is evaluated first here and last in the tree itself.
    have slope :=
      (ih spelled.2.1 ordered.2.1 (r.evaluate (c v) s).2).const_mul (r.evaluate (c v) s).1
    refine slope.congr_deriv ?_
    rcases ordered.1 mentioned with still | still
    · simp only [evaluate_eq_value _ l still]
      exact mul_comm _ _
    · simp only [evaluate_eq_value _ r still]
      exact mul_comm _ _
  | power clear nonzero positive =>
    intro _ _ s
    rw [antiderivative_power]
    simp only [evaluate, bound]
    exact hasDerivAt_integralOfPower bound clear nonzero positive s
  | call known positive =>
    intro _ _ s
    rw [antiderivative_call, evaluate_apply]
    simp only [evaluate, bound]
    exact hasDerivAt_integralOfCall bound known positive s

/-- The integrated tree is an antiderivative of the tree, as a function of what `name` stands
for. -/
theorem hasDerivAt_integrate (e : Expr ℝ) (name : String) (v : ℝ) (s : RandomStream)
    (rebinds : ∀ t, Bindings.Rebinds b (canonicalName name) t (c t))
    (integrable : Integrable (canonicalName name) v e)
    (spelled : e.EveryNode (Spelled (canonicalName name)))
    (ordered : e.EveryNode (DrawsInOrder (canonicalName name))) :
    HasDerivAt (fun t => ((e.integrate name).value.evaluate (c t) s).1)
      (e.evaluate (c v) s).1 v :=
  hasDerivAt_antiderivative rebinds (canonicalName_canonicalName name) integrable spelled ordered s

end Slopes

theorem hasDerivAt_integrate_sum :
    let e : Expr ℝ := bin .add (bin .mul (var "Y") (bin .pow (var "X") (num (-2))))
      (bin .mul (bin .sub (call "LN" [var "X"]) (call "SIN" [var "X"])) (call "RND" []))
    let c : ℝ → Option (Bindings ℝ) := fun t => some ⟨[5, t], some [("Y", 0), ("X", 1)]⟩
    let s : RandomStream := .ofSeed 0
    (∀ t, Bindings.Rebinds (c 0) (canonicalName "x") t (c t)) ∧
      Integrable (canonicalName "x") 2 e ∧ e.EveryNode (Spelled (canonicalName "x")) ∧
      e.EveryNode (DrawsInOrder (canonicalName "x")) ∧
      HasDerivAt (fun t => ((e.integrate "x").value.evaluate (c t) s).1)
        (e.evaluate (c 2) s).1 2 := by
  intro e c s
  have upper : canonicalName "x" = "X" := by decide +kernel
  have other : canonicalName "Y" = "Y" := by decide +kernel
  have rebinds : ∀ t, Bindings.Rebinds (c 0) (canonicalName "x") t (c t) := by
    intro t
    rw [upper]
    constructor
    · intro canonical
      simp [c, valueOf, Bindings.lookup?, Bindings.index?, Bindings.position?, canonical,
        List.lookup]
    · intro y canonical apart
      by_cases named : y = "Y"
      · simp [c, valueOf, Bindings.lookup?, Bindings.index?, Bindings.position?, named, other,
          List.lookup]
      · simp [c, valueOf, Bindings.lookup?, Bindings.index?, Bindings.position?, canonical,
          List.lookup, beq_false_of_ne named, beq_false_of_ne apart]
  have integrable : Integrable (canonicalName "x") 2 e := by
    rw [upper]
    have positive : (0 : ℝ) < 2 := two_pos
    have power : Separated ((-2 : ℝ), -1) := .inr (tolerance_le_abs (by norm_num))
    refine .add (.constMul rfl (.power power (fun _ _ _ => two_ne_zero) fun _ => positive)) ?_
    exact .mulConst rfl rfl (.sub (.call (by simp [integrated]) fun _ => positive)
      (.call (by simp [integrated]) fun _ => positive))
  have spelled : e.EveryNode (Spelled (canonicalName "x")) := by
    simp [e, EveryNode, EveryNodes, Spelled, upper, other]
  have ordered : e.EveryNode (DrawsInOrder (canonicalName "x")) := by
    simp [e, EveryNode, EveryNodes, DrawsInOrder, DrawsNothing, upper, mentions, mentionsAny]
  exact ⟨rebinds, integrable, spelled, ordered,
    hasDerivAt_integrate e "x" 2 s rebinds integrable spelled ordered⟩

/-- Two trees that the rules reach and do not integrate. In `(X + RND() * 1) * RND()`, with draws
`0` and then a positive number, the draws change places: the integrated tree is zero everywhere. And
`x` is a variable of its own to the rules, but the same variable to evaluation. -/
theorem not_hasDerivAt_integrate :
    let drawn : Expr ℝ :=
      bin .mul (bin .add (var "X") (bin .mul (call "RND" []) (num 1))) (call "RND" [])
    let small : Expr ℝ := var "x"
    let c : ℝ → Option (Bindings ℝ) := fun t => some ⟨[t], some [("X", 0)]⟩
    let s : RandomStream := .uneven
    (∀ t, Bindings.Rebinds (c 0) (canonicalName "X") t (c t)) ∧
      (Integrable (canonicalName "X") 2 drawn ∧ drawn.EveryNode NameCanonical ∧
        ¬ HasDerivAt (fun t => ((drawn.integrate "X").value.evaluate (c t) s).1)
          (drawn.evaluate (c 2) s).1 2) ∧
      Integrable (canonicalName "X") 2 small ∧ small.EveryNode DrawsNothing ∧
        ¬ HasDerivAt (fun t => ((small.integrate "X").value.evaluate (c t) s).1)
          (small.evaluate (c 2) s).1 2 := by
  intro drawn small c s
  have lower : canonicalName "x" = "X" := by decide +kernel
  have bound (t : ℝ) : valueOf (c t) "X" = t := Bindings.valueOf_named canonicalName_x t
  rw [canonicalName_x]
  have rebinds : ∀ t, Bindings.Rebinds (c 0) "X" t (c t) := Bindings.rebinds_named 0
  have canonical : drawn.EveryNode NameCanonical := by
    simp [drawn, EveryNode, EveryNodes, NameCanonical, canonicalName_x]
  refine ⟨rebinds, ⟨.mulConst rfl rfl (.add (.var "X") (.constMul rfl (.num 1))), canonical, ?_⟩,
    .var "x", trivial, ?_⟩
  · obtain ⟨first, second⟩ : s.draw.1 = 0 ∧ s.draw.2.draw.1 ≠ 0 := RandomStream.draws_uneven
    have nothing : (Scalar.ofDraw 0 : ℝ) = 0 := (ofDraw_eq_zero_iff 0).2 rfl
    have something : (Scalar.ofDraw s.draw.2.draw.1 : ℝ) ≠ 0 :=
      fun zero => second ((ofDraw_eq_zero_iff _).1 zero)
    have flat (t : ℝ) : ((drawn.integrate "X").value.evaluate (c t) s).1 = 0 := by
      simp [drawn, integrate, antiderivative, mentions, mentionsAny, clone, cloneAll, evaluate,
        evaluateAll, canonicalName_x, callFunction_rnd, first, nothing, BinaryOp.apply]
    have height : (drawn.evaluate (c 2) s).1 = 2 * Scalar.ofDraw s.draw.2.draw.1 := by
      simp [drawn, evaluate, evaluateAll, callFunction_rnd, first, nothing, bound,
        BinaryOp.apply]
    simp only [flat, height]
    intro slope
    exact mul_ne_zero two_ne_zero something (slope.unique (hasDerivAt_const 2 0))
  · have read (t : ℝ) : valueOf (c t) "x" = t := by
      rw [← valueOf_canonicalName, lower, bound]
    have square (t : ℝ) : ((small.integrate "X").value.evaluate (c t) s).1 = t * t := by
      simp [small, integrate, antiderivative, evaluate, canonicalName_x, bound, read,
        BinaryOp.apply]
    have height : (small.evaluate (c 2) s).1 = 2 := read 2
    simp only [square, height]
    intro slope
    have steep := (hasDerivAt_id' (2 : ℝ)).mul (hasDerivAt_id' 2)
    have same := slope.unique steep
    norm_num at same

end DerivativeEngine.Expr
