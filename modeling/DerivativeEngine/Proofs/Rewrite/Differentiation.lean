import Mathlib
import DerivativeEngine.Proofs.Expr.Bindings
import DerivativeEngine.Proofs.Rewrite.Simplification
import DerivativeEngine.Rewrite.Derivative

/-! Symbolic derivatives are derivatives. Over the real numbers, the value of a tree as a function
of one variable has, where the rules of calculus apply, the value of the derived tree as its
derivative. Nothing is asked of parts of the tree that do not hold the variable: they are constant,
and whatever rule was applied to them, their derived tree has the value zero. A tree that draws
random numbers is left out, since the derived tree draws anew for every copy of a part. -/

namespace DerivativeEngine

namespace Bindings

variable {α : Type}

/-- The bindings `b'` are `b` but for the variable `x`, which stands for `t`. -/
structure Rebinds [Scalar α] (b : Option (Bindings α)) (x : String) (t : α)
    (b' : Option (Bindings α)) : Prop where
  same : canonicalName x = x → Expr.valueOf b' x = t
  others : ∀ y, canonicalName y = y → y ≠ x → Expr.valueOf b' y = Expr.valueOf b y

variable [Scalar α] {b b' : Bindings α} {x name : String} {t : α}

theorem rebinds_written {i : Nat} (position : b.position? x = some i)
    (own : ∀ y, b.position? y = some i → y = x) :
    Rebinds (some b) x t (some { b with values := b.values.set i t }) := by
  have positions (y : String) :
      ({ b with values := b.values.set i t } : Bindings α).position? y = b.position? y := by
    simp [position?]
  constructor
  · intro canonical
    rw [valueOf_eq _ canonical, positions, position]
    simp [position?_lt position]
  · intro y canonical other
    rw [valueOf_eq _ canonical, valueOf_eq _ canonical, positions]
    cases there : b.position? y with
    | none => rfl
    | some j =>
      have apart : i ≠ j := by
        rintro rfl
        exact other (own y there)
      simp [List.getElem?_set_ne apart]

theorem rebinds_named (u t : α) :
    Rebinds (some ⟨[u], some [(x, 0)]⟩) x t (some ⟨[t], some [(x, 0)]⟩) := by
  refine rebinds_written (b := ⟨[u], some [(x, 0)]⟩) (i := 0) ?_ fun y there => ?_
  · simp [position?, List.lookup]
  · by_contra other
    simp [position?, List.lookup, beq_false_of_ne other] at there

theorem rebinds_added {names : List (String × Int)} (named : b.names = some names)
    (placed : ∀ y i, names.lookup y = some i → i < b.values.length) :
    Rebinds (some b) x t (some
      { values := b.values ++ [t], names := some (assign x (b.values.length : Int) names) }) := by
  constructor
  · intro canonical
    rw [valueOf_eq _ canonical]
    simp [position?, lookup_assign]
  · intro y canonical other
    rw [valueOf_eq _ canonical, valueOf_eq _ canonical]
    cases there : names.lookup y with
    | none => simp [position?, named, lookup_assign, other, there]
    | some i =>
      have below := placed y i there
      -- A name may stand for a negative number, which is no position before or after.
      by_cases position : 0 ≤ i
      · have inside : i.toNat < b.values.length := by omega
        have grown : i < (b.values.length : Int) + 1 := by omega
        simp only [position?, named, lookup_assign, there, beq_eq_false_iff_ne.2 other, position,
          below, grown, List.length_append, List.length_singleton, Nat.cast_add, Nat.cast_one,
          decide_true, Bool.and_self, if_true, Option.bind_some,
          List.getElem?_append_left inside, Bool.false_eq_true, if_false]
      · simp [position?, named, lookup_assign, other, there, position]

theorem rebinds_set (set : b.set name t = .ok b')
    (own : ∀ y i, b.position? y = some i → b.position? (canonicalName name) = some i →
      y = canonicalName name)
    (placed : ∀ names, b.names = some names → ∀ y i, names.lookup y = some i →
      i < b.values.length) :
    Rebinds (some b) (canonicalName name) t (some b') := by
  unfold Bindings.set index? at set
  cases position : b.position? (canonicalName name) with
  | some i =>
    simp only [position, Except.ok.injEq] at set
    subst set
    exact rebinds_written position fun y there => own y i there position
  | none =>
    cases named : b.names with
    | none => simp [position, named] at set
    | some names =>
      simp only [position, named, Except.ok.injEq] at set
      subst set
      exact rebinds_added named (placed names named)

end Bindings

namespace Expr

theorem apply_div (a c : ℝ) : BinaryOp.div.apply a c = a / c := by
  change (if (c == 0) = true then 0 else a / c) = a / c
  split
  · next zero => rw [beq_iff_eq.1 zero, div_zero]
  · rfl

def elementary : List (String × UnaryFunction) :=
  [("SIN", .sin), ("COS", .cos), ("TAN", .tan), ("EXP", .exp), ("LOG", .log), ("LN", .log),
    ("SQRT", .sqrt)]

theorem ofName?_elementary :
    ∀ p ∈ elementary, Builtin.ofName? (Text.upper p.1) = some (.unary p.2) := by
  decide +kernel

theorem applied_elementary {name : String} {f : UnaryFunction} (known : (name, f) ∈ elementary)
    (v : ℝ) : applied name [v] = f.apply v := by
  have builtin : Builtin.ofName? (Text.upper name) = some (.unary f) :=
    ofName?_elementary (name, f) known
  unfold applied
  rw [builtin]

theorem applied_sin (v : ℝ) : applied "SIN" [v] = Real.sin v :=
  applied_elementary (f := .sin) (by simp [elementary]) v

theorem applied_cos (v : ℝ) : applied "COS" [v] = Real.cos v :=
  applied_elementary (f := .cos) (by simp [elementary]) v

theorem applied_tan (v : ℝ) : applied "TAN" [v] = Real.tan v :=
  applied_elementary (f := .tan) (by simp [elementary]) v

theorem applied_exp (v : ℝ) : applied "EXP" [v] = Real.exp v :=
  applied_elementary (f := .exp) (by simp [elementary]) v

theorem applied_log (v : ℝ) : applied "LOG" [v] = if 0 < v then Real.log v else 0 :=
  applied_elementary (f := .log) (by simp [elementary]) v

theorem applied_ln (v : ℝ) : applied "LN" [v] = if 0 < v then Real.log v else 0 :=
  applied_elementary (f := .log) (by simp [elementary]) v

theorem applied_sqrt (v : ℝ) : applied "SQRT" [v] = Real.sqrt v := by
  refine (applied_elementary (f := .sqrt) (by simp [elementary]) v).trans ?_
  change (if 0 ≤ v then Real.sqrt v else 0) = Real.sqrt v
  split
  · rfl
  · next negative => exact (Real.sqrt_eq_zero_of_nonpos (le_of_not_ge negative)).symm

section Rules

variable {α : Type} [Scalar α] (x : String) (l r e arg darg : Expr α)

theorem derivative_add : (derivative x (bin .add l r)).value =
    bin .add (derivative x l).value (derivative x r).value := rfl

theorem derivative_sub : (derivative x (bin .sub l r)).value =
    bin .sub (derivative x l).value (derivative x r).value := rfl

theorem derivative_mul : (derivative x (bin .mul l r)).value =
    bin .add (bin .mul (derivative x l).value r) (bin .mul l (derivative x r).value) := by
  change bin .add (bin .mul (derivative x l).value r.clone.value)
    (bin .mul l.clone.value (derivative x r).value) = _
  rw [clone_value, clone_value]

theorem derivative_div : (derivative x (bin .div l r)).value =
    bin .div (bin .sub (bin .mul (derivative x l).value r) (bin .mul l (derivative x r).value))
      (square r) := by
  change bin .div (bin .sub (bin .mul (derivative x l).value r.clone.value)
    (bin .mul l.clone.value (derivative x r).value)) (square r.clone.value) = _
  rw [clone_value, clone_value]

theorem derivative_pow : (derivative x (bin .pow l r)).value =
    if r.mentions x then num 0
    else bin .mul (bin .mul r (bin .pow l (bin .sub r (num 1)))) (derivative x l).value := by
  have power : derivative x (bin .pow l r) = if r.mentions x then pure (num 0) else do
      let reduced := bin .pow (← l.clone) (bin .sub (← r.clone) (num 1))
      return bin .mul (bin .mul (← r.clone) reduced) (← derivative x l) := rfl
  rw [power]
  split <;> simp

theorem derivative_neg : (derivative x (un .neg e)).value = un .neg (derivative x e).value := rfl

theorem derivative_call (name : String) : (derivative x (call name [arg])).value =
    (chainRule name arg (derivative x arg).value).value := rfl

theorem chainRule_sin : (chainRule "SIN" arg darg).value = bin .mul (apply1 "COS" arg) darg := by
  simp [chainRule]

theorem chainRule_cos : (chainRule "COS" arg darg).value =
    bin .mul (un .neg (apply1 "SIN" arg)) darg := by
  simp [chainRule]

theorem chainRule_tan : (chainRule "TAN" arg darg).value =
    bin .mul (bin .div (num 1) (square (apply1 "COS" arg))) darg := by
  simp [chainRule]

theorem chainRule_log : (chainRule "LOG" arg darg).value = bin .div darg arg := by
  simp [chainRule]

theorem chainRule_ln : (chainRule "LN" arg darg).value = bin .div darg arg := by
  simp [chainRule]

theorem chainRule_exp : (chainRule "EXP" arg darg).value = bin .mul (apply1 "EXP" arg) darg := by
  simp [chainRule]

theorem chainRule_sqrt : (chainRule "SQRT" arg darg).value =
    bin .div darg (bin .mul (num 2.0) (apply1 "SQRT" arg)) := by
  simp [chainRule]

end Rules

section Values

variable (l r e : Expr ℝ) (b : Option (Bindings ℝ))

theorem value_add : (bin .add l r).value b = l.value b + r.value b := rfl

theorem value_sub : (bin .sub l r).value b = l.value b - r.value b := rfl

theorem value_mul : (bin .mul l r).value b = l.value b * r.value b := rfl

theorem value_div : (bin .div l r).value b = l.value b / r.value b := apply_div _ _

theorem value_pow : (bin .pow l r).value b = l.value b ^ r.value b := rfl

theorem value_neg : (un .neg e).value b = -e.value b := rfl

theorem value_square : (square e).value b = e.value b ^ 2 := by
  have two : (2.0 : ℝ) = 2 := by norm_num
  change e.value b ^ (2.0 : ℝ) = _
  rw [two, Real.rpow_two]

end Values

section Constant

variable {b : Option (Bindings ℝ)} {x : String}

theorem value_chainRule_zero (name : String) (arg : Expr ℝ) {darg : Expr ℝ}
    (zero : darg.value b = 0) : (chainRule name arg darg).value.value b = 0 := by
  have product (e : Expr ℝ) : (bin .mul e darg).value b = 0 := by
    rw [value_mul, zero, mul_zero]
  have quotient (e : Expr ℝ) : (bin .div darg e).value b = 0 := by
    rw [value_div, zero, zero_div]
  unfold chainRule
  split_ifs
  · exact product _
  · exact product _
  · exact product _
  · exact quotient _
  · exact product _
  · exact quotient _
  · rfl

theorem value_derivative_of_not_mentions : ∀ e : Expr ℝ, e.mentions x = false →
    (derivative x e).value.value b = 0
  | num _, _ => rfl
  | var y, h => by
    have other : (y == x) = false := h
    change (if (y == x) = true then 1 else 0 : ℝ) = 0
    rw [other, if_neg Bool.false_ne_true]
  | bin op l r, h => by
    obtain ⟨hl, hr⟩ := Bool.or_eq_false_iff.1 h
    have left := value_derivative_of_not_mentions l hl
    have right := value_derivative_of_not_mentions r hr
    cases op with
    | add => rw [derivative_add, value_add, left, right, add_zero]
    | sub => rw [derivative_sub, value_sub, left, right, sub_zero]
    | mul => rw [derivative_mul, value_add, value_mul, value_mul, left, right, zero_mul, mul_zero,
        add_zero]
    | div => rw [derivative_div, value_div, value_sub, value_mul, value_mul, left, right, zero_mul,
        mul_zero, sub_zero, zero_div]
    | pow => rw [derivative_pow, hr, if_neg Bool.false_ne_true, value_mul, left, mul_zero]
    | _ => rfl
  | un op e, h => by
    cases op with
    | neg => rw [derivative_neg, value_neg, value_derivative_of_not_mentions e h, neg_zero]
    | _ => rfl
  | call name [], _ => rfl
  | call name [arg], h => by
    have free : arg.mentions x = false := by simpa [mentions, mentionsAny] using h
    rw [derivative_call]
    exact value_chainRule_zero name arg (value_derivative_of_not_mentions arg free)
  | call name (_ :: _ :: _), _ => rfl
  | tensor _, _ => rfl

end Constant

section Variable

def ruled : List String := ["SIN", "COS", "TAN", "LOG", "LN", "EXP", "SQRT"]

/-- A rule of calculus covers the node: for a power, only where the exponent is without `x`. -/
def Covered {α : Type} (x : String) : Expr α → Prop
  | var _ => True
  | bin .add _ _ | bin .sub _ _ | bin .mul _ _ | bin .div _ _ => True
  | bin .pow _ exponent => exponent.mentions x = false
  | un .neg _ => True
  | call name [_] => name ∈ ruled
  | _ => False

/-- The operands lie where the operator or the function of the node has a derivative. -/
def InDomain (b : Option (Bindings ℝ)) : Expr ℝ → Prop
  | bin .div _ r => r.value b ≠ 0
  | bin .pow l r => 0 < l.value b ∨ ∃ n : ℕ, 1 ≤ n ∧ r.value b = n
  | call name [arg] =>
    (name = "TAN" → Real.cos (arg.value b) ≠ 0) ∧
      (name ∈ ["LOG", "LN", "SQRT"] → 0 < arg.value b)
  | _ => True

variable {f g : ℝ → ℝ} {x₀ : ℝ} {b : Option (Bindings ℝ)}

theorem hasDerivAt_guardedLog {f' : ℝ} (inner : HasDerivAt f f' x₀) (positive : 0 < f x₀) :
    HasDerivAt (fun t => if 0 < f t then Real.log (f t) else 0) (f' / f x₀) x₀ := by
  have near : ∀ᶠ t in nhds x₀, 0 < f t :=
    inner.continuousAt.eventually (lt_mem_nhds positive)
  have agrees : (fun t => if 0 < f t then Real.log (f t) else 0) =ᶠ[nhds x₀]
      fun t => Real.log (f t) := near.mono fun t ht => if_pos ht
  exact (inner.log positive.ne').congr_of_eventuallyEq agrees

theorem hasDerivAt_chainRule {name : String} (covered : name ∈ ruled) {arg darg : Expr ℝ}
    (inner : HasDerivAt f (darg.value b) x₀) (here : f x₀ = arg.value b)
    (domain : InDomain b (call name [arg])) :
    HasDerivAt (fun t => applied name [f t]) ((chainRule name arg darg).value.value b) x₀ := by
  obtain ⟨cosine, positive⟩ := domain
  simp only [ruled, List.mem_cons, List.not_mem_nil, or_false] at covered
  rcases covered with rfl | rfl | rfl | rfl | rfl | rfl | rfl
  · have slope : (apply1 "COS" arg).value b = Real.cos (f x₀) := by
      rw [here]; exact applied_cos _
    simp only [applied_sin, chainRule_sin, value_mul, slope]
    exact inner.sin
  · have slope : (apply1 "SIN" arg).value b = Real.sin (f x₀) := by
      rw [here]; exact applied_sin _
    simp only [applied_cos, chainRule_cos, value_mul, value_neg, slope]
    exact inner.cos
  · have slope : (apply1 "COS" arg).value b = Real.cos (f x₀) := by
      rw [here]; exact applied_cos _
    simp only [applied_tan, chainRule_tan, value_mul, value_div, value_square, slope]
    rw [← here] at cosine
    exact (Real.hasDerivAt_tan (cosine rfl)).comp x₀ inner
  · have guarded := hasDerivAt_guardedLog inner (here ▸ positive (by decide))
    simp only [applied_log, chainRule_log, value_div]
    rwa [here] at guarded
  · have guarded := hasDerivAt_guardedLog inner (here ▸ positive (by decide))
    simp only [applied_ln, chainRule_ln, value_div]
    rwa [here] at guarded
  · have slope : (apply1 "EXP" arg).value b = Real.exp (f x₀) := by
      rw [here]; exact applied_exp _
    simp only [applied_exp, chainRule_exp, value_mul, slope]
    exact inner.exp
  · have slope : (apply1 "SQRT" arg).value b = Real.sqrt (f x₀) := by
      rw [here]; exact applied_sqrt _
    have nonzero : f x₀ ≠ 0 := here ▸ (positive (by decide)).ne'
    have two : ((2.0 : ℝ)) = 2 := by norm_num
    simp only [applied_sqrt, chainRule_sqrt, value_div, value_mul, slope]
    exact (inner.sqrt nonzero).congr_deriv (by rw [← two]; rfl)

theorem hasDerivAt_power {f' p : ℝ} (inner : HasDerivAt f f' x₀)
    (domain : 0 < f x₀ ∨ ∃ n : ℕ, 1 ≤ n ∧ p = n) :
    HasDerivAt (fun t => f t ^ p) (p * f x₀ ^ (p - 1) * f') x₀ := by
  have differentiable : f x₀ ≠ 0 ∨ 1 ≤ p := by
    rcases domain with positive | ⟨n, positive, rfl⟩
    · exact .inl positive.ne'
    · exact .inr (by exact_mod_cast positive)
  exact (inner.rpow_const differentiable).congr_deriv (by ring)

variable {x : String} {c : ℝ → Option (Bindings ℝ)}

theorem value_eq_of_not_mentions (rebinds : ∀ t, Bindings.Rebinds b x t (c t)) {e : Expr ℝ}
    (canonical : e.EveryNode NameCanonical) (free : e.mentions x = false) (t : ℝ) :
    e.value (c t) = e.value b := by
  apply value_congr
  intro y mentioned
  have other : y ≠ x := by
    rintro rfl
    exact Bool.false_ne_true (free.symm.trans mentioned)
  exact (rebinds t).others y (EveryNode.of_mentions e canonical mentioned) other

theorem hasDerivAt_of_not_mentions (rebinds : ∀ t, Bindings.Rebinds b x t (c t)) {e : Expr ℝ}
    (canonical : e.EveryNode NameCanonical) (free : e.mentions x = false) :
    HasDerivAt (fun t => e.value (c t)) ((derivative x e).value.value (c x₀)) x₀ := by
  rw [value_derivative_of_not_mentions e free]
  simp only [value_eq_of_not_mentions rebinds canonical free]
  exact hasDerivAt_const x₀ _

theorem hasDerivAt_value (rebinds : ∀ t, Bindings.Rebinds b x t (c t)) : ∀ e : Expr ℝ,
    e.EveryNode NameCanonical → e.EveryNode (fun n => n.mentions x = true → Covered x n) →
      e.EveryNode (fun n => n.mentions x = true → InDomain (c x₀) n) →
        HasDerivAt (fun t => e.value (c t)) ((derivative x e).value.value (c x₀)) x₀
  -- A part without the variable ends the induction, so that nothing is asked of the nodes below it.
  | num _, _, _, _ => hasDerivAt_const x₀ _
  | var y, canonical, _, _ => by
    by_cases same : y = x
    · subst same
      have slope : (derivative y (var y)).value.value (c x₀) = 1 := by
        change (if (y == y) = true then 1 else 0 : ℝ) = 1
        rw [beq_self_eq_true, if_pos rfl]
      have identity : (fun t => (var y : Expr ℝ).value (c t)) = id :=
        funext fun t => (rebinds t).same canonical
      rw [slope, identity]
      exact hasDerivAt_id x₀
    · have free : (var y : Expr ℝ).mentions x = false := by simpa [mentions] using same
      exact hasDerivAt_of_not_mentions rebinds canonical free
  | bin op l r, canonical, covered, domain => by
    cases mentioned : (bin op l r).mentions x with
    | false => exact hasDerivAt_of_not_mentions rebinds canonical mentioned
    | true =>
      have left := hasDerivAt_value rebinds l canonical.2.1 covered.2.1 domain.2.1
      have right := hasDerivAt_value rebinds r canonical.2.2 covered.2.2 domain.2.2
      have rule := covered.1 mentioned
      have inside := domain.1 mentioned
      cases op with
      | add => exact left.add right
      | sub => exact left.sub right
      | mul =>
        rw [derivative_mul]
        exact left.mul right
      | div =>
        rw [derivative_div]
        simp only [value_div, value_sub, value_mul, value_square]
        exact left.div right inside
      | pow =>
        have exponent (t : ℝ) : r.value (c t) = r.value (c x₀) :=
          (value_eq_of_not_mentions rebinds canonical.2.2 rule t).trans
            (value_eq_of_not_mentions rebinds canonical.2.2 rule x₀).symm
        rw [derivative_pow, rule, if_neg Bool.false_ne_true]
        simp only [value_pow, value_mul, value_sub, exponent]
        exact hasDerivAt_power left inside
      | _ => exact rule.elim
  | un op e, canonical, covered, domain => by
    cases mentioned : (un op e).mentions x with
    | false => exact hasDerivAt_of_not_mentions rebinds canonical mentioned
    | true =>
      have operand := hasDerivAt_value rebinds e canonical.2 covered.2 domain.2
      have rule := covered.1 mentioned
      cases op with
      | neg => exact operand.neg
      | _ => exact rule.elim
  | call name [arg], canonical, covered, domain => by
    cases mentioned : (call name [arg]).mentions x with
    | false => exact hasDerivAt_of_not_mentions rebinds canonical mentioned
    | true =>
      have inner := hasDerivAt_value rebinds arg canonical.2.1 covered.2.1 domain.2.1
      rw [derivative_call]
      exact hasDerivAt_chainRule (covered.1 mentioned) inner rfl (domain.1 mentioned)
  | call name [], canonical, _, _ => hasDerivAt_of_not_mentions rebinds canonical rfl
  | call name (e :: e' :: es), canonical, covered, _ => by
    cases mentioned : (call name (e :: e' :: es)).mentions x with
    | false => exact hasDerivAt_of_not_mentions rebinds canonical mentioned
    | true => exact (covered.1 mentioned).elim
  | tensor _, _, _, _ => hasDerivAt_const x₀ _

end Variable

section Evaluation

section Nodes

variable {α : Type} [Scalar α] {p : Expr α → Prop} (atomic : Atomic p)
  (applied : ∀ name e, p (call name [e]))
include atomic applied

theorem EveryNode.chainRule (name : String) {arg darg : Expr α} (harg : arg.EveryNode p)
    (hdarg : darg.EveryNode p) : (chainRule name arg darg).value.EveryNode p := by
  have number (c : α) : (num c).EveryNode p := atomic.num c
  have once (f : String) : (apply1 f arg).EveryNode p := ⟨applied f arg, harg, trivial⟩
  have both (op : BinaryOp) {e e' : Expr α} (he : e.EveryNode p) (he' : e'.EveryNode p) :
      (bin op e e').EveryNode p := ⟨atomic.bin _ _ _, he, he'⟩
  unfold Expr.chainRule
  split_ifs <;> simp only [Retaining.bind_value, Retaining.pure_value, clone_value]
  · exact both .mul (once "COS") hdarg
  · exact both .mul ⟨atomic.un _ _, once "SIN"⟩ hdarg
  · exact both .mul (both .div (number 1) (both .pow (once "COS") (number _))) hdarg
  · exact both .div hdarg harg
  · exact both .mul (once "EXP") hdarg
  · exact both .div hdarg (both .mul (number _) (once "SQRT"))
  · exact number 0

theorem EveryNode.derivative (x : String) : ∀ e : Expr α,
    e.EveryNode p → (derivative x e).value.EveryNode p
  | num _, _ => atomic.num _
  | var _, _ => atomic.num _
  | bin op l r, h => by
    have left := EveryNode.derivative x l h.2.1
    have right := EveryNode.derivative x r h.2.2
    have number (c : α) : (num c).EveryNode p := atomic.num c
    have both (op : BinaryOp) {e e' : Expr α} (he : e.EveryNode p) (he' : e'.EveryNode p) :
        (bin op e e').EveryNode p := ⟨atomic.bin _ _ _, he, he'⟩
    have crossed := And.intro (both .mul left h.2.2) (both .mul h.2.1 right)
    cases op with
    | add => exact both .add left right
    | sub => exact both .sub left right
    | mul =>
      rw [derivative_mul]
      exact both .add crossed.1 crossed.2
    | div =>
      rw [derivative_div]
      exact both .div (both .sub crossed.1 crossed.2) (both .pow h.2.2 (number _))
    | pow =>
      rw [derivative_pow]
      split
      · exact number 0
      · exact both .mul (both .mul h.2.2 (both .pow h.2.1 (both .sub h.2.2 (number 1)))) left
    | _ => exact number 0
  | un op e, h => by
    cases op with
    | neg => exact ⟨atomic.un _ _, EveryNode.derivative x e h.2⟩
    | _ => exact atomic.num 0
  | call name [], _ => atomic.num 0
  | call name [arg], h => by
    rw [derivative_call]
    exact EveryNode.chainRule atomic applied name h.2.1 (EveryNode.derivative x arg h.2.1)
  | call name (_ :: _ :: _), _ => atomic.num 0
  | tensor _, _ => atomic.num 0

end Nodes

/-- The derived tree evaluates to the slope of the tree, as a function of what `name` stands for. -/
theorem hasDerivAt_evaluate (e : Expr ℝ) (name : String) {b : Option (Bindings ℝ)}
    {c : ℝ → Option (Bindings ℝ)} (x : ℝ) (s : RandomStream)
    (rebinds : ∀ t, Bindings.Rebinds b (canonicalName name) t (c t))
    (canonical : e.EveryNode NameCanonical) (drawless : e.EveryNode DrawsNothing)
    (covered : e.EveryNode fun n =>
      n.mentions (canonicalName name) = true → Covered (canonicalName name) n)
    (domain : e.EveryNode fun n => n.mentions (canonicalName name) = true → InDomain (c x) n) :
    HasDerivAt (fun t => (e.evaluate (c t) s).1)
      ((e.differentiate name).value.evaluate (c x) s).1 x := by
  have derived :=
    EveryNode.derivative atomic_drawsNothing (fun _ _ => trivial) (canonicalName name) e drawless
  simp only [differentiate, evaluate_eq_value _ _ drawless, evaluate_eq_value _ _ derived]
  exact hasDerivAt_value rebinds e canonical covered domain

theorem hasDerivAt_evaluate_quotient :
    let e : Expr ℝ := bin .add (bin .div (call "LN" [var "X"]) (bin .pow (var "X") (num 2)))
      (bin .mul (call "SQRT" [var "X"]) (bin .div (num 1) (var "B")))
    let c : ℝ → Option (Bindings ℝ) := fun t => some ⟨[0, t], some [("B", 0), ("X", 1)]⟩
    let s : RandomStream := ⟨#[], 0⟩
    (∀ t, Bindings.Rebinds (c 0) (canonicalName "x") t (c t)) ∧ e.EveryNode NameCanonical ∧
      e.EveryNode DrawsNothing ∧
      (e.EveryNode fun n => n.mentions (canonicalName "x") = true →
        Covered (canonicalName "x") n) ∧
      (e.EveryNode fun n => n.mentions (canonicalName "x") = true → InDomain (c 2) n) ∧
      HasDerivAt (fun t => (e.evaluate (c t) s).1)
        ((e.differentiate "x").value.evaluate (c 2) s).1 2 := by
  intro e c s
  have upper : canonicalName "x" = "X" := by decide +kernel
  have two : valueOf (c 2) "X" = 2 := by
    simp [c, valueOf, Bindings.lookup?, Bindings.index?, Bindings.position?, canonicalName_x,
      List.lookup]
  have rebinds : ∀ t, Bindings.Rebinds (c 0) (canonicalName "x") t (c t) := by
    intro t
    refine Bindings.rebinds_set (b := ⟨[0, 0], some [("B", 0), ("X", 1)]⟩) (t := t) ?_ ?_ ?_
    · simp [Bindings.set, Bindings.index?, Bindings.position?, upper, List.lookup]
    · intro y i here there
      rw [upper] at there ⊢
      by_contra other
      by_cases b : y = "B"
      · subst b
        simp [Bindings.position?, List.lookup] at here there
        omega
      · simp [Bindings.position?, List.lookup, beq_false_of_ne b, beq_false_of_ne other] at here
    · rintro names ⟨rfl⟩ y i there
      by_cases b : y = "B"
      · simp [List.lookup, b] at there
        simp [← there]
      · by_cases x : y = "X"
        · simp [List.lookup, x] at there
          simp [← there]
        · simp [List.lookup, beq_false_of_ne b, beq_false_of_ne x] at there
  have canonical : e.EveryNode NameCanonical := by
    have other : canonicalName "B" = "B" := by decide +kernel
    simp [e, EveryNode, EveryNodes, NameCanonical, canonicalName_x, other]
  have drawless : e.EveryNode DrawsNothing := by
    simp [e, EveryNode, EveryNodes, DrawsNothing]
  have covered : e.EveryNode fun n => n.mentions (canonicalName "x") = true →
      Covered (canonicalName "x") n := by
    simp [e, EveryNode, EveryNodes, Covered, upper, mentions, ruled]
  have domain : e.EveryNode fun n => n.mentions (canonicalName "x") = true →
      InDomain (c 2) n := by
    have power : BinaryOp.pow.apply (2 : ℝ) 2 ≠ 0 := by
      change (2 : ℝ) ^ (2 : ℝ) ≠ 0
      positivity
    simp [e, EveryNode, EveryNodes, InDomain, upper, mentions, mentionsAny, value, two, power]
  exact ⟨rebinds, canonical, drawless, covered, domain,
    hasDerivAt_evaluate e "x" 2 s rebinds canonical drawless covered domain⟩

/-- `RND() + RND() * X` with draws `0` and then a positive number: the slope is the second draw, and
the derived tree, which draws once, finds the first. -/
theorem not_hasDerivAt_evaluate_drawn :
    let e : Expr ℝ := bin .add (call "RND" []) (bin .mul (call "RND" []) (var "X"))
    let c : ℝ → Option (Bindings ℝ) := fun t => some ⟨[t], some [("X", 0)]⟩
    let s : RandomStream := ⟨(Array.replicate RandomStream.size 0).set! 2 1, 0⟩
    (∀ t, Bindings.Rebinds (c 0) (canonicalName "X") t (c t)) ∧ e.EveryNode NameCanonical ∧
      (e.EveryNode fun n => n.mentions (canonicalName "X") = true →
        Covered (canonicalName "X") n) ∧
      (e.EveryNode fun n => n.mentions (canonicalName "X") = true → InDomain (c 2) n) ∧
      ¬ HasDerivAt (fun t => (e.evaluate (c t) s).1)
        ((e.differentiate "X").value.evaluate (c 2) s).1 2 := by
  intro e c s
  have bound (t : ℝ) : valueOf (c t) "X" = t := Bindings.valueOf_named canonicalName_x t
  have rebinds : ∀ t, Bindings.Rebinds (c 0) (canonicalName "X") t (c t) := by
    rw [canonicalName_x]
    exact Bindings.rebinds_named 0
  have canonical : e.EveryNode NameCanonical := by
    simp [e, EveryNode, EveryNodes, NameCanonical, canonicalName_x]
  have covered : e.EveryNode fun n => n.mentions (canonicalName "X") = true →
      Covered (canonicalName "X") n := by
    simp [e, EveryNode, EveryNodes, Covered, canonicalName_x, mentions, mentionsAny]
  have domain : e.EveryNode fun n => n.mentions (canonicalName "X") = true →
      InDomain (c 2) n := by
    simp [e, EveryNode, EveryNodes, InDomain]
  refine ⟨rebinds, canonical, covered, domain, ?_⟩
  obtain ⟨first, second⟩ : s.draw.1 = 0 ∧ s.draw.2.draw.1 ≠ 0 := RandomStream.draws_uneven
  have nothing : (Scalar.ofDraw 0 : ℝ) = 0 := (ofDraw_eq_zero_iff 0).2 rfl
  have something : (Scalar.ofDraw s.draw.2.draw.1 : ℝ) ≠ 0 :=
    fun zero => second ((ofDraw_eq_zero_iff _).1 zero)
  have line (t : ℝ) : (e.evaluate (c t) s).1 = Scalar.ofDraw s.draw.2.draw.1 * t := by
    simp [e, evaluate, evaluateAll, callFunction_rnd, first, nothing, bound, BinaryOp.apply]
  have found : ((e.differentiate "X").value.evaluate (c 2) s).1 = 0 := by
    simp [e, differentiate, derivative, clone, cloneAll, evaluate, evaluateAll, canonicalName_x,
      callFunction_rnd, first, nothing, BinaryOp.apply]
  simp only [line, found]
  intro slope
  have line' := (hasDerivAt_id (2 : ℝ)).const_mul (Scalar.ofDraw s.draw.2.draw.1 : ℝ)
  rw [mul_one] at line'
  exact something (line'.unique slope)

end Evaluation

end Expr

end DerivativeEngine
