import Mathlib.Tactic.SplitIfs
import DerivativeEngine.Rewrite.Antiderivative
import DerivativeEngine.Rewrite.Factor
import DerivativeEngine.Rewrite.Taylor

/-! What rewriters hold. The result of a rewriter is made of its own tensors: each of them was taken
at least as often as it stands in the result, and none was taken that stood in no tree before.
Copies and substitutions take exactly what stands in them; rules that drop a subtree, or simplify a
tree made on the way, have taken more. -/

namespace DerivativeEngine

namespace Expr

variable {α : Type}

/-- How often the tensor stands in the tree. -/
def occurrences (e : Expr α) (i : Nat) : Nat := e.handles.count i

variable (i : Nat)

@[simp] theorem occurrences_num (x : α) : (num x).occurrences i = 0 := rfl

@[simp] theorem occurrences_var (x : String) : (var x : Expr α).occurrences i = 0 := rfl

@[simp] theorem occurrences_bin (op : BinaryOp) (l r : Expr α) :
    (bin op l r).occurrences i = l.occurrences i + r.occurrences i := List.count_append

@[simp] theorem occurrences_un (op : UnaryOp) (e : Expr α) :
    (un op e).occurrences i = e.occurrences i := rfl

@[simp] theorem occurrences_apply1 (f : String) (e : Expr α) :
    (apply1 f e).occurrences i = e.occurrences i := by
  simp [occurrences, apply1, handles, handlesAll]

@[simp] theorem occurrences_square [Scalar α] (e : Expr α) :
    (square e).occurrences i = e.occurrences i := occurrences_bin i .pow e _

end Expr

namespace Retaining

variable {α β γ : Type}

@[simp] theorem count_pure (x : β) (i : Nat) : (pure x : Retaining β).count i = 0 := rfl

@[simp] theorem count_bind (x : Retaining β) (f : β → Retaining γ) (i : Nat) :
    (x >>= f).count i = x.count i + (f x.value).count i := List.count_append

/-- Every tensor of the tree was taken at least as often as it stands there. -/
def Suffices (x : Retaining (Expr α)) : Prop := ∀ i, x.value.occurrences i ≤ x.count i

def Exact (x : Retaining (Expr α)) : Prop := ∀ i, x.count i = x.value.occurrences i

theorem Exact.suffices {x : Retaining (Expr α)} (h : x.Exact) : x.Suffices :=
  fun i => Nat.le_of_eq (h i).symm

theorem Suffices.absent {x : Retaining (Expr α)} (h : x.Suffices) {i : Nat}
    (untaken : x.count i = 0) : x.value.occurrences i = 0 :=
  Nat.eq_zero_of_le_zero (untaken ▸ h i)

end Retaining

namespace Expr

variable {α : Type}

@[simp] theorem count_clone (e : Expr α) (i : Nat) : e.clone.count i = e.occurrences i := by
  rw [Retaining.count, clone_retained, occurrences]

mutual
theorem retained_replace (x : String) (r : Expr α) : ∀ e : Expr α,
    (replace x r e).retained = (replace x r e).value.handles
  | num _ => rfl
  | var y => by
    unfold replace
    split
    · rw [clone_retained, clone_value]
    · rfl
  | bin op l r' => by
    simp [replace, handles, retained_replace x r l, retained_replace x r r']
  | un op e => by simp [replace, handles, retained_replace x r e]
  | call f args => by simp [replace, handles, retained_replaceAll x r args]
  | tensor _ => rfl
theorem retained_replaceAll (x : String) (r : Expr α) : ∀ es : List (Expr α),
    (replaceAll x r es).retained = handlesAll (replaceAll x r es).value
  | [] => rfl
  | e :: es => by
    simp [replaceAll, handlesAll, retained_replace x r e, retained_replaceAll x r es]
end

mutual
theorem count_replace {x : String} {r : Expr α} {i : Nat} (absent : r.occurrences i = 0) :
    ∀ {e : Expr α}, e.occurrences i = 0 → (replace x r e).count i = 0
  | num _, _ => rfl
  | var y, _ => by
    unfold replace
    split
    · rwa [count_clone]
    · rfl
  | bin op l r', h => by
    rw [occurrences_bin, Nat.add_eq_zero_iff] at h
    simp [replace, count_replace absent h.1, count_replace absent h.2]
  | un op e, h => by
    rw [occurrences_un] at h
    simp [replace, count_replace absent h]
  | call f args, h => by
    have operands : (replaceAll x r args).count i = 0 := count_replaceAll absent h
    simp [replace, operands]
  | tensor t, h => by rwa [replace, count_clone]
theorem count_replaceAll {x : String} {r : Expr α} {i : Nat} (absent : r.occurrences i = 0) :
    ∀ {es : List (Expr α)}, (handlesAll es).count i = 0 → (replaceAll x r es).count i = 0
  | [], _ => rfl
  | e :: es, h => by
    rw [handlesAll, List.count_append, Nat.add_eq_zero_iff] at h
    simp [replaceAll, count_replace absent h.1, count_replaceAll absent h.2]
end

theorem exact_clone (e : Expr α) : e.clone.Exact := fun i => by rw [count_clone, clone_value]

theorem exact_substitute (e : Expr α) (name : String) (r : Expr α) :
    (e.substitute name r).Exact := fun i => by
  rw [Retaining.count, substitute, retained_replace, occurrences]

variable [Scalar α]

theorem occurrences_splitCoefficient (e : Expr α) (i : Nat) :
    e.splitCoefficient.2.occurrences i = e.occurrences i := by
  unfold splitCoefficient
  split <;> simp

theorem suffices_combineLikeTerms {l r : Expr α} {x : Retaining (Expr α)}
    (combined : combineLikeTerms l r = some x) : x.Suffices := by
  intro i
  simp only [combineLikeTerms, Option.ite_none_right_eq_some, Option.some.injEq] at combined
  obtain ⟨-, rfl⟩ := combined
  split_ifs <;> simp

theorem count_combineLikeTerms {l r : Expr α} {x : Retaining (Expr α)} {i : Nat}
    (combined : combineLikeTerms l r = some x) (absent : l.occurrences i = 0) :
    x.count i = 0 := by
  simp only [combineLikeTerms, Option.ite_none_right_eq_some, Option.some.injEq] at combined
  obtain ⟨-, rfl⟩ := combined
  split_ifs <;> simp [occurrences_splitCoefficient, absent]

theorem occurrences_simplifyOperands (op : BinaryOp) (l r : Expr α) (i : Nat) :
    (simplifyOperands op l r).value.occurrences i ≤
      l.occurrences i + r.occurrences i + (simplifyOperands op l r).count i := by
  unfold simplifyOperands
  split
  case h_1 =>
    split_ifs
    · simp
    · simp
    · cases combined : combineLikeTerms l r with
      | none => simp
      | some x =>
        have enough := suffices_combineLikeTerms combined i
        rw [Option.getD_some]
        omega
  case h_6 => simp
  all_goals split_ifs <;> simp

theorem count_simplifyOperands (op : BinaryOp) {l r : Expr α} {i : Nat}
    (absent : l.occurrences i = 0) : (simplifyOperands op l r).count i = 0 := by
  unfold simplifyOperands
  split
  case h_1 =>
    split_ifs
    · rfl
    · rfl
    · cases combined : combineLikeTerms l r with
      | none => rfl
      | some x => exact count_combineLikeTerms combined absent
  case h_6 => rfl
  all_goals split_ifs <;> rfl

theorem occurrences_simplifyBinary (op : BinaryOp) (l r : Expr α) (i : Nat) :
    (simplifyBinary op l r).value.occurrences i ≤
      l.occurrences i + r.occurrences i + (simplifyBinary op l r).count i := by
  unfold simplifyBinary
  split
  · simp
  · exact occurrences_simplifyOperands op _ _ i

theorem count_simplifyBinary (op : BinaryOp) {l r : Expr α} {i : Nat}
    (absent : l.occurrences i = 0) : (simplifyBinary op l r).count i = 0 := by
  unfold simplifyBinary
  split
  · rfl
  · exact count_simplifyOperands op absent

theorem occurrences_simplifyUnary (op : UnaryOp) (e : Expr α) (i : Nat) :
    (simplifyUnary op e).occurrences i ≤ e.occurrences i := by
  unfold simplifyUnary
  split <;> simp

mutual
theorem suffices_simplify : ∀ e : Expr α, (simplify e).Suffices
  | num _, _ => Nat.le_refl _
  | var _, _ => Nat.le_refl _
  | bin op l r, i => by
    have left := suffices_simplify l i
    have right := suffices_simplify r i
    have folded := occurrences_simplifyBinary op (simplify l).value (simplify r).value i
    simp only [simplify, Retaining.bind_value, Retaining.count_bind]
    omega
  | un op e, i => by
    have operand := suffices_simplify e i
    have folded := occurrences_simplifyUnary op (simplify e).value i
    simp only [simplify, Retaining.bind_value, Retaining.count_bind, Retaining.pure_value]
    omega
  | call f args, i => by
    have operands := suffices_simplifyAll args i
    simpa [simplify, occurrences, handles] using operands
  | tensor t, i => (exact_clone (tensor t)).suffices i
theorem suffices_simplifyAll : ∀ (es : List (Expr α)) (i : Nat),
    (handlesAll (simplifyAll es).value).count i ≤ (simplifyAll es).count i
  | [], _ => Nat.le_refl _
  | e :: es, i => by
    have first := suffices_simplify e i
    have rest := suffices_simplifyAll es i
    rw [occurrences] at first
    simp only [simplifyAll, Retaining.bind_value, Retaining.count_bind, Retaining.pure_value,
      Retaining.count_pure, handlesAll, List.count_append]
    omega
end

mutual
theorem count_simplify {i : Nat} : ∀ {e : Expr α}, e.occurrences i = 0 →
    (simplify e).count i = 0
  | num _, _ => rfl
  | var _, _ => rfl
  | bin op l r, h => by
    rw [occurrences_bin, Nat.add_eq_zero_iff] at h
    have left := count_simplify h.1
    have folded := count_simplifyBinary op (r := (simplify r).value)
      ((suffices_simplify l).absent left)
    simp [simplify, left, count_simplify h.2, folded]
  | un op e, h => by
    rw [occurrences_un] at h
    simp [simplify, count_simplify h]
  | call f args, h => by
    have operands : (simplifyAll args).count i = 0 := count_simplifyAll h
    simp [simplify, operands]
  | tensor t, h => by rwa [simplify, count_clone]
theorem count_simplifyAll {i : Nat} : ∀ {es : List (Expr α)}, (handlesAll es).count i = 0 →
    (simplifyAll es).count i = 0
  | [], _ => rfl
  | e :: es, h => by
    rw [handlesAll, List.count_append, Nat.add_eq_zero_iff] at h
    simp [simplifyAll, count_simplify h.1, count_simplifyAll h.2]
end

theorem occurrences_chainRule (name : String) (arg darg : Expr α) (i : Nat) :
    (chainRule name arg darg).value.occurrences i ≤
      darg.occurrences i + (chainRule name arg darg).count i := by
  unfold chainRule
  split_ifs <;> simp
  all_goals omega

theorem count_chainRule {name : String} {arg darg : Expr α} {i : Nat}
    (absent : arg.occurrences i = 0) : (chainRule name arg darg).count i = 0 := by
  unfold chainRule
  split_ifs <;> simp [absent]

theorem suffices_derivative (x : String) : ∀ e : Expr α, (derivative x e).Suffices
  | num _, _ => Nat.le_refl _
  | var _, _ => Nat.le_refl _
  | bin op l r, i => by
    have left := suffices_derivative x l i
    have right := suffices_derivative x r i
    cases op with
    | pow =>
      unfold derivative
      split_ifs
      · simp
      · simp
        omega
    | add | sub | mul | div =>
      simp [derivative]
      omega
    | _ => simp [derivative]
  | un op e, i => by
    have operand := suffices_derivative x e i
    cases op with
    | neg => simpa [derivative] using operand
    | _ => simp [derivative]
  | call name [], _ => Nat.le_refl _
  | call name [arg], i => by
    have inner := suffices_derivative x arg i
    have rule := occurrences_chainRule name arg (derivative x arg).value i
    simp only [derivative, Retaining.bind_value, Retaining.count_bind]
    omega
  | call name (_ :: _ :: _), _ => Nat.le_refl _
  | tensor _, _ => Nat.le_refl _

theorem count_derivative {x : String} {e : Expr α} {i : Nat} (absent : e.occurrences i = 0) :
    (derivative x e).count i = 0 := by
  fun_induction derivative x e with
  | case3 l r left right | case4 l r left right | case5 l r left right | case6 l r left right =>
    simp only [occurrences_bin, Nat.add_eq_zero_iff] at absent
    simp [absent, left, right]
  | case8 l r fixed base =>
    simp only [occurrences_bin, Nat.add_eq_zero_iff] at absent
    simp [absent, base]
  | case9 e operand => simp [operand absent]
  | case10 name arg inner =>
    have absent : arg.occurrences i = 0 := (occurrences_apply1 i name arg).symm.trans absent
    simp [inner absent, count_chainRule absent]
  | case1 | case2 | case7 | case11 => rfl

theorem suffices_partialDerivative (e : Expr α) (name : String) :
    (e.partialDerivative name).Suffices := by
  intro i
  have simplified := suffices_simplify (e.differentiate name).value i
  simp only [partialDerivative, Retaining.bind_value, Retaining.count_bind]
  omega

theorem count_partialDerivative {e : Expr α} {i : Nat} (absent : e.occurrences i = 0)
    (name : String) : (e.partialDerivative name).count i = 0 := by
  have taken : (e.differentiate name).count i = 0 := count_derivative absent
  have simplified := count_simplify ((suffices_derivative (canonicalName name) e).absent taken)
  simp only [partialDerivative, Retaining.count_bind, taken, Nat.zero_add]
  exact simplified

theorem occurrences_integralOfPower (x : String) (n : α) (i : Nat) :
    (integralOfPower x n).occurrences i = 0 := by
  unfold integralOfPower
  split_ifs <;> simp

theorem occurrences_integralOfCall (x name : String) (i : Nat) :
    (integralOfCall x name : Expr α).occurrences i = 0 := by
  unfold integralOfCall
  split_ifs <;> simp

theorem suffices_antiderivative (x : String) (e : Expr α) : (antiderivative x e).Suffices := by
  intro i
  fun_induction antiderivative x e with
  | case1 c => simp
  | case2 y => split_ifs <;> simp
  | case3 l r left right | case4 l r left right =>
    simp
    omega
  | case5 l r fixed operand | case6 l r varies fixed operand =>
    simp
    omega
  | case7 => simp
  | case8 y n => split_ifs <;> simp [occurrences_integralOfPower]
  | case9 e operand => simpa using operand
  | case10 name y => split_ifs <;> simp [occurrences_integralOfCall]
  | case11 => simp

theorem count_antiderivative {x : String} {e : Expr α} {i : Nat} (absent : e.occurrences i = 0) :
    (antiderivative x e).count i = 0 := by
  fun_induction antiderivative x e with
  | case3 l r left right | case4 l r left right =>
    simp only [occurrences_bin, Nat.add_eq_zero_iff] at absent
    simp [absent, left, right]
  | case5 l r fixed operand | case6 l r varies fixed operand =>
    simp only [occurrences_bin, Nat.add_eq_zero_iff] at absent
    simp [absent, operand]
  | case9 e operand => simp [operand absent]
  | case1 | case2 | case7 | case8 | case10 | case11 => rfl

theorem occurrences_factorSquares {x : String} {e product : Expr α}
    (factored : e.factorSquares x = some product) (i : Nat) : product.occurrences i = 0 := by
  unfold factorSquares at factored
  split at factored
  · simp only [Option.ite_none_right_eq_some, Option.map_eq_some_iff] at factored
    obtain ⟨-, k, -, rfl⟩ := factored
    simp [linearFactor]
  · cases factored

theorem occurrences_factorQuadratic {x : String} {a b c : α} {product : Expr α}
    (factored : factorQuadratic x a b c = some product) (i : Nat) : product.occurrences i = 0 := by
  unfold factorQuadratic at factored
  split at factored
  · cases factored
  dsimp only at factored
  split at factored
  · cases factored
  split at factored
  · obtain rfl := Option.some.inj factored
    split <;> simp [linearFactor]
  · cases factored

theorem factorCommon_cases {e : Expr α} {x : Retaining (Expr α)}
    (factored : e.factorCommon = .ok (some x)) : ∃ k t c d,
      e = bin .add (bin .mul (num k) t) (num c) ∧ x = do
        return bin .mul (num d) (bin .add (bin .mul (num (k / d)) (← t.clone)) (num (c / d))) := by
  unfold factorCommon at factored
  split at factored
  · rename_i k t c
    cases divisor : commonDivisor k c with
    | error e => simp [divisor, bind, Except.bind] at factored
    | ok d =>
      rw [divisor] at factored
      change (if d ≤ 1 + factorTolerance then _ else _) = _ at factored
      split at factored
      · cases factored
      · exact ⟨k, t, c, d, rfl, (Option.some.inj (Except.ok.inj factored)).symm⟩
  · cases factored

theorem occurrences_taylorTerm {base : Expr α} {i : Nat} (absent : base.occurrences i = 0)
    (k : Nat) (coefficient : α) : (taylorTerm base k coefficient).occurrences i = 0 := by
  unfold taylorTerm
  split <;> simp [absent]

theorem occurrences_taylorBase (x : String) (center : α) (i : Nat) :
    (taylorBase x center).occurrences i = 0 := by
  unfold taylorBase
  split <;> simp

theorem occurrences_sumOfTerms {terms : List (Expr α)} {i : Nat}
    (absent : ∀ t ∈ terms, t.occurrences i = 0) : (sumOfTerms terms).occurrences i = 0 := by
  cases terms with
  | nil => rfl
  | cons t ts =>
    rw [List.forall_mem_cons] at absent
    obtain ⟨first, rest⟩ := absent
    simp only [sumOfTerms]
    induction ts generalizing t with
    | nil => exact first
    | cons t' ts ih =>
      rw [List.forall_mem_cons] at rest
      exact ih (bin .add t t') (by simp [first, rest.1]) rest.2

variable [NumberText α]

theorem factor_cases {e : Expr α} {name : String} {engine : Engine} {x : Retaining (Expr α)}
    (factored : (e.factor name engine).1 = .ok x) :
    (∃ product : Expr α, x = pure product ∧ ∀ i, product.occurrences i = 0) ∨ x = e.clone ∨
      e.factorCommon = .ok (some x) := by
  rw [factor_result] at factored
  split at factored
  · rename_i product squares
    obtain rfl := Except.ok.inj factored
    exact .inl ⟨product, rfl, occurrences_factorSquares squares⟩
  · split at factored
    · rename_i product found
      obtain rfl := Except.ok.inj factored
      obtain ⟨⟨a, b, c⟩, -, quadratic⟩ := Option.bind_eq_some_iff.1 found
      exact .inl ⟨product, rfl, occurrences_factorQuadratic quadratic⟩
    · cases common : e.factorCommon with
      | error fault => simp [common, Except.map] at factored
      | ok x? =>
        rw [common] at factored
        obtain rfl := Except.ok.inj factored
        cases x? with
        | none => exact .inr (.inl rfl)
        | some x => exact .inr (.inr rfl)

theorem suffices_factor {e : Expr α} {name : String} {engine : Engine} {x : Retaining (Expr α)}
    (factored : (e.factor name engine).1 = .ok x) : x.Suffices := by
  rcases factor_cases factored with ⟨product, rfl, absent⟩ | rfl | common
  · exact fun i => Nat.le_of_eq (absent i)
  · exact (exact_clone e).suffices
  · obtain ⟨k, t, c, d, rfl, rfl⟩ := factorCommon_cases common
    intro i
    simp

theorem count_factor {e : Expr α} {name : String} {engine : Engine} {x : Retaining (Expr α)}
    (factored : (e.factor name engine).1 = .ok x) {i : Nat} (absent : e.occurrences i = 0) :
    x.count i = 0 := by
  rcases factor_cases factored with ⟨product, rfl, -⟩ | rfl | common
  · rfl
  · rwa [count_clone]
  · obtain ⟨k, t, c, d, rfl, rfl⟩ := factorCommon_cases common
    simpa using absent

theorem taylorTerms_holds (x : String) (center : α) {base : Expr α} {i : Nat}
    (absent : base.occurrences i = 0) (left k : Nat) (factorial : α) (e : Expr α)
    (engine : Engine) :
    (∀ t ∈ (taylorTerms x center base left k factorial e engine).1.value, t.occurrences i = 0) ∧
      (e.occurrences i = 0 →
        (taylorTerms x center base left k factorial e engine).1.count i = 0) := by
  have own (k : Nat) (c : α) :
      ∀ t ∈ (if taylorCutoff ≤ Scalar.abs c then [taylorTerm base k c] else []),
        t.occurrences i = 0 := by
    split
    · exact List.forall_mem_singleton.2 (occurrences_taylorTerm absent k c)
    · simp
  -- What is taken is taken by the derivatives on the way.
  induction left generalizing k factorial e engine with
  | zero =>
    rw [taylorTerms]
    simp only [bind, StateT.bind]
    split
    split
    · exact ⟨nofun, fun _ => rfl⟩
    · exact ⟨own _ _, fun _ => rfl⟩
  | succ left ih =>
    rw [taylorTerms]
    simp only [bind, StateT.bind]
    split
    rename_i value engine' _
    split
    · exact ⟨nofun, fun _ => rfl⟩
    · have rest := ih (k + 1) (factorial * Scalar.ofNat (k + 1)) (e.partialDerivative x).value
        engine'
      refine ⟨List.forall_mem_append.2 ⟨own _ _, rest.1⟩, fun untaken => ?_⟩
      have next := count_partialDerivative untaken x
      have others := rest.2 ((suffices_partialDerivative e x).absent next)
      change ((e.partialDerivative x).retained ++ (_ ++ [])).count i = 0
      rw [List.append_nil, List.count_append]
      exact Nat.add_eq_zero_iff.2 ⟨next, others⟩

theorem suffices_taylor {e : Expr α} {name : String} {center : α} {order : Int} {engine : Engine}
    {x : Retaining (Expr α)} (expanded : (e.taylor? name center order engine).1 = .ok x) :
    x.Suffices := by
  intro i
  unfold taylor? at expanded
  split at expanded
  · cases expanded
  · obtain rfl := Except.ok.inj expanded
    have terms := (taylorTerms_holds (canonicalName name) center
      (occurrences_taylorBase (canonicalName name) center i) order.toNat 0 1 e engine).1
    exact Nat.le_trans (Nat.le_of_eq (occurrences_sumOfTerms terms)) (Nat.zero_le _)

theorem count_taylor {e : Expr α} {name : String} {center : α} {order : Int} {engine : Engine}
    {x : Retaining (Expr α)} (expanded : (e.taylor? name center order engine).1 = .ok x) {i : Nat}
    (absent : e.occurrences i = 0) : x.count i = 0 := by
  unfold taylor? at expanded
  split at expanded
  · cases expanded
  · obtain rfl := Except.ok.inj expanded
    have taken := (taylorTerms_holds (canonicalName name) center
      (occurrences_taylorBase (canonicalName name) center i) order.toNat 0 1 e engine).2 absent
    rw [Retaining.count_bind, Retaining.count_pure, Nat.add_zero]
    exact taken

end Expr

end DerivativeEngine
