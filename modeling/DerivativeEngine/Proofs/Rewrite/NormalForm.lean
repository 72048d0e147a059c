import DerivativeEngine.Proofs.Rewrite.Simplification
import DerivativeEngine.Proofs.Scalar.Fields

/-! What simplification comes to. A node is simple when no rule of its operator applies to it, and a
tree is in normal form when all its nodes are simple. Simplification gives normal forms and leaves
them alone, so it has nothing left to do the second time, and no rule makes a tree larger. Of the
scalars this asks that a number that counts as zero, or as one, is close to it where coefficients
are compared; doubles are like that. -/

namespace DerivativeEngine

namespace Expr

variable {α : Type}

def isNumeral : Expr α → Bool
  | num _ => true
  | _ => false

def isNegation : Expr α → Bool
  | un .neg _ => true
  | _ => false

variable [Scalar α]

def areLike (l r : Expr α) : Bool := (splitCoefficient l).2.equal (splitCoefficient r).2

/-- An operator between two operands that no rule applies to, for operands that are not both
numbers. -/
def Stays (l r : Expr α) : BinaryOp → Prop
  | .add => r.isNumber 0 = false ∧ l.isNumber 0 = false ∧ areLike l r = false
  | .sub => r.isNumber 0 = false
  | .mul => (r.isNumber 0 = false ∧ l.isNumber 0 = false) ∧
      r.isNumber 1 = false ∧ l.isNumber 1 = false
  | .div => l.isNumber 0 = false ∧ r.isNumber 1 = false
  | .pow => r.isNumber 0 = false ∧ r.isNumber 1 = false ∧
      l.isNumber 0 = false ∧ l.isNumber 1 = false
  | _ => True

/-- No rule applies at the root of the tree. -/
def Simple : Expr α → Prop
  | bin op l r => areNumbers l r = false ∧ Stays l r op
  | un op e => e.isNumeral = false ∧ (op = .neg → e.isNegation = false)
  | _ => True

/-- What counts as zero or as one is close to it. -/
structure Sharp (α : Type) [Scalar α] : Prop where
  zero : ∀ x : α, (x == 0) = true → near x 0 = true
  one : ∀ x : α, (x == 1) = true → near x 1 = true

theorem simple_num (x : α) : (num x).EveryNode Simple := trivial

omit [Scalar α] in
theorem areNumbers_eq (l r : Expr α) : areNumbers l r = (l.isNumeral && r.isNumeral) := by
  cases l <;> cases r <;> rfl

theorem combineLikeTerms_of_not_like {l r : Expr α} (h : areLike l r = false) :
    combineLikeTerms l r = none := by
  unfold areLike at h
  simp only [combineLikeTerms, h]
  rfl

theorem simplifyBinary_of_not_numbers {op : BinaryOp} {l r : Expr α}
    (h : areNumbers l r = false) : simplifyBinary op l r = simplifyOperands op l r := by
  unfold simplifyBinary
  split
  · cases h
  · rfl

theorem simplifyOperands_of_stays {op : BinaryOp} {l r : Expr α} (h : Stays l r op) :
    simplifyOperands op l r = pure (bin op l r) := by
  cases op with
  | add =>
    obtain ⟨r0, l0, unlike⟩ := h
    rw [simplifyOperands_add, combineLikeTerms_of_not_like unlike, r0, l0]
    rfl
  | sub =>
    have r0 : r.isNumber 0 = false := h
    rw [simplifyOperands_sub, r0]
    rfl
  | mul =>
    obtain ⟨⟨r0, l0⟩, r1, l1⟩ := h
    rw [simplifyOperands_mul, r0, l0, r1, l1]
    rfl
  | div =>
    obtain ⟨l0, r1⟩ := h
    rw [simplifyOperands_div, l0, r1]
    rfl
  | pow =>
    obtain ⟨r0, r1, l0, l1⟩ := h
    rw [simplifyOperands_pow, r0, r1, l0, l1]
    rfl
  | _ => rfl

theorem simplifyUnary_of_simple {op : UnaryOp} {e : Expr α} (h : Simple (un op e)) :
    simplifyUnary op e = un op e := by
  obtain ⟨notNumeral, notNegation⟩ := h
  unfold simplifyUnary
  split
  · cases notNumeral
  · cases notNegation rfl
  · rfl

mutual
theorem simplify_of_simple : ∀ e : Expr α, e.EveryNode Simple → (simplify e).value = e
  | num _, _ => rfl
  | var _, _ => rfl
  | bin op l r, ⟨⟨notNumbers, stays⟩, hl, hr⟩ => by
    rw [simplify_bin, simplify_of_simple l hl, simplify_of_simple r hr,
      simplifyBinary_of_not_numbers notNumbers, simplifyOperands_of_stays stays]
    rfl
  | un op e, ⟨simple, he⟩ => by
    rw [simplify_un, simplify_of_simple e he, simplifyUnary_of_simple simple]
  | call name args, h => by
    rw [simplify, Retaining.bind_value, simplifyAll_of_simple args h.2]
    rfl
  | tensor _, _ => rfl
theorem simplifyAll_of_simple : ∀ es : List (Expr α), EveryNodes Simple es →
    (simplifyAll es).value = es
  | [], _ => rfl
  | e :: es, ⟨he, hes⟩ => by
    rw [simplifyAll, Retaining.bind_value, Retaining.bind_value, simplify_of_simple e he,
      simplifyAll_of_simple es hes]
    rfl
end

theorem isNumeral_of_equal {e e' : Expr α} (h : equal e e' = true) :
    e.isNumeral = e'.isNumeral := by
  cases e <;> cases e' <;> first | rfl | simp [equal] at h

theorem isNumeral_splitCoefficient {e : Expr α} (h : e.EveryNode Simple) :
    (splitCoefficient e).2.isNumeral = e.isNumeral := by
  unfold splitCoefficient
  split
  · next x r =>
    have notNumbers := h.1.1
    rw [areNumbers_eq] at notNumbers
    exact notNumbers
  · next l x _ =>
    have notNumbers := h.1.1
    rw [areNumbers_eq, Bool.and_comm] at notNumbers
    exact notNumbers
  · rfl

theorem not_isNumeral_of_like {l r : Expr α} (hl : l.EveryNode Simple) (hr : r.EveryNode Simple)
    (notNumbers : areNumbers l r = false) (like : areLike l r = true) :
    (splitCoefficient l).2.isNumeral = false := by
  have same := isNumeral_of_equal like
  rw [isNumeral_splitCoefficient hl, isNumeral_splitCoefficient hr] at same
  rw [areNumbers_eq, ← same, Bool.and_self] at notNumbers
  rw [isNumeral_splitCoefficient hl, notNumbers]

theorem not_isNumber_of_not_isNumeral {e : Expr α} (h : e.isNumeral = false) (x : α) :
    e.isNumber x = false := by
  cases e with
  | num y => cases h
  | _ => rfl

theorem simple_scaled (sharp : Sharp α) {c : α} {t : Expr α} (ht : t.EveryNode Simple)
    (notNumeral : t.isNumeral = false) (notZero : near c 0 = false) (notOne : near c 1 = false) :
    (bin .mul (num c) t).EveryNode Simple := by
  have c0 : (c == 0) = false := Bool.eq_false_iff.2 fun h => by
    rw [sharp.zero c h] at notZero
    cases notZero
  have c1 : (c == 1) = false := Bool.eq_false_iff.2 fun h => by
    rw [sharp.one c h] at notOne
    cases notOne
  have plain := not_isNumber_of_not_isNumeral notNumeral
  have notNumbers : areNumbers (num c) t = false := (areNumbers_eq _ _).trans notNumeral
  exact ⟨⟨notNumbers, ⟨plain 0, c0⟩, plain 1, c1⟩, simple_num c, ht⟩

theorem simple_combined (sharp : Sharp α) {l r : Expr α} (hl : l.EveryNode Simple)
    (hr : r.EveryNode Simple) (notNumbers : areNumbers l r = false) (like : areLike l r = true) :
    ∃ e, combineLikeTerms l r = some e ∧ e.value.EveryNode Simple := by
  have term := not_isNumeral_of_like hl hr notNumbers like
  have ht := hl.splitCoefficient
  unfold areLike at like
  simp only [combineLikeTerms, like, if_true]
  refine ⟨_, rfl, ?_⟩
  split
  · exact simple_num 0
  · next notZero =>
    split
    · simpa using ht
    · next notOne =>
      simpa using simple_scaled sharp ht term (by simpa using notZero) (by simpa using notOne)

omit [Scalar α] in
theorem EveryNode.orElse {p : Expr α → Prop} {c : Bool} {x y : Retaining (Expr α)}
    (hx : x.value.EveryNode p) (hy : c = false → y.value.EveryNode p) :
    (if c then x else y).value.EveryNode p := by
  cases c with
  | true => exact hx
  | false => exact hy rfl

theorem simple_simplifyOperands (sharp : Sharp α) (op : BinaryOp) {l r : Expr α}
    (hl : l.EveryNode Simple) (hr : r.EveryNode Simple) (notNumbers : areNumbers l r = false) :
    (simplifyOperands op l r).value.EveryNode Simple := by
  have both (op : BinaryOp) (stays : Stays l r op) : (bin op l r).EveryNode Simple :=
    ⟨⟨notNumbers, stays⟩, hl, hr⟩
  cases op with
  | add =>
    refine .orElse hl fun r0 => .orElse hr fun l0 => ?_
    cases like : areLike l r with
    | true =>
      obtain ⟨e, combined, simple⟩ := simple_combined sharp hl hr notNumbers like
      rw [combined]
      exact simple
    | false =>
      rw [combineLikeTerms_of_not_like like]
      exact both .add ⟨r0, l0, like⟩
  | sub => exact .orElse hl fun r0 => both .sub r0
  | mul =>
    exact .orElse (simple_num 0) fun zero => .orElse hl fun r1 => .orElse hr fun l1 =>
      both .mul ⟨Bool.or_eq_false_iff.1 zero, r1, l1⟩
  | div => exact .orElse (simple_num 0) fun l0 => .orElse hl fun r1 => both .div ⟨l0, r1⟩
  | pow =>
    exact .orElse (simple_num 1) fun r0 => .orElse hl fun r1 => .orElse (simple_num 0) fun l0 =>
      .orElse (simple_num 1) fun l1 => both .pow ⟨r0, r1, l0, l1⟩
  | _ => exact both _ trivial

theorem simple_simplifyBinary (sharp : Sharp α) (op : BinaryOp) {l r : Expr α}
    (hl : l.EveryNode Simple) (hr : r.EveryNode Simple) :
    (simplifyBinary op l r).value.EveryNode Simple := by
  cases numbers : areNumbers l r with
  | true =>
    cases l <;> cases r <;> first | exact simple_num _ | cases numbers
  | false =>
    rw [simplifyBinary_of_not_numbers numbers]
    exact simple_simplifyOperands sharp op hl hr numbers

theorem simple_simplifyUnary (op : UnaryOp) {e : Expr α} (he : e.EveryNode Simple) :
    (simplifyUnary op e).EveryNode Simple := by
  unfold simplifyUnary
  split
  · exact simple_num _
  · exact he.2
  · next notNumeral notNegation =>
    refine ⟨⟨?_, ?_⟩, he⟩
    · cases e with
      | num x => exact absurd rfl (notNumeral x)
      | _ => rfl
    · rintro rfl
      cases e with
      | un op e =>
        cases op with
        | neg => exact absurd rfl (notNegation e rfl)
        | _ => rfl
      | _ => rfl

mutual
theorem simple_simplify (sharp : Sharp α) : ∀ e : Expr α, (simplify e).value.EveryNode Simple
  | num x => simple_num x
  | var _ => trivial
  | bin op l r =>
    simple_simplifyBinary sharp op (simple_simplify sharp l) (simple_simplify sharp r)
  | un op e => simple_simplifyUnary op (simple_simplify sharp e)
  | call _ args => ⟨trivial, simple_simplifyAll sharp args⟩
  | tensor _ => trivial
theorem simple_simplifyAll (sharp : Sharp α) :
    ∀ es : List (Expr α), EveryNodes Simple (simplifyAll es).value
  | [] => trivial
  | e :: es => ⟨simple_simplify sharp e, simple_simplifyAll sharp es⟩
end

theorem countOperations_splitCoefficient (e : Expr α) :
    (splitCoefficient e).2.countOperations ≤ e.countOperations := by
  unfold splitCoefficient
  split
  · simp only [countOperations]
    omega
  · simp only [countOperations]
    omega
  · exact Nat.le_refl _

theorem countOperations_combineLikeTerms {l r : Expr α} {e : Retaining (Expr α)}
    (combined : combineLikeTerms l r = some e) :
    e.value.countOperations ≤ 1 + l.countOperations := by
  have term := countOperations_splitCoefficient l
  simp only [combineLikeTerms, Option.ite_none_right_eq_some, Option.some.injEq] at combined
  obtain ⟨-, rfl⟩ := combined
  split
  · exact Nat.zero_le _
  · split
    · rw [clone_value]
      omega
    · simp only [Retaining.bind_value, Retaining.pure_value, clone_value, countOperations]
      omega

omit [Scalar α] in
theorem countOperations_ite {c : Bool} {x y : Retaining (Expr α)} {n : Nat}
    (hx : x.value.countOperations ≤ n) (hy : y.value.countOperations ≤ n) :
    (if c then x else y).value.countOperations ≤ n := by
  cases c with
  | true => exact hx
  | false => exact hy

theorem countOperations_simplifyOperands (op : BinaryOp) (l r : Expr α) :
    (simplifyOperands op l r).value.countOperations ≤
      1 + l.countOperations + r.countOperations := by
  have left : l.countOperations ≤ 1 + l.countOperations + r.countOperations := by omega
  have right : r.countOperations ≤ 1 + l.countOperations + r.countOperations := by omega
  have number (x : α) : (num x).countOperations ≤ 1 + l.countOperations + r.countOperations :=
    Nat.zero_le _
  have both : 1 + l.countOperations + r.countOperations ≤
      1 + l.countOperations + r.countOperations := Nat.le_refl _
  cases op with
  | add =>
    refine countOperations_ite left (countOperations_ite right ?_)
    cases combined : combineLikeTerms l r with
    | none => exact both
    | some e => exact Nat.le_add_right_of_le (countOperations_combineLikeTerms combined)
  | sub => exact countOperations_ite left both
  | mul =>
    exact countOperations_ite (number 0) (countOperations_ite left (countOperations_ite right both))
  | div => exact countOperations_ite (number 0) (countOperations_ite left both)
  | pow =>
    exact countOperations_ite (number 1) (countOperations_ite left
      (countOperations_ite (number 0) (countOperations_ite (number 1) both)))
  | _ => exact both

theorem countOperations_simplifyBinary (op : BinaryOp) (l r : Expr α) :
    (simplifyBinary op l r).value.countOperations ≤
      1 + l.countOperations + r.countOperations := by
  unfold simplifyBinary
  split
  · exact Nat.zero_le _
  · exact countOperations_simplifyOperands op l r

theorem countOperations_simplifyUnary (op : UnaryOp) (e : Expr α) :
    (simplifyUnary op e).countOperations ≤ 1 + e.countOperations := by
  unfold simplifyUnary
  split
  · exact Nat.zero_le _
  · simp only [countOperations]
    omega
  · exact Nat.le_refl _

mutual
theorem countOperations_simplify : ∀ e : Expr α,
    (simplify e).value.countOperations ≤ e.countOperations
  | num _ => Nat.le_refl _
  | var _ => Nat.le_refl _
  | bin op l r => by
    have rule := countOperations_simplifyBinary op (simplify l).value (simplify r).value
    have left := countOperations_simplify l
    have right := countOperations_simplify r
    simp only [simplify, Retaining.bind_value, countOperations]
    omega
  | un op e => by
    have rule := countOperations_simplifyUnary op (simplify e).value
    have operand := countOperations_simplify e
    simp only [simplify, Retaining.bind_value, Retaining.pure_value, countOperations]
    omega
  | call name args => by
    have operands := countOperationsAll_simplifyAll args
    simp only [simplify, Retaining.bind_value, Retaining.pure_value, countOperations]
    omega
  | tensor _ => Nat.le_refl _
theorem countOperationsAll_simplifyAll : ∀ es : List (Expr α),
    countOperationsAll (simplifyAll es).value ≤ countOperationsAll es
  | [] => Nat.le_refl _
  | e :: es => by
    have first := countOperations_simplify e
    have rest := countOperationsAll_simplifyAll es
    simp only [simplifyAll, Retaining.bind_value, Retaining.pure_value, countOperationsAll]
    omega
end

open Float.Model.UnpackedFloat in
theorem near_zero_of_beq {x : Float} (h : (x == 0) = true) : near x 0 = true := by
  obtain ⟨s, hs⟩ := Double.beq_zero_iff.1 h
  have difference : x - 0 = Float.ofModel (.pack (.sub .binary64 (.zero s) (.zero .positive))) := by
    change Float.ofModel (.pack (.sub .binary64 x.toModel.unpack _)) = _
    rw [hs]
    rfl
  unfold near
  rw [difference]
  cases s <;> decide

open Float.Model.UnpackedFloat in
theorem near_one_of_beq {x : Float} (h : (x == 1) = true) : near x 1 = true := by
  have one : x.toModel.unpack = (1 : Float).toModel.unpack := by
    rcases Double.unpack_of_beq h with same | ⟨-, t, zero⟩
    · exact same
    · cases zero
  have difference : x - 1 = 1 - 1 := by
    change Float.ofModel (.pack (.sub .binary64 x.toModel.unpack _)) = _
    rw [one]
    rfl
  unfold near
  rw [difference]
  decide

theorem sharp_float : Sharp Float where
  zero _ := near_zero_of_beq
  one _ := near_one_of_beq

/-- A simplified tree is in normal form, so simplifying it again changes no node of it, and it has
no more operators and calls than the tree it was made from. -/
theorem simplify_simplify (e : Expr Float) :
    (simplify e).value.EveryNode Simple ∧
      (simplify (simplify e).value).value = (simplify e).value ∧
      (simplify e).value.countOperations ≤ e.countOperations := by
  have simple := simple_simplify sharp_float e
  exact ⟨simple, simplify_of_simple _ simple, countOperations_simplify e⟩

end Expr

end DerivativeEngine
