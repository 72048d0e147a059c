import Mathlib
import DerivativeEngine.Proofs.Rewrite.Differentiation
import DerivativeEngine.Proofs.Rewrite.NormalForm
import DerivativeEngine.Proofs.Scalar.Fields

/-! The slope of what does not hold the variable. By the rules of calculus it is made of zeros, and
simplification folds these up into one number: a factor that is no number by itself goes away with
the zero beside it, and a factor that has come to a number is multiplied in. So the simplified
derivative is a zero, unless such a factor is infinite or no number, as a power of zero or an
overflow makes it: the product is folded first, and it is nan. -/

namespace DerivativeEngine.Expr

variable {α : Type} [Scalar α]

/-- If the tree simplifies to a number, then to one with the property. -/
def Folds (P : α → Prop) (e : Expr α) : Prop := ∀ c, (simplify e).value = num c → P c

def FoldsFinite (e : Expr α) : Prop := e.Folds fun c => Scalar.isFinite c = true

def FoldsNumber (e : Expr α) : Prop := e.Folds fun c => Scalar.isNaN c = false

/-- Where a rule multiplies a slope, the factor does not come to an infinity or to nan, and where it
divides one, the divisor does not come to nan. -/
def Harmless : Expr α → Prop
  | bin .add l r | bin .sub l r => Harmless l ∧ Harmless r
  | bin .mul l r => (Harmless l ∧ Harmless r) ∧ FoldsFinite l ∧ FoldsFinite r
  | bin .div l r =>
    (Harmless l ∧ Harmless r) ∧ (FoldsFinite l ∧ FoldsFinite r) ∧ FoldsNumber (square r)
  | bin .pow l r => Harmless l ∧ FoldsFinite (bin .mul r (bin .pow l (bin .sub r (num 1))))
  | un .neg e => Harmless e
  | call name [arg] => name ∈ ruled → Harmless arg ∧ (name ∈ ["LOG", "LN"] → FoldsNumber arg)
  | _ => True

def IsZero (e : Expr α) : Prop := ∃ z, (z == 0) = true ∧ e = num z

theorem folds_of_not_numeral {P : α → Prop} {e : Expr α}
    (h : (simplify e).value.isNumeral = false) : e.Folds P := by
  intro c number
  rw [number] at h
  cases h

section Operands

variable (laws : Scalar.ZeroLaws α) {l r e : Expr α}
include laws

theorem isZero_num : IsZero (num (0 : α)) := ⟨0, laws.zero, rfl⟩

theorem isZero_add (hl : IsZero (simplify l).value) (hr : IsZero (simplify r).value) :
    IsZero (simplify (bin .add l r)).value := by
  obtain ⟨z, hz, left⟩ := hl
  obtain ⟨z', hz', right⟩ := hr
  refine ⟨z + z', laws.add z z' hz hz', ?_⟩
  rw [simplify_bin, left, right]
  rfl

theorem isZero_sub (hl : IsZero (simplify l).value) (hr : IsZero (simplify r).value) :
    IsZero (simplify (bin .sub l r)).value := by
  obtain ⟨z, hz, left⟩ := hl
  obtain ⟨z', hz', right⟩ := hr
  refine ⟨z - z', laws.sub z z' hz hz', ?_⟩
  rw [simplify_bin, left, right]
  rfl

theorem isZero_neg (h : IsZero (simplify e).value) : IsZero (simplify (un .neg e)).value := by
  obtain ⟨z, hz, operand⟩ := h
  refine ⟨-z, laws.neg z hz, ?_⟩
  rw [simplify_un, operand]
  rfl

theorem isZero_mul_right (hl : IsZero (simplify l).value) (finite : FoldsFinite r) :
    IsZero (simplify (bin .mul l r)).value := by
  obtain ⟨z, hz, left⟩ := hl
  rw [simplify_bin, left]
  cases numbers : areNumbers (num z) (simplify r).value with
  | true =>
    cases right : (simplify r).value with
    | num c => exact ⟨z * c, laws.mul_right z c hz (finite c right), rfl⟩
    | _ => simp [right, areNumbers] at numbers
  | false =>
    have gone : ((simplify r).value.isNumber 0 || (num z).isNumber 0) = true :=
      Bool.or_eq_true_iff.2 (.inr hz)
    rw [simplifyBinary_of_not_numbers numbers, simplifyOperands_mul, if_pos gone]
    exact isZero_num laws

theorem isZero_mul_left (finite : FoldsFinite l) (hr : IsZero (simplify r).value) :
    IsZero (simplify (bin .mul l r)).value := by
  obtain ⟨z, hz, right⟩ := hr
  rw [simplify_bin, right]
  cases numbers : areNumbers (simplify l).value (num z) with
  | true =>
    cases left : (simplify l).value with
    | num c => exact ⟨c * z, laws.mul_left c z (finite c left) hz, rfl⟩
    | _ => simp [left, areNumbers] at numbers
  | false =>
    have gone : ((num z).isNumber 0 || (simplify l).value.isNumber 0) = true :=
      Bool.or_eq_true_iff.2 (.inl hz)
    rw [simplifyBinary_of_not_numbers numbers, simplifyOperands_mul, if_pos gone]
    exact isZero_num laws

theorem isZero_div (hl : IsZero (simplify l).value) (number : FoldsNumber r) :
    IsZero (simplify (bin .div l r)).value := by
  obtain ⟨z, hz, left⟩ := hl
  rw [simplify_bin, left]
  cases numbers : areNumbers (num z) (simplify r).value with
  | true =>
    cases right : (simplify r).value with
    | num c =>
      refine ⟨BinaryOp.div.apply z c, ?_, rfl⟩
      change ((if (c == 0) = true then 0 else z / c) == 0) = true
      split
      · exact laws.zero
      · next apart => exact laws.div z c hz (Bool.eq_false_iff.2 apart) (number c right)
    | _ => simp [right, areNumbers] at numbers
  | false =>
    have gone : (num z).isNumber 0 = true := hz
    rw [simplifyBinary_of_not_numbers numbers, simplifyOperands_div, if_pos gone]
    exact isZero_num laws

theorem isNumeral_square (h : (simplify e).value.isNumeral = false) :
    (simplify (square e)).value.isNumeral = false := by
  have numbers : areNumbers (simplify e).value (num (2.0 : α)) = false := by
    rw [areNumbers_eq, h, Bool.false_and]
  have two : (num (2.0 : α)).isNumber 0 = false := laws.two
  have plain := not_isNumber_of_not_isNumeral h
  rw [square, simplify_bin, simplify, Retaining.pure_value,
    simplifyBinary_of_not_numbers numbers, simplifyOperands_pow, two, plain, plain]
  cases (num (2.0 : α)).isNumber 1 with
  | true => exact h
  | false => rfl

theorem isNumeral_reciprocal (h : (simplify e).value.isNumeral = false) :
    (simplify (bin .div (num 1) e)).value.isNumeral = false := by
  have numbers : areNumbers (num (1 : α)) (simplify e).value = false := by
    rw [areNumbers_eq, h, Bool.and_false]
  have one : (num (1 : α)).isNumber 0 = false := laws.one
  rw [simplify_bin, simplify, Retaining.pure_value,
    simplifyBinary_of_not_numbers numbers, simplifyOperands_div, one,
    not_isNumber_of_not_isNumeral h]
  rfl

theorem isNumeral_double (h : (simplify e).value.isNumeral = false) :
    (simplify (bin .mul (num 2.0) e)).value.isNumeral = false := by
  have numbers : areNumbers (num (2.0 : α)) (simplify e).value = false := by
    rw [areNumbers_eq, h, Bool.and_false]
  have two : (num (2.0 : α)).isNumber 0 = false := laws.two
  have plain := not_isNumber_of_not_isNumeral h
  rw [simplify_bin, simplify, Retaining.pure_value,
    simplifyBinary_of_not_numbers numbers, simplifyOperands_mul, two, plain, plain]
  cases (num (2.0 : α)).isNumber 1 with
  | true => exact h
  | false => rfl

theorem isZero_chainRule {name : String} {arg darg : Expr α}
    (zero : IsZero (simplify darg).value)
    (number : name ∈ ["LOG", "LN"] → FoldsNumber arg) :
    IsZero (simplify (chainRule name arg darg).value).value := by
  -- Calls are never folded, and what the rules make of them is no number.
  have once (f : String) : (simplify (apply1 f arg)).value.isNumeral = false := rfl
  unfold chainRule
  split_ifs with sin cos tan log exp sqrt <;>
    simp only [Retaining.bind_value, Retaining.pure_value, clone_value]
  · exact isZero_mul_left laws (folds_of_not_numeral (once "COS")) zero
  · exact isZero_mul_left laws (folds_of_not_numeral rfl) zero
  · have factor := isNumeral_reciprocal laws (isNumeral_square laws (once "COS"))
    exact isZero_mul_left laws (folds_of_not_numeral factor) zero
  · exact isZero_div laws zero (number (by simpa using log))
  · exact isZero_mul_left laws (folds_of_not_numeral (once "EXP")) zero
  · have divisor := isNumeral_double laws (once "SQRT")
    exact isZero_div laws zero (folds_of_not_numeral divisor)
  · exact isZero_num laws

theorem isZero_derivative {x : String} : ∀ e : Expr α, e.mentions x = false → e.Harmless →
    IsZero (simplify (derivative x e).value).value
  -- Exponents and the arguments of functions without a rule are not derived, so nothing is asked
  -- of them.
  | num _, _, _ => isZero_num laws
  | var y, absent, _ => by
    have other : (y == x) = false := absent
    change IsZero (num (if (y == x) = true then 1 else 0))
    rw [other]
    exact isZero_num laws
  | bin op l r, absent, harmless => by
    obtain ⟨hl, hr⟩ := Bool.or_eq_false_iff.1 absent
    cases op with
    | add =>
      exact isZero_add laws (isZero_derivative l hl harmless.1)
        (isZero_derivative r hr harmless.2)
    | sub =>
      exact isZero_sub laws (isZero_derivative l hl harmless.1)
        (isZero_derivative r hr harmless.2)
    | mul =>
      obtain ⟨⟨left, right⟩, finite, finite'⟩ := harmless
      rw [derivative_mul]
      exact isZero_add laws (isZero_mul_right laws (isZero_derivative l hl left) finite')
        (isZero_mul_left laws finite (isZero_derivative r hr right))
    | div =>
      obtain ⟨⟨left, right⟩, ⟨finite, finite'⟩, number⟩ := harmless
      rw [derivative_div]
      exact isZero_div laws (isZero_sub laws
        (isZero_mul_right laws (isZero_derivative l hl left) finite')
        (isZero_mul_left laws finite (isZero_derivative r hr right))) number
    | pow =>
      obtain ⟨left, finite⟩ := harmless
      rw [derivative_pow, hr, if_neg Bool.false_ne_true]
      exact isZero_mul_left laws finite (isZero_derivative l hl left)
    | _ => exact isZero_num laws
  | un op e, absent, harmless => by
    cases op with
    | neg => exact isZero_neg laws (isZero_derivative e absent harmless)
    | _ => exact isZero_num laws
  | call name [], _, _ => isZero_num laws
  | call name [arg], absent, harmless => by
    have free : arg.mentions x = false := by simpa [mentions, mentionsAny] using absent
    rw [derivative_call]
    by_cases known : name ∈ ruled
    · obtain ⟨inner, number⟩ := harmless known
      exact isZero_chainRule laws (isZero_derivative arg free inner) number
    · have none : chainRule name arg (derivative x arg).value = pure (num 0) := by
        simp only [ruled, List.mem_cons, List.not_mem_nil, or_false, not_or] at known
        simp [chainRule, known]
      rw [none]
      exact isZero_num laws
  | call name (_ :: _ :: _), _, _ => isZero_num laws
  | tensor _, _, _ => isZero_num laws

end Operands

/-- What does not hold the variable has the slope zero, of either sign, unless a factor in one of
the rules comes to an infinity or to nan, or a divisor to nan. -/
theorem evaluate_partialDerivative_of_absent (e : Expr Float) (name : String)
    (absent : e.containsVariable name = false) (harmless : e.Harmless) :
    ∃ z : Float, (z == 0) = true ∧ (e.partialDerivative name).value = num z ∧
      ∀ b s, (e.partialDerivative name).value.evaluate b s = (z, s) := by
  obtain ⟨z, zero, folded⟩ := isZero_derivative Double.zeroLaws e absent harmless
  refine ⟨z, zero, folded, fun b s => ?_⟩
  rw [show (e.partialDerivative name).value = num z from folded]
  rfl

theorem evaluate_partialDerivative_of_absent_quotient :
    let e : Expr Float := bin .add (bin .mul (num 3) (var "Y"))
      (bin .div (call "LN" [var "Y"]) (bin .pow (var "Y") (num 2)))
    e.containsVariable "X" = false ∧ e.Harmless ∧
      ∃ z : Float, (z == 0) = true ∧ (e.partialDerivative "X").value = num z ∧
        ∀ b s, (e.partialDerivative "X").value.evaluate b s = (z, s) := by
  intro e
  have absent : e.containsVariable "X" = false := by decide +kernel
  have three : FoldsFinite (num (3 : Float)) := by
    rintro c ⟨⟩
    decide
  have harmless : e.Harmless := by
    refine ⟨⟨⟨trivial, trivial⟩, three, folds_of_not_numeral rfl⟩,
      ⟨fun _ => ⟨trivial, fun _ => folds_of_not_numeral rfl⟩, trivial, ?_⟩, ⟨?_, ?_⟩, ?_⟩ <;>
      exact folds_of_not_numeral (by decide +kernel)
  exact ⟨absent, harmless, evaluate_partialDerivative_of_absent e "X" absent harmless⟩

/-- The slope of the constant `0 ^ 0.5` is nan: its factor `0.5 * 0 ^ (0.5 - 1)` is infinite, and is
multiplied by zero. -/
theorem partialDerivative_constant_root :
    let e : Expr Float := bin .pow (num 0) (num 0.5)
    e.containsVariable "X" = false ∧
      ∀ b s, ((e.partialDerivative "X").value.evaluate b s).1.isNaN = true ∧
        (((e.partialDerivative "X").value.evaluate b s).1 == 0) = false := by
  intro e
  have folded : (e.partialDerivative "X").value = num (0.5 * Double.pow 0 (0.5 - 1) * 0) := rfl
  have nan : (0.5 * Double.pow 0 (0.5 - 1) * 0).isNaN = true := by decide +kernel
  have apart : (0.5 * Double.pow 0 (0.5 - 1) * 0 == 0) = false := by decide +kernel
  rw [folded]
  exact ⟨rfl, fun _ _ => ⟨nan, apart⟩⟩

end DerivativeEngine.Expr
