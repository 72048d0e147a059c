import Mathlib
import DerivativeEngine.Proofs.Expr.Draws
import DerivativeEngine.Proofs.Scalar.Exact
import DerivativeEngine.Rewrite.Simplify

/-! Simplification keeps the value of a tree. In exact arithmetic each rule is an identity, on two
conditions that are about the run of the rules and not about the tree alone: numbers that are close
to each other where they are compared must be equal, and a power of zero that is removed must have a
positive exponent. Both are lists here, of the pairs that are compared and of the exponents, as the
simplifier comes to them. -/

namespace DerivativeEngine.Expr

variable {α : Type}

structure Atomic (p : Expr α → Prop) : Prop where
  num : ∀ x, p (num x)
  bin : ∀ op l r, p (bin op l r)
  un : ∀ op e, p (un op e)
  call : ∀ name args args', args'.length = args.length → p (call name args) →
    p (call name args')

/-- All tensors with the same handle have the mean that belongs to it. -/
def MeansBy (mean : Nat → α) : Expr α → Prop
  | tensor t => t.mean = mean t.handle
  | _ => True

theorem atomic_drawsNothing : Atomic (DrawsNothing (α := α)) :=
  ⟨fun _ => trivial, fun _ _ _ => trivial, fun _ _ => trivial,
    fun _ _ _ length h => drawsNothing_call length h⟩

theorem atomic_meansBy (mean : Nat → α) : Atomic (MeansBy mean) :=
  ⟨fun _ => trivial, fun _ _ _ => trivial, fun _ _ => trivial, fun _ _ _ _ _ => trivial⟩

theorem EveryNode.ite {p : Expr α → Prop} {c : Bool} {x y : Retaining (Expr α)}
    (hx : x.value.EveryNode p) (hy : y.value.EveryNode p) :
    (if c then x else y).value.EveryNode p := by
  cases c
  · exact hy
  · exact hx

variable [Scalar α]

theorem EveryNode.splitCoefficient {p : Expr α → Prop} {e : Expr α} (h : e.EveryNode p) :
    (splitCoefficient e).2.EveryNode p := by
  unfold Expr.splitCoefficient
  split
  · exact h.2.2
  · exact h.2.1
  · exact h

theorem EveryNode.combineLikeTerms {p : Expr α → Prop} (atomic : Atomic p) {l r : Expr α}
    (hl : l.EveryNode p) {e : Retaining (Expr α)} (combined : combineLikeTerms l r = some e) :
    e.value.EveryNode p := by
  have term := hl.splitCoefficient
  simp only [Expr.combineLikeTerms, Option.ite_none_right_eq_some, Option.some.injEq] at combined
  obtain ⟨-, rfl⟩ := combined
  split
  · exact atomic.num 0
  · split
    · simpa using term
    · simpa using ⟨atomic.bin _ _ _, atomic.num _, term⟩

/-! Operands first, and then the rules of each operator in the order in which they are tried. -/

theorem simplify_bin (op : BinaryOp) (l r : Expr α) : (simplify (bin op l r)).value =
    (simplifyBinary op (simplify l).value (simplify r).value).value := rfl

theorem simplify_un (op : UnaryOp) (e : Expr α) : (simplify (un op e)).value =
    simplifyUnary op (simplify e).value := rfl

theorem simplifyOperands_add (l r : Expr α) : simplifyOperands .add l r =
    if r.isNumber 0 then pure l
    else if l.isNumber 0 then pure r
    else (combineLikeTerms l r).getD (pure (bin .add l r)) := rfl

theorem simplifyOperands_sub (l r : Expr α) : simplifyOperands .sub l r =
    if r.isNumber 0 then pure l else pure (bin .sub l r) := rfl

theorem simplifyOperands_mul (l r : Expr α) : simplifyOperands .mul l r =
    if r.isNumber 0 || l.isNumber 0 then pure (num 0)
    else if r.isNumber 1 then pure l
    else if l.isNumber 1 then pure r
    else pure (bin .mul l r) := rfl

theorem simplifyOperands_div (l r : Expr α) : simplifyOperands .div l r =
    if l.isNumber 0 then pure (num 0)
    else if r.isNumber 1 then pure l
    else pure (bin .div l r) := rfl

theorem simplifyOperands_pow (l r : Expr α) : simplifyOperands .pow l r =
    if r.isNumber 0 then pure (num 1)
    else if r.isNumber 1 then pure l
    else if l.isNumber 0 then pure (num 0)
    else if l.isNumber 1 then pure (num 1)
    else pure (bin .pow l r) := rfl

theorem EveryNode.simplifyOperands {p : Expr α → Prop} (atomic : Atomic p) (op : BinaryOp)
    {l r : Expr α} (hl : l.EveryNode p) (hr : r.EveryNode p) :
    (simplifyOperands op l r).value.EveryNode p := by
  have both : ∀ op, (Expr.bin op l r).EveryNode p := fun op => ⟨atomic.bin _ _ _, hl, hr⟩
  have number : ∀ x, (Expr.num x).EveryNode p := atomic.num
  cases op with
  | add =>
    refine .ite hl (.ite hr ?_)
    cases combined : Expr.combineLikeTerms l r with
    | none => exact both .add
    | some e => exact hl.combineLikeTerms atomic combined
  | sub => exact .ite hl (both .sub)
  | mul => exact .ite (number 0) (.ite hl (.ite hr (both .mul)))
  | div => exact .ite (number 0) (.ite hl (both .div))
  | pow =>
    exact .ite (number 1) (.ite hl (.ite (number 0) (.ite (number 1) (both .pow))))
  | _ => exact both _

theorem EveryNode.simplifyBinary {p : Expr α → Prop} (atomic : Atomic p) (op : BinaryOp)
    {l r : Expr α} (hl : l.EveryNode p) (hr : r.EveryNode p) :
    (simplifyBinary op l r).value.EveryNode p := by
  unfold Expr.simplifyBinary
  split
  · exact atomic.num _
  · exact hl.simplifyOperands atomic op hr

theorem EveryNode.simplifyUnary {p : Expr α → Prop} (atomic : Atomic p) (op : UnaryOp)
    {e : Expr α} (h : e.EveryNode p) : (simplifyUnary op e).EveryNode p := by
  unfold Expr.simplifyUnary
  split
  · exact atomic.num _
  · exact h.2
  · exact ⟨atomic.un _ _, h⟩

theorem length_simplifyAll (es : List (Expr α)) : (simplifyAll es).value.length = es.length := by
  induction es with
  | nil => rfl
  | cons e es ih => simp [simplifyAll, ih]

mutual
theorem EveryNode.simplify {p : Expr α → Prop} (atomic : Atomic p) :
    ∀ e : Expr α, e.EveryNode p → (simplify e).value.EveryNode p
  | num _, h => h
  | var _, h => h
  | bin op l r, h =>
    (EveryNode.simplify atomic l h.2.1).simplifyBinary atomic op
      (EveryNode.simplify atomic r h.2.2)
  | un op e, h => (EveryNode.simplify atomic e h.2).simplifyUnary atomic op
  | call _ args, h =>
    ⟨atomic.call _ _ _ (length_simplifyAll args) h.1, EveryNodes.simplifyAll atomic args h.2⟩
  | tensor _, h => h
theorem EveryNodes.simplifyAll {p : Expr α → Prop} (atomic : Atomic p) :
    ∀ es : List (Expr α), EveryNodes p es → EveryNodes p (simplifyAll es).value
  | [], _ => trivial
  | e :: es, h => ⟨EveryNode.simplify atomic e h.1, EveryNodes.simplifyAll atomic es h.2⟩
end

/-- Equal, or so far apart that no comparison takes them for equal. -/
def Separated (p : α × α) : Prop := p.1 = p.2 ∨ numberTolerance ≤ Scalar.abs (p.1 - p.2)

mutual
/-- The pairs of numbers that are compared to find out whether two trees are equal. The first
difference ends the comparison. -/
def compared : Expr α → Expr α → List (α × α)
  | num x, num y => [(x, y)]
  | bin op l r, bin op' l' r' =>
    if op == op' then compared l l' ++ (if equal l l' then compared r r' else []) else []
  | un op e, un op' e' => if op == op' then compared e e' else []
  | call f args, call f' args' =>
    if f == f' && args.length == args'.length then comparedAll args args' else []
  | _, _ => []
def comparedAll : List (Expr α) → List (Expr α) → List (α × α)
  | e :: es, e' :: es' => compared e e' ++ (if equal e e' then comparedAll es es' else [])
  | _, _ => []
end

def comparedTerms (l r : Expr α) : List (α × α) :=
  let (a, t) := splitCoefficient l
  let (b, t') := splitCoefficient r
  compared t t' ++
    if equal t t' then (a + b, 0) :: (if near (a + b) 0 then [] else [(a + b, 1)]) else []

def areNumbers : Expr α → Expr α → Bool
  | num _, num _ => true
  | _, _ => false

def comparedOperands (op : BinaryOp) (l r : Expr α) : List (α × α) :=
  if areNumbers l r || r.isNumber 0 || l.isNumber 0 then []
  else if op = .add then comparedTerms l r
  else []

mutual
/-- All pairs of numbers that are compared while a tree is simplified. -/
def comparisons : Expr α → List (α × α)
  | bin op l r =>
    comparisons l ++ comparisons r ++ comparedOperands op (simplify l).value (simplify r).value
  | un _ e => comparisons e
  | call _ args => comparisonsAll args
  | _ => []
def comparisonsAll : List (Expr α) → List (α × α)
  | [] => []
  | e :: es => comparisons e ++ comparisonsAll es
end

def zeroPower (op : BinaryOp) (l r : Expr α) : List (Expr α) :=
  if areNumbers l r || r.isNumber 0 || r.isNumber 1 then []
  else if op = .pow && l.isNumber 0 then [r]
  else []

mutual
/-- The exponents of all powers of zero that are removed while a tree is simplified. -/
def zeroPowers : Expr α → List (Expr α)
  | bin op l r =>
    zeroPowers l ++ zeroPowers r ++ zeroPower op (simplify l).value (simplify r).value
  | un _ e => zeroPowers e
  | call _ args => zeroPowersAll args
  | _ => []
def zeroPowersAll : List (Expr α) → List (Expr α)
  | [] => []
  | e :: es => zeroPowers e ++ zeroPowersAll es
end

theorem length_of_equalAll {es es' : List (Expr α)} (h : equalAll es es' = true) :
    es.length = es'.length := by
  induction es generalizing es' with
  | nil =>
    cases es' with
    | nil => rfl
    | cons e' es' => simp [equalAll] at h
  | cons e es ih =>
    cases es' with
    | nil => simp [equalAll] at h
    | cons e' es' =>
      simp only [equalAll, Bool.and_eq_true] at h
      exact congrArg (· + 1) (ih h.2)

mutual
theorem everyNode_zeroPowers {p : Expr α → Prop} (atomic : Atomic p) : ∀ e : Expr α,
    e.EveryNode p → ∀ u ∈ e.zeroPowers, u.EveryNode p
  | num _, _, u, hu => by cases hu
  | var _, _, u, hu => by cases hu
  | bin op l r, h, u, hu => by
    rcases List.mem_append.1 hu with hu | hu
    · rcases List.mem_append.1 hu with hu | hu
      · exact everyNode_zeroPowers atomic l h.2.1 u hu
      · exact everyNode_zeroPowers atomic r h.2.2 u hu
    · unfold zeroPower at hu
      split at hu
      · cases hu
      · split at hu
        · obtain rfl := List.mem_singleton.1 hu
          exact EveryNode.simplify atomic r h.2.2
        · cases hu
  | un _ e, h, u, hu => everyNode_zeroPowers atomic e h.2 u hu
  | call _ args, h, u, hu => everyNode_zeroPowersAll atomic args h.2 u hu
  | tensor _, _, u, hu => by cases hu
theorem everyNode_zeroPowersAll {p : Expr α → Prop} (atomic : Atomic p) : ∀ es : List (Expr α),
    EveryNodes p es → ∀ u ∈ zeroPowersAll es, u.EveryNode p
  | [], _, u, hu => by cases hu
  | e :: es, h, u, hu => by
    rcases List.mem_append.1 hu with hu | hu
    · exact everyNode_zeroPowers atomic e h.1 u hu
    · exact everyNode_zeroPowersAll atomic es h.2 u hu
end

variable [ExactScalar α] {b : Option (Bindings α)} {mean : Nat → α}

theorem eq_of_near {x y : α} (separated : Separated (x, y)) (h : near x y = true) : x = y := by
  rcases separated with same | apart
  · exact same
  · exact absurd (of_decide_eq_true h) (ExactScalar.not_lt_of_le _ _ apart)

theorem near_eq_false {x y : α} (separated : Separated (x, y)) (apart : x ≠ y) :
    near x y = false :=
  Bool.eq_false_iff.2 fun h => apart (eq_of_near separated h)

theorem value_of_isNumber {x : α} {e : Expr α} (h : e.isNumber x = true) : e.value b = x := by
  cases e with
  | num y => exact (ExactScalar.beq_iff_eq y x).1 h
  | _ => cases h

set_option linter.unusedSectionVars false in
mutual
theorem value_of_equal : ∀ e e' : Expr α, equal e e' = true → e.EveryNode (MeansBy mean) →
    e'.EveryNode (MeansBy mean) → (∀ p ∈ compared e e', Separated p) → e.value b = e'.value b
  | num x, e', h, _, _, separated => by
    cases e' with
    | num y => exact eq_of_near (separated (x, y) (by simp [compared])) h
    | _ => simp [equal] at h
  | var x, e', h, _, _, _ => by
    cases e' with
    | var y =>
      obtain rfl : x = y := by simpa [equal] using h
      rfl
    | _ => simp [equal] at h
  | bin op l r, e', h, m, m', separated => by
    cases e' with
    | bin op' l' r' =>
      simp only [equal, Bool.and_eq_true, beq_iff_eq] at h
      obtain ⟨⟨rfl, hl⟩, hr⟩ := h
      simp only [compared, beq_self_eq_true, if_true, hl, List.mem_append] at separated
      have left := value_of_equal l l' hl m.2.1 m'.2.1 fun p hp => separated p (.inl hp)
      have right := value_of_equal r r' hr m.2.2 m'.2.2 fun p hp => separated p (.inr hp)
      simp only [value, left, right]
    | _ => simp [equal] at h
  | un op e, e', h, m, m', separated => by
    cases e' with
    | un op' e' =>
      simp only [equal, Bool.and_eq_true, beq_iff_eq] at h
      obtain ⟨rfl, he⟩ := h
      simp only [compared, beq_self_eq_true, if_true] at separated
      simp only [value, value_of_equal e e' he m.2 m'.2 separated]
    | _ => simp [equal] at h
  | call f args, e', h, m, m', separated => by
    cases e' with
    | call f' args' =>
      simp only [equal, Bool.and_eq_true, beq_iff_eq] at h
      obtain ⟨rfl, hargs⟩ := h
      simp only [compared, length_of_equalAll hargs, beq_self_eq_true, Bool.and_self,
        if_true] at separated
      simp only [value, values_of_equalAll args args' hargs m.2 m'.2 separated]
    | _ => simp [equal] at h
  | tensor t, e', h, m, m', _ => by
    cases e' with
    | tensor t' =>
      have same : t.handle = t'.handle := by simpa [equal] using h
      have means : t.mean = mean t.handle ∧ t'.mean = mean t'.handle := ⟨m, m'⟩
      change t.mean = t'.mean
      rw [means.1, means.2, same]
    | _ => simp [equal] at h
theorem values_of_equalAll : ∀ es es' : List (Expr α), equalAll es es' = true →
    EveryNodes (MeansBy mean) es → EveryNodes (MeansBy mean) es' →
      (∀ p ∈ comparedAll es es', Separated p) → values b es = values b es'
  | [], es', h, _, _, _ => by
    cases es' with
    | nil => rfl
    | cons e' es' => simp [equalAll] at h
  | e :: es, es', h, m, m', separated => by
    cases es' with
    | nil => simp [equalAll] at h
    | cons e' es' =>
      simp only [equalAll, Bool.and_eq_true] at h
      simp only [comparedAll, h.1, if_true, List.mem_append] at separated
      have first := value_of_equal e e' h.1 m.1 m'.1 fun p hp => separated p (.inl hp)
      have rest := values_of_equalAll es es' h.2 m.2 m'.2 fun p hp => separated p (.inr hp)
      simp only [values, first, rest]
end

theorem value_splitCoefficient (e : Expr α) :
    e.value b = (splitCoefficient e).1 * (splitCoefficient e).2.value b := by
  unfold splitCoefficient
  split
  · rfl
  · exact ExactScalar.mul_comm _ _
  · exact (ExactScalar.one_mul _).symm

theorem value_combineLikeTerms {l r : Expr α} (hl : l.EveryNode (MeansBy mean))
    (hr : r.EveryNode (MeansBy mean)) (separated : ∀ p ∈ comparedTerms l r, Separated p)
    {e : Retaining (Expr α)} (combined : combineLikeTerms l r = some e) :
    e.value.value b = l.value b + r.value b := by
  simp only [combineLikeTerms, Option.ite_none_right_eq_some, Option.some.injEq] at combined
  obtain ⟨same, rfl⟩ := combined
  simp only [comparedTerms, same, if_true, List.mem_append, List.mem_cons] at separated
  have terms := value_of_equal (b := b) _ _ same hl.splitCoefficient hr.splitCoefficient
    fun p hp => separated p (.inl hp)
  have sum : l.value b + r.value b =
      ((splitCoefficient l).1 + (splitCoefficient r).1) * (splitCoefficient l).2.value b := by
    rw [ExactScalar.add_mul]
    conv => rhs; arg 2; rw [terms]
    rw [← value_splitCoefficient, ← value_splitCoefficient]
  rw [sum]
  generalize (splitCoefficient l).1 + (splitCoefficient r).1 = c at separated
  by_cases zero : near c 0 = true
  · rw [if_pos zero, eq_of_near (separated _ (.inr (.inl rfl))) zero]
    exact (ExactScalar.zero_mul _).symm
  · rw [if_neg zero]
    by_cases one : near c 1 = true
    · have unit := eq_of_near (separated (c, 1) (.inr (.inr (by simp [zero])))) one
      rw [if_pos one, clone_value, unit, ExactScalar.one_mul]
    · rw [if_neg one, Retaining.bind_value, clone_value]
      rfl

section Operators

variable {l r : Expr α}

theorem value_simplifyAdd (hl : l.EveryNode (MeansBy mean)) (hr : r.EveryNode (MeansBy mean))
    (numbers : areNumbers l r = false)
    (separated : ∀ p ∈ comparedOperands .add l r, Separated p) :
    (simplifyOperands .add l r).value.value b = l.value b + r.value b := by
  rw [simplifyOperands_add]
  split
  · next zero =>
    rw [value_of_isNumber zero, ExactScalar.add_zero]
    rfl
  · next right =>
    split
    · next zero =>
      rw [value_of_isNumber zero, ExactScalar.zero_add]
      rfl
    · next left =>
      simp only [comparedOperands, numbers, right, left, Bool.or_self, Bool.false_eq_true,
        if_false, if_true] at separated
      cases combined : combineLikeTerms l r with
      | none => rfl
      | some e => exact value_combineLikeTerms hl hr separated combined

theorem value_simplifySub :
    (simplifyOperands .sub l r).value.value b = l.value b - r.value b := by
  rw [simplifyOperands_sub]
  split
  · next zero =>
    rw [value_of_isNumber zero, ExactScalar.sub_zero]
    rfl
  · rfl

theorem value_simplifyMul :
    (simplifyOperands .mul l r).value.value b = l.value b * r.value b := by
  rw [simplifyOperands_mul]
  split
  · next zero =>
    rcases Bool.or_eq_true_iff.1 zero with zero | zero
    · rw [value_of_isNumber zero, ExactScalar.mul_zero]
      rfl
    · rw [value_of_isNumber zero, ExactScalar.zero_mul]
      rfl
  · split
    · next one =>
      rw [value_of_isNumber one, ExactScalar.mul_one]
      rfl
    · split
      · next one =>
        rw [value_of_isNumber one, ExactScalar.one_mul]
        rfl
      · rfl

theorem value_simplifyDiv :
    (simplifyOperands .div l r).value.value b = BinaryOp.div.apply (l.value b) (r.value b) := by
  rw [simplifyOperands_div]
  split
  · next zero =>
    rw [value_of_isNumber zero]
    change 0 = if (r.value b == 0) = true then 0 else 0 / r.value b
    split
    · rfl
    · exact (ExactScalar.zero_div _).symm
  · split
    · next one =>
      have unit : ((1 : α) == 0) = false := by
        refine Bool.eq_false_iff.2 fun h => ?_
        exact ExactScalar.one_ne_zero ((ExactScalar.beq_iff_eq _ _).1 h)
      rw [value_of_isNumber one]
      change l.value b = if ((1 : α) == 0) = true then 0 else l.value b / 1
      rw [unit, if_neg (by decide), ExactScalar.div_one]
    · rfl

theorem value_simplifyPow (laws : Scalar.PowerLaws α) (numbers : areNumbers l r = false)
    (positive : ∀ u ∈ zeroPower .pow l r, 0 < u.value b) :
    (simplifyOperands .pow l r).value.value b = Scalar.pow (l.value b) (r.value b) := by
  rw [simplifyOperands_pow]
  split
  · next zero =>
    rw [value_of_isNumber zero, laws.pow_zero]
    rfl
  · next notZero =>
    split
    · next one =>
      rw [value_of_isNumber one, laws.pow_one]
      rfl
    · next notOne =>
      split
      · next zero =>
        have exponent : 0 < r.value b :=
          positive r (by simp [zeroPower, numbers, notZero, notOne, zero])
        rw [value_of_isNumber zero, laws.zero_pow _ exponent]
        rfl
      · split
        · next one =>
          rw [value_of_isNumber one, laws.one_pow]
          rfl
        · rfl

theorem value_simplifyBinary (laws : Scalar.PowerLaws α) (op : BinaryOp)
    (hl : l.EveryNode (MeansBy mean)) (hr : r.EveryNode (MeansBy mean))
    (separated : ∀ p ∈ comparedOperands op l r, Separated p)
    (positive : ∀ u ∈ zeroPower op l r, 0 < u.value b) :
    (simplifyBinary op l r).value.value b = op.apply (l.value b) (r.value b) := by
  unfold simplifyBinary
  split
  · rfl
  · next notNumbers =>
    have numbers : areNumbers l r = false := by
      unfold areNumbers
      split
      · exact (notNumbers _ _ rfl rfl).elim
      · rfl
    cases op with
    | add => exact value_simplifyAdd hl hr numbers separated
    | sub => exact value_simplifySub
    | mul => exact value_simplifyMul
    | div => exact value_simplifyDiv
    | pow => exact value_simplifyPow laws numbers positive
    | _ => rfl

theorem value_simplifyUnary (op : UnaryOp) (e : Expr α) :
    (simplifyUnary op e).value b = op.apply (e.value b) := by
  unfold simplifyUnary
  split
  · rfl
  · exact (ExactScalar.neg_neg _).symm
  · rfl

end Operators

set_option linter.unusedSectionVars false in
mutual
/-- Operands are simplified first, so the lists of the whole tree hold those of its last step. -/
theorem value_simplify (laws : Scalar.PowerLaws α) : ∀ e : Expr α, e.EveryNode (MeansBy mean) →
    (∀ p ∈ e.comparisons, Separated p) → (∀ u ∈ e.zeroPowers, 0 < u.value b) →
      (simplify e).value.value b = e.value b
  | num _, _, _, _ => rfl
  | var _, _, _, _ => rfl
  | bin op l r, m, separated, positive => by
    simp only [comparisons, List.mem_append] at separated
    simp only [zeroPowers, List.mem_append] at positive
    have left := value_simplify laws l m.2.1 (fun p hp => separated p (.inl (.inl hp)))
      fun u hu => positive u (.inl (.inl hu))
    have right := value_simplify laws r m.2.2 (fun p hp => separated p (.inl (.inr hp)))
      fun u hu => positive u (.inl (.inr hu))
    have step := value_simplifyBinary laws op (EveryNode.simplify (atomic_meansBy mean) l m.2.1)
      (EveryNode.simplify (atomic_meansBy mean) r m.2.2) (fun p hp => separated p (.inr hp))
      fun u hu => positive u (.inr hu)
    -- The rules saw the simplified operands; their values are those of the operands.
    rw [left, right] at step
    exact step
  | un op e, m, separated, positive => by
    have operand := value_simplify laws e m.2 separated positive
    exact (value_simplifyUnary op _).trans (congrArg op.apply operand)
  | call name args, m, separated, positive => by
    have operands := values_simplifyAll laws args m.2 separated positive
    exact congrArg (applied name) operands
  | tensor _, _, _, _ => rfl
theorem values_simplifyAll (laws : Scalar.PowerLaws α) : ∀ es : List (Expr α),
    EveryNodes (MeansBy mean) es → (∀ p ∈ comparisonsAll es, Separated p) →
      (∀ u ∈ zeroPowersAll es, 0 < u.value b) → values b (simplifyAll es).value = values b es
  | [], _, _, _ => rfl
  | e :: es, m, separated, positive => by
    simp only [comparisonsAll, List.mem_append] at separated
    simp only [zeroPowersAll, List.mem_append] at positive
    have first := value_simplify laws e m.1 (fun p hp => separated p (.inl hp))
      fun u hu => positive u (.inl hu)
    have rest := values_simplifyAll laws es m.2 (fun p hp => separated p (.inr hp))
      fun u hu => positive u (.inr hu)
    change (simplify e).value.value b :: values b (simplifyAll es).value = _
    rw [first, rest]
    rfl
end

/-- In exact arithmetic a tree that draws nothing and its simplified form evaluate to the same
number, whatever its functions, operators and tensors are. -/
theorem evaluate_simplify (laws : Scalar.PowerLaws α) (e : Expr α)
    (drawless : e.EveryNode DrawsNothing) (literals : e.EveryNode (MeansBy mean))
    (b : Option (Bindings α)) (s : RandomStream)
    (separated : ∀ p ∈ e.comparisons, Separated p)
    (positive : ∀ u ∈ e.zeroPowers, 0 < (u.evaluate b s).1) :
    (simplify e).value.evaluate b s = e.evaluate b s := by
  have unchanging := EveryNode.simplify atomic_drawsNothing e drawless
  have exponents : ∀ u ∈ e.zeroPowers, 0 < u.value b := by
    intro u hu
    have power := positive u hu
    rwa [evaluate_eq_value b u (everyNode_zeroPowers atomic_drawsNothing e drawless u hu)] at power
  rw [evaluate_eq_value b e drawless, evaluate_eq_value b _ unchanging,
    value_simplify laws e literals separated exponents]

theorem tolerance_le_abs {x : ℝ} (h : 1 ≤ |x|) : numberTolerance ≤ Scalar.abs x := by
  have small : (numberTolerance : ℝ) ≤ 1 := by
    change (1e-12 : ℝ) ≤ 1
    norm_num
  exact small.trans h

theorem evaluate_simplify_likeTerms :
    let e : Expr ℝ := bin .add
      (bin .add (bin .mul (num 2) (var "X")) (bin .mul (var "X") (num 3)))
      (bin .pow (num 0) (var "Y"))
    let b : Bindings ℝ := ⟨[7, 1], some [("X", 0), ("Y", 1)]⟩
    let s : RandomStream := .ofSeed 0
    Scalar.PowerLaws ℝ ∧ e.EveryNode DrawsNothing ∧ e.EveryNode (MeansBy fun _ => 0) ∧
      (∀ p ∈ e.comparisons, Separated p) ∧
      (∀ u ∈ e.zeroPowers, 0 < (u.evaluate (some b) s).1) ∧
      (simplify e).value = bin .mul (num (2 + 3)) (var "X") ∧
      (simplify e).value.evaluate (some b) s = e.evaluate (some b) s := by
  intro e b s
  have apart : Separated ((2 : ℝ) + 3, (0 : ℝ)) ∧ Separated ((2 : ℝ) + 3, (1 : ℝ)) :=
    ⟨.inr (tolerance_le_abs (by norm_num)), .inr (tolerance_le_abs (by norm_num))⟩
  have notZero : near ((2 : ℝ) + 3) 0 = false := near_eq_false apart.1 (by norm_num)
  have notOne : near ((2 : ℝ) + 3) 1 = false := near_eq_false apart.2 (by norm_num)
  have left : (simplify (bin .mul (num (2 : ℝ)) (var "X"))).value =
      bin .mul (num 2) (var "X") := by
    simp [simplify, simplifyBinary, simplifyOperands, isNumber]
  have right : (simplify (bin .mul (var "X") (num (3 : ℝ)))).value =
      bin .mul (var "X") (num 3) := by
    simp [simplify, simplifyBinary, simplifyOperands, isNumber]
  have sum : (simplify (bin .add (bin .mul (num (2 : ℝ)) (var "X"))
      (bin .mul (var "X") (num 3)))).value = bin .mul (num (2 + 3)) (var "X") := by
    rw [simplify_bin, left, right]
    simp [simplifyBinary, simplifyOperands, isNumber, combineLikeTerms, splitCoefficient, equal,
      notZero, notOne]
  have power : (simplify (bin .pow (num (0 : ℝ)) (var "Y"))).value = num 0 := by
    simp [simplify, simplifyBinary, simplifyOperands, isNumber]
  have compared : e.comparisons = [(2 + 3, 0), (2 + 3, 1)] := by
    simp [e, comparisons, left, right, sum, power, comparedOperands, areNumbers, isNumber,
      comparedTerms, splitCoefficient, equal, Expr.compared, notZero]
  have exponents : e.zeroPowers = [var "Y"] := by
    simp [e, zeroPowers, zeroPower, areNumbers, isNumber, simplify]
  have one : valueOf (some b) "Y" = 1 := by
    have canonical : canonicalName "Y" = "Y" := by decide +kernel
    simp [valueOf, Bindings.lookup?, Bindings.index?, Bindings.position?, canonical, b, List.lookup]
  have drawless : e.EveryNode DrawsNothing := by simp [e, EveryNode, DrawsNothing]
  have literals : e.EveryNode (MeansBy fun _ => 0) := by simp [e, EveryNode, MeansBy]
  have separated : ∀ p ∈ e.comparisons, Separated p := by simpa [compared] using apart
  have positive : ∀ u ∈ e.zeroPowers, 0 < (u.evaluate (some b) s).1 := by
    simp [exponents, evaluate, one]
  refine ⟨powerLaws_real, drawless, literals, separated, positive, ?_,
    evaluate_simplify powerLaws_real e drawless literals (some b) s separated positive⟩
  rw [simplify_bin, sum, power]
  simp [simplifyBinary, simplifyOperands, isNumber]

end DerivativeEngine.Expr
