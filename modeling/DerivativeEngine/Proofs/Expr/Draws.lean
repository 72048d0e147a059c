import DerivativeEngine.Expr.Evaluation
import DerivativeEngine.Proofs.Expr.Nodes
import DerivativeEngine.Proofs.Text.Uppercase

/-! Trees that draw no random numbers. Such a tree has a value under given bindings, whatever the
stream is, and evaluation finds this value and leaves the stream alone. The value depends on no more
than what the variables of the tree stand for. -/

namespace DerivativeEngine

namespace RandomStream

def uneven : RandomStream := ⟨(Array.replicate size 0).set! 2 1, 0⟩

theorem draws_uneven : uneven.draw.1 = 0 ∧ uneven.draw.2.draw.1 ≠ 0 := by decide +kernel

end RandomStream

namespace Expr

variable {α : Type}

/-- Not a call that draws: `RANDOM` and `RND` draw only where they have no arguments. -/
def DrawsNothing : Expr α → Prop
  | call name [] => Builtin.ofName? (Text.upper name) ≠ some .random
  | _ => True

theorem drawsNothing_call {name : String} {args args' : List (Expr α)}
    (length : args'.length = args.length) (h : DrawsNothing (call name args)) :
    DrawsNothing (call name args') := by
  cases args' with
  | nil =>
    obtain rfl := List.length_eq_zero_iff.1 length.symm
    exact h
  | cons e es => trivial

variable [Scalar α]

theorem callFunction_rnd (s : RandomStream) :
    callFunction "RND" ([] : List α) s = (Scalar.ofDraw s.draw.1, s.draw.2) := by
  have builtin : Builtin.ofName? (Text.upper "RND") = some .random := by decide +kernel
  simp [callFunction, builtin]

def applied (name : String) (xs : List α) : α :=
  match Builtin.ofName? (Text.upper name), xs with
  | some (.unary f), [x] => f.apply x
  | some (.binary f), [x, y] => f.apply x y
  | _, _ => 0

mutual
def value (b : Option (Bindings α)) : Expr α → α
  | num x => x
  | var name => valueOf b name
  | bin op l r => op.apply (value b l) (value b r)
  | un op e => op.apply (value b e)
  | call name args => applied name (values b args)
  | tensor t => t.mean
def values (b : Option (Bindings α)) : List (Expr α) → List α
  | [] => []
  | e :: es => value b e :: values b es
end

theorem callFunction_eq_applied {name : String} {xs : List α}
    (h : xs = [] → Builtin.ofName? (Text.upper name) ≠ some .random) (s : RandomStream) :
    callFunction name xs s = (applied name xs, s) := by
  unfold callFunction applied
  cases builtin : Builtin.ofName? (Text.upper name) with
  | none => rfl
  | some f =>
    cases f with
    | random =>
      cases xs with
      | nil => exact absurd builtin (h rfl)
      | cons x xs => rfl
    | unary f => rcases xs with _ | ⟨x, _ | ⟨y, xs⟩⟩ <;> rfl
    | binary f => rcases xs with _ | ⟨x, _ | ⟨y, _ | ⟨z, xs⟩⟩⟩ <;> rfl

theorem values_eq_nil_iff (b : Option (Bindings α)) (es : List (Expr α)) :
    values b es = [] ↔ es = [] := by
  cases es <;> simp [values]

mutual
theorem evaluate_eq_value (b : Option (Bindings α)) : ∀ e : Expr α, e.EveryNode DrawsNothing →
    ∀ s, e.evaluate b s = (e.value b, s)
  | num _, _, _ => rfl
  | var _, _, _ => rfl
  | bin op l r, h, s => by
    simp only [evaluate, value, evaluate_eq_value b l h.2.1, evaluate_eq_value b r h.2.2]
  | un op e, h, s => by simp only [evaluate, value, evaluate_eq_value b e h.2]
  | call name args, h, s => by
    have drawless : values b args = [] →
        Builtin.ofName? (Text.upper name) ≠ some .random := by
      intro empty
      obtain rfl := (values_eq_nil_iff b args).1 empty
      exact h.1
    simp only [evaluate, value, evaluateAll_eq_values b args h.2,
      callFunction_eq_applied drawless]
  | tensor _, _, _ => rfl
theorem evaluateAll_eq_values (b : Option (Bindings α)) : ∀ es : List (Expr α),
    EveryNodes DrawsNothing es → ∀ s, evaluateAll b es s = (values b es, s)
  | [], _, _ => rfl
  | e :: es, h, s => by
    simp only [evaluateAll, values, evaluate_eq_value b e h.1, evaluateAll_eq_values b es h.2]
end

mutual
theorem value_congr {b b' : Option (Bindings α)} : ∀ e : Expr α,
    (∀ name, e.mentions name = true → valueOf b' name = valueOf b name) →
      e.value b' = e.value b
  | num _, _ => rfl
  | var name, h => h name (beq_self_eq_true name)
  | bin op l r, h => by
    have left := value_congr l fun name hl => h name (by simp [mentions, hl])
    have right := value_congr r fun name hr => h name (by simp [mentions, hr])
    simp only [value, left, right]
  | un op e, h => by
    simp only [value, value_congr e h]
  | call name args, h => by
    simp only [value, values_congr args h]
  | tensor _, _ => rfl
theorem values_congr {b b' : Option (Bindings α)} : ∀ es : List (Expr α),
    (∀ name, mentionsAny name es = true → valueOf b' name = valueOf b name) →
      values b' es = values b es
  | [], _ => rfl
  | e :: es, h => by
    have first := value_congr e fun name he => h name (by simp [mentionsAny, he])
    have rest := values_congr es fun name hes => h name (by simp [mentionsAny, hes])
    simp only [values, first, rest]
end

end Expr

end DerivativeEngine

namespace DerivativeEngine.Expr

variable {α : Type} [Scalar α]

theorem evaluate_bin (op : BinaryOp) (l r : Expr α) (b : Option (Bindings α)) (s : RandomStream) :
    (bin op l r).evaluate b s =
      (op.apply (l.evaluate b s).1 (r.evaluate b (l.evaluate b s).2).1,
        (r.evaluate b (l.evaluate b s).2).2) := rfl

theorem evaluate_apply (name : String) (e : Expr α) (b : Option (Bindings α)) (s : RandomStream) :
    (call name [e]).evaluate b s = (applied name [(e.evaluate b s).1], (e.evaluate b s).2) := by
  have given : [(e.evaluate b s).1] = [] → Builtin.ofName? (Text.upper name) ≠ some .random :=
    fun none => absurd none (List.cons_ne_nil _ _)
  exact callFunction_eq_applied given (e.evaluate b s).2

theorem valueOf_canonicalName (b : Option (Bindings α)) (name : String) :
    valueOf b (canonicalName name) = valueOf b name := by
  simp only [valueOf, Bindings.lookup?, Bindings.index?, canonicalName_canonicalName]

theorem stream_callFunction (name : String) {xs ys : List α} (length : xs.length = ys.length)
    (s : RandomStream) : (callFunction name xs s).2 = (callFunction name ys s).2 := by
  unfold callFunction
  rcases xs with _ | ⟨x, _ | ⟨x', _ | ⟨x'', xs⟩⟩⟩ <;>
    rcases ys with _ | ⟨y, _ | ⟨y', _ | ⟨y'', ys⟩⟩⟩ <;> simp at length
  · rfl
  all_goals
    rcases Builtin.ofName? (Text.upper name) with _ | ⟨_ | f | f⟩ <;> rfl

theorem length_evaluateAll (b : Option (Bindings α)) : ∀ (es : List (Expr α)) (s : RandomStream),
    (evaluateAll b es s).1.length = es.length
  | [], _ => rfl
  | _ :: es, _ => congrArg (· + 1) (length_evaluateAll b es _)

mutual
theorem stream_evaluate (b b' : Option (Bindings α)) : ∀ (e : Expr α) (s : RandomStream),
    (e.evaluate b s).2 = (e.evaluate b' s).2
  | num _, _ => rfl
  | var _, _ => rfl
  | bin op l r, s => by
    simp only [evaluate, stream_evaluate b b' l s]
    exact stream_evaluate b b' r _
  | un op e, s => stream_evaluate b b' e s
  | call name args, s => by
    have length : (evaluateAll b args s).1.length = (evaluateAll b' args s).1.length := by
      rw [length_evaluateAll, length_evaluateAll]
    simp only [evaluate, stream_evaluateAll b b' args s]
    exact stream_callFunction name length _
  | tensor _, _ => rfl
theorem stream_evaluateAll (b b' : Option (Bindings α)) : ∀ (es : List (Expr α))
    (s : RandomStream), (evaluateAll b es s).2 = (evaluateAll b' es s).2
  | [], _ => rfl
  | e :: es, s => by
    simp only [evaluateAll, stream_evaluate b b' e s]
    exact stream_evaluateAll b b' es _
end

mutual
theorem evaluate_congr {b b' : Option (Bindings α)} : ∀ e : Expr α,
    (∀ name, e.mentions name = true → valueOf b' name = valueOf b name) →
      e.evaluate b' = e.evaluate b
  | num _, _ => rfl
  | var name, h => by
    funext s
    simp only [evaluate, h name (beq_self_eq_true name)]
  | bin op l r, h => by
    have left := evaluate_congr l fun name hl => h name (by simp [mentions, hl])
    have right := evaluate_congr r fun name hr => h name (by simp [mentions, hr])
    funext s
    simp only [evaluate, left, right]
  | un op e, h => by
    funext s
    simp only [evaluate, evaluate_congr e h]
  | call name args, h => by
    funext s
    simp only [evaluate, evaluateAll_congr args h]
  | tensor _, _ => rfl
theorem evaluateAll_congr {b b' : Option (Bindings α)} : ∀ es : List (Expr α),
    (∀ name, mentionsAny name es = true → valueOf b' name = valueOf b name) →
      evaluateAll b' es = evaluateAll b es
  | [], _ => rfl
  | e :: es, h => by
    have first := evaluate_congr e fun name he => h name (by simp [mentionsAny, he])
    have rest := evaluateAll_congr es fun name hes => h name (by simp [mentionsAny, hes])
    funext s
    simp only [evaluateAll, first, rest]
end

end DerivativeEngine.Expr
