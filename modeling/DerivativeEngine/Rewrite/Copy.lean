import DerivativeEngine.Expr.Basic

/-!
Trees that share tensors. A rewriter that puts a subtree into its result holds the tensors in it
once more; `Retaining` carries these holds beside the value, a handle as often as it was taken.
The `_value` lemmas let proofs about trees forget the holds.
-/

namespace DerivativeEngine

structure Retaining (β : Type) where
  value : β
  retained : List Nat
  deriving Repr

namespace Retaining

variable {β γ : Type}

instance : Monad Retaining where
  pure x := ⟨x, []⟩
  bind x f := ⟨(f x.value).value, x.retained ++ (f x.value).retained⟩

@[simp] theorem pure_value (x : β) : (pure x : Retaining β).value = x := rfl

@[simp] theorem pure_retained (x : β) : (pure x : Retaining β).retained = [] := rfl

@[simp] theorem bind_value (x : Retaining β) (f : β → Retaining γ) :
    (x >>= f).value = (f x.value).value := rfl

@[simp] theorem bind_retained (x : Retaining β) (f : β → Retaining γ) :
    (x >>= f).retained = x.retained ++ (f x.value).retained := rfl

/-- How often a handle was taken. -/
def count (x : Retaining β) (handle : Nat) : Nat := x.retained.count handle

end Retaining

namespace Expr

variable {α : Type}

mutual
def clone : Expr α → Retaining (Expr α)
  | num x => pure (num x)
  | var name => pure (var name)
  | bin op l r => do return bin op (← clone l) (← clone r)
  | un op e => do return un op (← clone e)
  | call name args => do return call name (← cloneAll args)
  | tensor t => ⟨tensor t, [t.handle]⟩
def cloneAll : List (Expr α) → Retaining (List (Expr α))
  | [] => pure []
  | e :: es => do return (← clone e) :: (← cloneAll es)
end

mutual
/-- Every occurrence of the variable `name` becomes a copy of `replacement`. -/
def replace (name : String) (replacement : Expr α) : Expr α → Retaining (Expr α)
  | num x => pure (num x)
  | var x => if x == name then clone replacement else pure (var x)
  | bin op l r => do return bin op (← replace name replacement l) (← replace name replacement r)
  | un op e => do return un op (← replace name replacement e)
  | call f args => do return call f (← replaceAll name replacement args)
  | tensor t => clone (tensor t)
def replaceAll (name : String) (replacement : Expr α) : List (Expr α) → Retaining (List (Expr α))
  | [] => pure []
  | e :: es => do return (← replace name replacement e) :: (← replaceAll name replacement es)
end

def substitute (e : Expr α) (name : String) (replacement : Expr α) : Retaining (Expr α) :=
  replace (canonicalName name) replacement e

mutual
@[simp] theorem clone_value : ∀ e : Expr α, (clone e).value = e
  | num _ => rfl
  | var _ => rfl
  | bin op l r => by simp [clone, clone_value l, clone_value r]
  | un op e => by simp [clone, clone_value e]
  | call name args => by simp [clone, cloneAll_value args]
  | tensor _ => rfl
@[simp] theorem cloneAll_value : ∀ es : List (Expr α), (cloneAll es).value = es
  | [] => rfl
  | e :: es => by simp [cloneAll, clone_value e, cloneAll_value es]
end

mutual
/-- A copy holds exactly the tensors that stand in it. -/
theorem clone_retained : ∀ e : Expr α, (clone e).retained = e.handles
  | num _ => rfl
  | var _ => rfl
  | bin op l r => by simp [clone, handles, clone_retained l, clone_retained r]
  | un op e => by simp [clone, handles, clone_retained e]
  | call name args => by simp [clone, handles, cloneAll_retained args]
  | tensor _ => rfl
theorem cloneAll_retained : ∀ es : List (Expr α), (cloneAll es).retained = handlesAll es
  | [] => rfl
  | e :: es => by simp [cloneAll, handlesAll, clone_retained e, cloneAll_retained es]
end

end Expr

end DerivativeEngine
