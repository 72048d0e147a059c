import DerivativeEngine.Expr.Basic

/-! Conditions on all nodes of an expression. A condition sees the whole subtree below a node, so
it can ask for the number of arguments of a call or for the literal in front of it, and it says
nothing about a tree that is not built yet. -/

namespace DerivativeEngine.Expr

variable {α : Type}

mutual
def EveryNode (p : Expr α → Prop) : Expr α → Prop
  | num x => p (num x)
  | var name => p (var name)
  | bin op l r => p (bin op l r) ∧ EveryNode p l ∧ EveryNode p r
  | un op e => p (un op e) ∧ EveryNode p e
  | call name args => p (call name args) ∧ EveryNodes p args
  | tensor t => p (tensor t)
def EveryNodes (p : Expr α → Prop) : List (Expr α) → Prop
  | [] => True
  | e :: es => EveryNode p e ∧ EveryNodes p es
end

mutual
theorem EveryNode.mono {p q : Expr α → Prop} (h : ∀ e, p e → q e) :
    ∀ e : Expr α, e.EveryNode p → e.EveryNode q
  | num _, hp => h _ hp
  | var _, hp => h _ hp
  | bin _ l r, hp => ⟨h _ hp.1, EveryNode.mono h l hp.2.1, EveryNode.mono h r hp.2.2⟩
  | un _ e, hp => ⟨h _ hp.1, EveryNode.mono h e hp.2⟩
  | call _ args, hp => ⟨h _ hp.1, EveryNodes.mono h args hp.2⟩
  | tensor _, hp => h _ hp
theorem EveryNodes.mono {p q : Expr α → Prop} (h : ∀ e, p e → q e) :
    ∀ es : List (Expr α), EveryNodes p es → EveryNodes q es
  | [], _ => trivial
  | e :: es, hp => ⟨EveryNode.mono h e hp.1, EveryNodes.mono h es hp.2⟩
end

mutual
theorem EveryNode.of_mentions {p : Expr α → Prop} {name : String} : ∀ e : Expr α,
    e.EveryNode p → e.mentions name = true → p (var name)
  | num _, _, h => by simp [mentions] at h
  | var x, hp, h => by
    obtain rfl : x = name := by simpa [mentions] using h
    exact hp
  | bin _ l r, hp, h => by
    rcases Bool.or_eq_true_iff.1 h with h | h
    · exact EveryNode.of_mentions l hp.2.1 h
    · exact EveryNode.of_mentions r hp.2.2 h
  | un _ e, hp, h => EveryNode.of_mentions e hp.2 h
  | call _ args, hp, h => EveryNodes.of_mentionsAny args hp.2 h
  | tensor _, _, h => by simp [mentions] at h
theorem EveryNodes.of_mentionsAny {p : Expr α → Prop} {name : String} : ∀ es : List (Expr α),
    EveryNodes p es → mentionsAny name es = true → p (var name)
  | [], _, h => by simp [mentionsAny] at h
  | e :: es, hp, h => by
    rcases Bool.or_eq_true_iff.1 h with h | h
    · exact EveryNode.of_mentions e hp.1 h
    · exact EveryNodes.of_mentionsAny es hp.2 h
end

/-- Operators have a meaning; a name stands for an operator only where it is none of them. -/
def OperatorKnown : Expr α → Prop
  | bin (.unknown _) _ _ => False
  | un (.unknown _) _ => False
  | _ => True

def NameCanonical : Expr α → Prop
  | var name => canonicalName name = name
  | _ => True

theorem canonicalName_x : canonicalName "X" = "X" := by decide +kernel

end DerivativeEngine.Expr
