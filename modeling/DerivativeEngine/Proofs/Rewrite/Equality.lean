import DerivativeEngine.Proofs.Expr.Nodes
import DerivativeEngine.Proofs.Scalar.Magnitude
import DerivativeEngine.Rewrite.Copy
import DerivativeEngine.Source.Reading

/-! Structural equality as a relation between trees. It is decided by the comparison of their nodes,
one by one, and what is not a number is compared exactly, so trees that match have the same
operations and the same variables. Of numbers it asks for a small difference, whichever is taken
from the other; an infinity has none to itself, so a tree that holds one does not match itself. -/

namespace DerivativeEngine.Expr

variable {α : Type} [Scalar α]

mutual
inductive Matches : Expr α → Expr α → Prop
  | num {x y : α} (close : near x y = true) : Matches (num x) (num y)
  | var (name : String) : Matches (var name) (var name)
  | bin (op : BinaryOp) {l l' r r' : Expr α} (left : Matches l l') (right : Matches r r') :
      Matches (bin op l r) (bin op l' r')
  | un (op : UnaryOp) {e e' : Expr α} (operand : Matches e e') : Matches (un op e) (un op e')
  | call (name : String) {es es' : List (Expr α)} (args : MatchesAll es es') :
      Matches (call name es) (call name es')
  | tensor {t t' : TensorLiteral α} (same : t.handle = t'.handle) : Matches (tensor t) (tensor t')
inductive MatchesAll : List (Expr α) → List (Expr α) → Prop
  | nil : MatchesAll [] []
  | cons {e e' : Expr α} {es es' : List (Expr α)} (first : Matches e e')
      (rest : MatchesAll es es') : MatchesAll (e :: es) (e' :: es')
end

mutual
theorem matches_of_equal : ∀ a b : Expr α, equal a b = true → Matches a b
  | num x, b, h => by
    cases b with
    | num y => exact .num h
    | _ => simp [equal] at h
  | var x, b, h => by
    cases b with
    | var y =>
      obtain rfl : x = y := by simpa [equal] using h
      exact .var x
    | _ => simp [equal] at h
  | bin op l r, b, h => by
    cases b with
    | bin op' l' r' =>
      simp only [equal, Bool.and_eq_true, beq_iff_eq] at h
      obtain ⟨⟨rfl, left⟩, right⟩ := h
      exact .bin op (matches_of_equal l l' left) (matches_of_equal r r' right)
    | _ => simp [equal] at h
  | un op e, b, h => by
    cases b with
    | un op' e' =>
      simp only [equal, Bool.and_eq_true, beq_iff_eq] at h
      obtain ⟨rfl, operand⟩ := h
      exact .un op (matches_of_equal e e' operand)
    | _ => simp [equal] at h
  | call f es, b, h => by
    cases b with
    | call f' es' =>
      simp only [equal, Bool.and_eq_true, beq_iff_eq] at h
      obtain ⟨rfl, args⟩ := h
      exact .call f (matchesAll_of_equalAll es es' args)
    | _ => simp [equal] at h
  | tensor t, b, h => by
    cases b with
    | tensor t' => exact .tensor (by simpa [equal] using h)
    | _ => simp [equal] at h
theorem matchesAll_of_equalAll : ∀ es es' : List (Expr α), equalAll es es' = true →
    MatchesAll es es'
  | [], es', h => by
    cases es' with
    | nil => exact .nil
    | cons _ _ => simp [equalAll] at h
  | e :: es, es', h => by
    cases es' with
    | nil => simp [equalAll] at h
    | cons e' es' =>
      obtain ⟨first, rest⟩ := Bool.and_eq_true_iff.1 h
      exact .cons (matches_of_equal e e' first) (matchesAll_of_equalAll es es' rest)
end

mutual
theorem Matches.equal {a b : Expr α} : Matches a b → a.equal b = true
  | .num close => close
  | .var _ => by simp [Expr.equal]
  | .bin _ left right => by simp [Expr.equal, left.equal, right.equal]
  | .un _ operand => by simp [Expr.equal, operand.equal]
  | .call _ args => by simp [Expr.equal, args.equalAll]
  | .tensor same => by simp [Expr.equal, same]
theorem MatchesAll.equalAll {es es' : List (Expr α)} : MatchesAll es es' →
    Expr.equalAll es es' = true
  | .nil => by simp [Expr.equalAll]
  | .cons first rest => by simp [Expr.equalAll, first.equal, rest.equalAll]
end

theorem equal_eq_true_iff {a b : Expr α} : equal a b = true ↔ Matches a b :=
  ⟨matches_of_equal a b, Matches.equal⟩

mutual
theorem Matches.countOperations {a b : Expr α} : Matches a b →
    a.countOperations = b.countOperations
  | .num _ | .var _ | .tensor _ => rfl
  | .bin _ left right => by
    simp only [Expr.countOperations, left.countOperations, right.countOperations]
  | .un _ operand => by simp only [Expr.countOperations, operand.countOperations]
  | .call _ args => by simp only [Expr.countOperations, args.countOperationsAll]
theorem MatchesAll.countOperationsAll {es es' : List (Expr α)} : MatchesAll es es' →
    Expr.countOperationsAll es = Expr.countOperationsAll es'
  | .nil => rfl
  | .cons first rest => by
    simp only [Expr.countOperationsAll, first.countOperations, rest.countOperationsAll]
end

mutual
theorem Matches.mentions {a b : Expr α} (name : String) : Matches a b →
    a.mentions name = b.mentions name
  | .num _ | .var _ | .tensor _ => rfl
  | .bin _ left right => by simp only [Expr.mentions, left.mentions name, right.mentions name]
  | .un _ operand => by simp only [Expr.mentions, operand.mentions name]
  | .call _ args => by simp only [Expr.mentions, args.mentionsAny name]
theorem MatchesAll.mentionsAny {es es' : List (Expr α)} (name : String) : MatchesAll es es' →
    Expr.mentionsAny name es = Expr.mentionsAny name es'
  | .nil => rfl
  | .cons first rest => by
    simp only [Expr.mentionsAny, first.mentions name, rest.mentionsAny name]
end

/-- Differences are as small one way round as the other, and what is finite has none to itself. -/
structure NearLaws (α : Type) [Scalar α] : Prop where
  swap : ∀ x y : α, near x y = near y x
  self : ∀ x : α, near x x = Scalar.isFinite x

def FiniteNumber : Expr α → Prop
  | num x => Scalar.isFinite x = true
  | _ => True

mutual
theorem Matches.symm (laws : NearLaws α) {a b : Expr α} : Matches a b → Matches b a
  | .num close => .num ((laws.swap _ _).trans close)
  | .var name => .var name
  | .bin op left right => .bin op (left.symm laws) (right.symm laws)
  | .un op operand => .un op (operand.symm laws)
  | .call name args => .call name (args.symm laws)
  | .tensor same => .tensor same.symm
theorem MatchesAll.symm (laws : NearLaws α) {es es' : List (Expr α)} : MatchesAll es es' →
    MatchesAll es' es
  | .nil => .nil
  | .cons first rest => .cons (first.symm laws) (rest.symm laws)
end

theorem equal_comm (laws : NearLaws α) (a b : Expr α) : equal a b = equal b a := by
  rw [Bool.eq_iff_iff, equal_eq_true_iff, equal_eq_true_iff]
  exact ⟨fun h => h.symm laws, fun h => h.symm laws⟩

mutual
theorem equal_self_iff (laws : NearLaws α) : ∀ e : Expr α,
    equal e e = true ↔ e.EveryNode FiniteNumber
  | num x => by
    change near x x = true ↔ Scalar.isFinite x = true
    rw [laws.self]
  | var x => by simp [equal, EveryNode, FiniteNumber]
  | bin op l r => by
    simp only [equal, beq_self_eq_true, Bool.true_and, Bool.and_eq_true, equal_self_iff laws l,
      equal_self_iff laws r, EveryNode, FiniteNumber, true_and]
  | un op e => by
    simp only [equal, beq_self_eq_true, Bool.true_and, equal_self_iff laws e, EveryNode,
      FiniteNumber, true_and]
  | call f es => by
    simp only [equal, beq_self_eq_true, Bool.true_and, equalAll_self_iff laws es, EveryNode,
      FiniteNumber, true_and]
  | tensor t => by simp [equal, EveryNode, FiniteNumber]
theorem equalAll_self_iff (laws : NearLaws α) : ∀ es : List (Expr α),
    equalAll es es = true ↔ EveryNodes FiniteNumber es
  | [] => by simp [equalAll, EveryNodes]
  | e :: es => by
    simp only [equalAll, Bool.and_eq_true, equal_self_iff laws e, equalAll_self_iff laws es,
      EveryNodes]
end

theorem nearLaws_double : NearLaws Float where
  swap x y := by
    have size : Scalar.abs (x - y) = Scalar.abs (y - x) := Double.abs_sub_swap x y
    rw [near, near, size]
  self x := by
    have size : Scalar.abs (x - x) = if x.isFinite then 0 else 0 / 0 := Double.abs_sub_self x
    have finite : Scalar.isFinite x = x.isFinite := rfl
    rw [near, size, finite]
    cases x.isFinite with
    | true => decide
    | false => decide

/-- Of two trees over the doubles each equals the other or neither does, and trees that are equal
have as many operations and the same variables. A tree equals itself, and is equalled by its copy,
exactly if all its numbers are finite. -/
theorem equal_trees (a b : Expr Float) :
    equal a b = equal b a ∧
      (equal a b = true → a.countOperations = b.countOperations ∧
        ∀ name, a.containsVariable name = b.containsVariable name) ∧
      (equal a a = true ↔ a.EveryNode FiniteNumber) ∧
      (equal (clone a).value a = true ↔ a.EveryNode FiniteNumber) := by
  refine ⟨equal_comm nearLaws_double a b, fun same => ?_, equal_self_iff nearLaws_double a, ?_⟩
  · have matching := equal_eq_true_iff.1 same
    exact ⟨matching.countOperations, fun name => matching.mentions (canonicalName name)⟩
  · rw [clone_value]
    exact equal_self_iff nearLaws_double a

theorem equal_trees_sine :
    let tree (x : Float) : Expr Float := bin .add (call "SIN" [var "X"]) (num x)
    equal (tree 1) (tree 1.0000000000001) = true ∧ equal (tree 1.0000000000001) (tree 1) = true ∧
      (tree 1).countOperations = (tree 1.0000000000001).countOperations ∧
      (tree 1).containsVariable "x" = (tree 1.0000000000001).containsVariable "x" ∧
      equal (clone (tree 1)).value (tree 1) = true := by
  intro tree
  have same : equal (tree 1) (tree 1.0000000000001) = true := by decide +kernel
  obtain ⟨swapped, common, -, copied⟩ := equal_trees (tree 1) (tree 1.0000000000001)
  obtain ⟨count, names⟩ := common same
  have finite : (tree 1).EveryNode FiniteNumber := by
    refine ⟨trivial, ⟨trivial, trivial, trivial⟩, ?_⟩
    change Float.isFinite 1 = true
    decide
  exact ⟨same, swapped ▸ same, count, names "x", copied.2 finite⟩

/-- A literal beyond the doubles is read as an infinity. It equals neither itself nor its copy. -/
theorem not_equal_infinity :
    (Source.parse (α := Float) "1e400" none {} .start).1.map
      (fun t => (equal t t, equal (clone t).value t)) = .ok (false, false) := by
  decide +kernel

end DerivativeEngine.Expr
