import DerivativeEngine.Proofs.Source.Grammar
import Mathlib.Tactic.SplitIfs

/-! Binding powers and levels of the grammar. The parser knows an operator by a pair of powers, the
grammar by the level of its phrase, and a call for operands of some power or more is a call for a
phrase of the level that belongs to it. -/

namespace DerivativeEngine.Grammar

open DerivativeEngine.Parser (infix?)

namespace Level

def leftPower : Level → Nat
  | or => 1 | and => 3 | cmp => 5 | add => 7 | mul => 9 | _ => 11

def rightPower : Level → Nat
  | or => 2 | and => 4 | cmp => 6 | add => 8 | mul => 10 | _ => 11

def ofPower (p : Nat) : Level :=
  if p ≤ 1 then or else if p ≤ 3 then and else if p ≤ 5 then cmp
  else if p ≤ 7 then add else if p ≤ 9 then mul else pow

theorem rank_ofPower_le_iff {p : Nat} {l : Level} (operator : l.rank ≤ pow.rank) (small : p ≤ 11) :
    (ofPower p).rank ≤ l.rank ↔ p ≤ l.leftPower := by
  unfold ofPower
  cases l with
  | unary | primary => simp [rank] at operator
  | _ => split_ifs <;> simp [rank, leftPower] <;> omega

theorem rank_ofPower_le_pow (p : Nat) : (ofPower p).rank ≤ pow.rank := by
  unfold ofPower
  split_ifs <;> simp [rank]

end Level

theorem infix?_eq (k : TokenKind) :
    infix? k = (rule? k).map fun r => (r.op, r.level.leftPower, r.level.rightPower) := by
  cases k <;> rfl

def rules : List Rule :=
  [⟨.or, .or, .or, .and⟩, ⟨.and, .and, .and, .cmp⟩, ⟨.gt, .cmp, .add, .add⟩,
    ⟨.lt, .cmp, .add, .add⟩, ⟨.ge, .cmp, .add, .add⟩, ⟨.le, .cmp, .add, .add⟩,
    ⟨.eq, .cmp, .add, .add⟩, ⟨.ne, .cmp, .add, .add⟩, ⟨.add, .add, .add, .mul⟩,
    ⟨.sub, .add, .add, .mul⟩, ⟨.mul, .mul, .mul, .pow⟩, ⟨.div, .mul, .mul, .pow⟩,
    ⟨.pow, .pow, .unary, .pow⟩]

theorem mem_rules {k : TokenKind} {r : Rule} (h : rule? k = some r) : r ∈ rules := by
  cases k <;> simp [rule?] at h <;> subst h <;> decide

def Rule.refused (r : Rule) (compared combined : Bool) : Bool :=
  r.op.isComparison && (compared || combined)

section Table

variable {k k' : TokenKind} {r r' : Rule}

theorem level_rank_le (h : rule? k = some r) : r.level.rank ≤ Level.pow.rank :=
  (by decide : ∀ r ∈ rules, r.level.rank ≤ Level.pow.rank) r (mem_rules h)

theorem left_rank_le (h : rule? k = some r) : r.left.rank ≤ Level.unary.rank :=
  (by decide : ∀ r ∈ rules, r.left.rank ≤ Level.unary.rank) r (mem_rules h)

theorem right_rank_le (h : rule? k = some r) : r.right.rank ≤ Level.unary.rank :=
  (by decide : ∀ r ∈ rules, r.right.rank ≤ Level.unary.rank) r (mem_rules h)

theorem level_le_left (h : rule? k = some r) : r.level.rank ≤ r.left.rank :=
  (by decide : ∀ r ∈ rules, r.level.rank ≤ r.left.rank) r (mem_rules h)

theorem level_le_right (h : rule? k = some r) : r.level.rank ≤ r.right.rank :=
  (by decide : ∀ r ∈ rules, r.level.rank ≤ r.right.rank) r (mem_rules h)

theorem ofPower_rightPower (h : rule? k = some r) : .ofPower r.level.rightPower = r.right :=
  (by decide : ∀ r ∈ rules, Level.ofPower r.level.rightPower = r.right) r (mem_rules h)

theorem rightPower_le (h : rule? k = some r) : r.level.rightPower ≤ 11 :=
  (by decide : ∀ r ∈ rules, r.level.rightPower ≤ 11) r (mem_rules h)

/-- Where the right operand of one operator stopped, the next operator takes the whole phrase as
its left operand, unless it is a comparison that the chain refuses. -/
theorem left_rank_le_level (h : rule? k = some r) (h' : rule? k' = some r')
    (stops : r'.level.leftPower < r.level.rightPower ∨ r'.op.isComparison = true)
    (next : r'.refused r.op.isComparison r.op.isLogical = false) :
    r'.left.rank ≤ r.level.rank :=
  (by decide : ∀ r ∈ rules, ∀ r' ∈ rules,
    r'.level.leftPower < r.level.rightPower ∨ r'.op.isComparison = true →
    r'.refused r.op.isComparison r.op.isLogical = false → r'.left.rank ≤ r.level.rank)
    r (mem_rules h) r' (mem_rules h') stops next

theorem leftPower_lt_rightPower (h : rule? k = some r) (h' : rule? k' = some r')
    (takes : r'.left.rank ≤ r.level.rank) : r'.level.leftPower < r.level.rightPower :=
  (by decide : ∀ r ∈ rules, ∀ r' ∈ rules, r'.left.rank ≤ r.level.rank →
    r'.level.leftPower < r.level.rightPower) r (mem_rules h) r' (mem_rules h') takes

theorem op_mem_known (h : rule? k = some r) : r.op ∈ BinaryOp.known :=
  (by decide : ∀ r ∈ rules, r.op ∈ BinaryOp.known) r (mem_rules h)

theorem isComparison_iff (h : rule? k = some r) : r.op.isComparison = true ↔ r.level = .cmp :=
  (by decide : ∀ r ∈ rules, r.op.isComparison = true ↔ r.level = .cmp) r (mem_rules h)

theorem level_of_isLogical (h : rule? k = some r) (logical : r.op.isLogical = true) :
    r.level.rank ≤ Level.and.rank :=
  (by decide : ∀ r ∈ rules, r.op.isLogical = true → r.level.rank ≤ Level.and.rank)
    r (mem_rules h) logical

end Table

structure Follows (l : Level) (tok : Token) : Prop where
  uncalled : tok.kind ≠ .leftParen
  taken : ∀ r, rule? tok.kind = some r → r.left.rank ≤ l.rank

theorem Follows.mono {l m : Level} {tok : Token} (h : Follows l tok) (le : l.rank ≤ m.rank) :
    Follows m tok :=
  ⟨h.uncalled, fun r hr => Nat.le_trans (h.taken r hr) le⟩

def closings : List TokenKind := [.rightParen, .comma, .eof]

theorem rule?_of_closing {k : TokenKind} (h : k ∈ closings) : rule? k = none :=
  (by decide : ∀ k ∈ closings, rule? k = none) k h

theorem Follows.of_closing (l : Level) {tok : Token} (h : tok.kind ∈ closings) :
    Follows l tok where
  uncalled opening := by simp [opening, closings] at h
  taken r rule := by
    rw [rule?_of_closing h] at rule
    simp at rule

theorem Follows.of_rule {tok : Token} {r : Rule} (h : rule? tok.kind = some r) :
    Follows r.left tok where
  uncalled opening := by simp [opening, rule?] at h
  taken r' hr' := by
    obtain rfl : r = r' := Option.some.inj (h.symm.trans hr')
    exact Nat.le_refl _

/-- What the chain of a phrase of this level may have gone through. -/
structure Chained (l : Level) (compared combined : Bool) : Prop where
  comparison : compared = true → l.rank ≤ Level.cmp.rank
  logical : combined = true → l.rank ≤ Level.and.rank

theorem Chained.allows {r : Rule} {tok : Token} {compared combined : Bool}
    (rule : rule? tok.kind = some r) (h : Chained r.left compared combined) :
    r.refused compared combined = false := by
  have low : r.op.isComparison = true → Level.cmp.rank < r.left.rank :=
    (by decide : ∀ r ∈ rules, r.op.isComparison = true → Level.cmp.rank < r.left.rank)
      r (mem_rules rule)
  have comparison := h.comparison
  have logical := h.logical
  have order : Level.and.rank ≤ Level.cmp.rank := by decide
  unfold Rule.refused
  cases hc : r.op.isComparison with
  | false => rfl
  | true =>
    have high := low hc
    cases compared <;> cases combined <;> grind

theorem Chained.step {r : Rule} {tok : Token} {compared combined : Bool}
    (rule : rule? tok.kind = some r) (h : Chained r.left compared combined) :
    Chained r.level (compared || r.op.isComparison) (combined || r.op.isLogical) where
  comparison hc := by
    rcases Bool.or_eq_true_iff.1 hc with hc | hc
    · exact Nat.le_trans (level_le_left rule) (h.comparison hc)
    · exact Nat.le_of_eq (congrArg Level.rank ((isComparison_iff rule).1 hc))
  logical hl := by
    rcases Bool.or_eq_true_iff.1 hl with hl | hl
    · exact Nat.le_trans (level_le_left rule) (h.logical hl)
    · exact level_of_isLogical rule hl

end DerivativeEngine.Grammar
