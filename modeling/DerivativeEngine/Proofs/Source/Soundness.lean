import DerivativeEngine.Proofs.Source.Powers
import DerivativeEngine.Proofs.Source.Steps

/-! What the parser accepts is a phrase of the grammar. The parser is taken in the mode that stops
at the first error, where a run with a result has noticed none. The loop over operators carries the
phrase that was read so far; that the next operator may take this phrase as its left operand rests
on where its right operand stopped. -/

namespace DerivativeEngine.Parser

open Grammar

variable {α : Type}

theorem outcome_checkTime_ok {env : Setting α} {s s' : State α} {u : Unit}
    (h : outcome (checkTime env) s = (.ok u, s')) : s' = s.checked := by
  rw [outcome_checkTime] at h
  split_ifs at h
  · simp at h
  · exact (congrArg Prod.snd h).symm

theorem fail_ne_ok {env : Setting α} (stops : env.config.continueOnError = false) {tok : Token}
    {code : ErrorCode} {message : String} {expected : List String} {s s' : State α} {u : Unit} :
    outcome (fail env tok code message expected) s ≠ (.ok u, s') := by
  simp [outcome_fail, stops]

variable [Scalar α]

theorem numberOf_ok {tok : Token} {s s' : State α} {x : α}
    (h : outcome (numberOf tok) s = (.ok x, s')) : tok.numberValue? = some x ∧ s' = s := by
  unfold numberOf at h
  split at h
  · next y value =>
    simp only [outcome_pure, Prod.mk.injEq, Except.ok.injEq] at h
    exact ⟨h.1 ▸ value, h.2.symm⟩
  · simp at h

theorem unexpected_ne_ok {env : Setting α} (stops : env.config.continueOnError = false)
    {tok : Token} {s s' : State α} {e : Expr α} :
    outcome (unexpected env tok) s ≠ (.ok e, s') := by
  intro h
  unfold unexpected at h
  split at h <;> obtain ⟨_, _, failed, _⟩ := outcome_bind_ok_iff.1 h <;>
    exact fail_ne_ok stops failed

theorem finishCall_ok {env : Setting α} (stops : env.config.continueOnError = false)
    {nameTok : Token} {name : String} {args : List (Expr α)} {s s' : State α} {e : Expr α}
    (h : outcome (finishCall env nameTok name args) s = (.ok e, s')) :
    Callable env.dialect name args.length ∧ e = callTree name args ∧
      ∀ {s₀ ts d}, Took env s₀ ts d s → Took env s₀ ts d s' := by
  rw [outcome_finishCall] at h
  split at h
  · obtain ⟨_, _, failed, _⟩ := outcome_bind_ok_iff.1 h
    exact absurd failed (fail_ne_ok stops)
  · next callable =>
    obtain ⟨tree, rfl⟩ := Prod.mk.injEq .. ▸ h
    refine ⟨callIssue?_eq_none_iff.1 callable, (Except.ok.inj tree).symm, fun took => ?_⟩
    have called := took.log (e := .called name args.length) (by simp)
    split
    · exact called.log (by simp)
    · exact called

def Stops (env : Setting α) (p : Nat) (s : State α) : Prop :=
  ∀ r, rule? (s.head env).kind = some r → r.level.leftPower < p ∨ r.op.isComparison = true

/-- The tokens up to the state are a phrase at the power, and the operator to come, if the loop
goes on with it, may take them as its left operand. -/
structure Ready (env : Setting α) (p : Nat) (s : State α) (d : Nat) (ts : List Token)
    (left : Expr α) (compared combined : Bool) : Prop where
  done : Phrase env.dialect (.ofPower p) d ts left
  next : ∀ r, rule? (s.head env).kind = some r → p ≤ r.level.leftPower →
    r.refused compared combined = false → Phrase env.dialect r.left d ts left

theorem Ready.of_unary {env : Setting α} {p d : Nat} {ts : List Token} {e : Expr α} (s : State α)
    (h : Phrase env.dialect .unary d ts e) : Ready env p s d ts e false false where
  done := h.tighter (Nat.le_trans (Level.rank_ofPower_le_pow p) (by decide))
  next _ rule _ _ := h.tighter (left_rank_le rule)

theorem Ready.step {env : Setting α} {p d d' : Nat} {s s' : State α} {tok : Token} {r : Rule}
    {ts us : List Token} {left right : Expr α} {compared combined : Bool} (small : p ≤ 11)
    (rule : rule? tok.kind = some r) (binds : p ≤ r.level.leftPower)
    (allowed : r.refused compared combined = false)
    (ready : Ready env p s d ts left compared combined) (head : s.head env = tok)
    (phrase : Phrase env.dialect r.right d' us right) (stops : Stops env r.level.rightPower s') :
    Ready env p s' (max d (d' + r.descent)) (ts ++ tok :: us) (.bin r.op left right)
      (compared || r.op.isComparison) (combined || r.op.isLogical) := by
  have operand : Phrase env.dialect r.left d ts left := ready.next r (head ▸ rule) binds allowed
  have made := Phrase.binary rule operand phrase
  have rank := (Level.rank_ofPower_le_iff (level_rank_le rule) small).2 binds
  refine ⟨made.tighter rank, fun r' rule' _ next => made.tighter ?_⟩
  refine left_rank_le_level rule rule' (stops r' rule') ?_
  simp only [Rule.refused] at next ⊢
  grind

/-- Every part of the parser, with this much fuel, reads phrases only. -/
structure Sound (env : Setting α) (n : Nat) : Prop where
  binary : ∀ {p s e s'}, p ≤ 11 → outcome (binary env n p) s = (.ok e, s') →
    ∃ d ts, Took env s ts d s' ∧ Phrase env.dialect (.ofPower p) d ts e ∧ Stops env p s'
  operators : ∀ {p s left compared combined e s' d ts}, p ≤ 11 →
    Ready env p s d ts left compared combined →
    outcome (operators env n p left compared combined) s = (.ok e, s') →
    ∃ d' us, Took env s us d' s' ∧
      Phrase env.dialect (.ofPower p) (max d d') (ts ++ us) e ∧ Stops env p s'
  unary : ∀ {s e s'}, outcome (unary env n) s = (.ok e, s') →
    ∃ d ts, Took env s ts d s' ∧ Phrase env.dialect .unary d ts e
  primary : ∀ {s e s'}, outcome (primary env n) s = (.ok e, s') →
    ∃ d ts, Took env s ts d s' ∧ Phrase env.dialect .primary d ts e
  identifier : ∀ {s e s'}, (s.head env).kind = .ident →
    outcome (identifier env n) s = (.ok e, s') →
    ∃ d ts, Took env s ts d s' ∧ Phrase env.dialect .primary d ts e
  arguments : ∀ {count s es s'}, outcome (arguments env n count) s = (.ok es, s') →
    ∃ d ts rp, Took env s (ts ++ [rp]) d s' ∧ Arguments env.dialect d ts es ∧
      rp.kind = .rightParen ∧ ((count + es.length : Nat) : Int) ≤ env.config.maxArgs

namespace Sound

variable {env : Setting α} {n : Nat}

theorem binary_succ (ih : Sound env n) {p : Nat} {s s' : State α} {e : Expr α} (small : p ≤ 11)
    (h : outcome (Parser.binary env (n + 1) p) s = (.ok e, s')) :
    ∃ d ts, Took env s ts d s' ∧ Phrase env.dialect (.ofPower p) d ts e ∧ Stops env p s' := by
  rw [Parser.binary] at h
  obtain ⟨_, s₀, timely, h₁⟩ := outcome_bind_ok_iff.1 h
  obtain ⟨left, s₁, hl, h₂⟩ := outcome_bind_ok_iff.1 h₁
  rw [outcome_checkTime_ok timely] at hl
  obtain ⟨d, ts, took, phrase⟩ := ih.unary hl
  obtain ⟨d', us, took', phrase', stops⟩ := ih.operators small (.of_unary s₁ phrase) h₂
  exact ⟨_, _, took.of_checked.trans took', phrase', stops⟩

theorem operand (ih : Sound env n) {tok : Token} {r : Rule} (rule : rule? tok.kind = some r)
    {s s' : State α} {e : Expr α} (h : outcome (Parser.operand env n r) s = (.ok e, s')) :
    ∃ d us, Took env s us (d + r.descent) s' ∧ Phrase env.dialect r.right d us e ∧
      Stops env r.level.rightPower s' := by
  rw [Parser.operand] at h
  rw [Rule.descent]
  split_ifs at h ⊢ with power
  · obtain ⟨deep, s₁, hp, rfl⟩ := outcome_nested_ok h
    obtain ⟨d, us, took, phrase, stops⟩ := ih.binary (rightPower_le rule) hp
    rw [ofPower_rightPower rule] at phrase
    exact ⟨d, us, took.nest deep, phrase, stops⟩
  · obtain ⟨d, us, took, phrase, stops⟩ := ih.binary (rightPower_le rule) h
    rw [ofPower_rightPower rule] at phrase
    exact ⟨d, us, took, phrase, stops⟩

theorem operators_succ (final : env.final.kind = .eof) (ih : Sound env n) {p d : Nat}
    {s s' : State α} {left e : Expr α} {compared combined : Bool} {ts : List Token} (small : p ≤ 11)
    (ready : Ready env p s d ts left compared combined)
    (h : outcome (Parser.operators env (n + 1) p left compared combined) s = (.ok e, s')) :
    ∃ d' us, Took env s us d' s' ∧ Phrase env.dialect (.ofPower p) (max d d') (ts ++ us) e ∧
      Stops env p s' := by
  rw [outcome_operators] at h
  split at h
  · next rule =>
    simp only [Prod.mk.injEq, Except.ok.injEq] at h
    obtain ⟨rfl, rfl⟩ := h
    refine ⟨0, [], .refl env s, by simpa using ready.done, fun r hr => ?_⟩
    rw [rule] at hr
    simp at hr
  · next r rule =>
    split_ifs at h with goes
    · obtain ⟨_, s₀, timely, h₁⟩ := outcome_bind_ok_iff.1 h
      rw [outcome_checkTime_ok timely, outcome_bind_of_ok (outcome_advance env s.checked)] at h₁
      obtain ⟨right, s₂, hr, h₂⟩ := outcome_bind_ok_iff.1 h₁
      obtain ⟨d', us, took, phrase, stops⟩ := ih.operand rule hr
      have ready' := ready.step small rule goes.1 goes.2 rfl phrase stops
      obtain ⟨d'', vs, took', phrase', stops'⟩ := ih.operators small ready' h₂
      have other : (s.head env).kind ≠ .eof := by
        intro eof
        rw [eof] at rule
        simp [rule?] at rule
      have first := (Took.single (s := s.checked) final rfl other).of_checked
      refine ⟨max (max 0 (d' + r.descent)) d'', s.head env :: us ++ vs, ?_, ?_, stops'⟩
      · exact (first.trans took).trans took'
      · simpa [Nat.max_assoc] using phrase'
    · simp only [Prod.mk.injEq, Except.ok.injEq] at h
      obtain ⟨rfl, rfl⟩ := h
      refine ⟨0, [], .refl env s, by simpa using ready.done, fun r' hr' => ?_⟩
      obtain rfl : r = r' := Option.some.inj (rule.symm.trans hr')
      rw [Rule.refused] at goes
      grind

theorem unary_succ (final : env.final.kind = .eof) (ih : Sound env n) {s s' : State α} {e : Expr α}
    (h : outcome (Parser.unary env (n + 1)) s = (.ok e, s')) :
    ∃ d ts, Took env s ts d s' ∧ Phrase env.dialect .unary d ts e := by
  rw [Parser.unary, outcome_bind_of_ok (outcome_peek env s)] at h
  split at h
  · next minus =>
    rw [outcome_bind_of_ok (outcome_advance env s),
      outcome_bind_of_ok (outcome_peek env s.drop)] at h
    have first := Took.single final minus (by decide)
    split_ifs at h with number
    · rw [beq_iff_eq] at number
      rw [outcome_bind_of_ok (outcome_advance env s.drop)] at h
      obtain ⟨x, s₁, hx, h₁⟩ := outcome_bind_ok_iff.1 h
      obtain ⟨value, rfl⟩ := numberOf_ok hx
      simp only [outcome_pure, Prod.mk.injEq, Except.ok.injEq] at h₁
      obtain ⟨rfl, rfl⟩ := h₁
      exact ⟨0, _, first.trans (.single final number (by decide)), .negative minus number value⟩
    · obtain ⟨x, s₁, inner, h₁⟩ := outcome_bind_ok_iff.1 h
      obtain ⟨deep, s₂, hx, rfl⟩ := outcome_nested_ok inner
      simp only [outcome_pure, Prod.mk.injEq, Except.ok.injEq] at h₁
      obtain ⟨rfl, rfl⟩ := h₁
      obtain ⟨d, ts, took, phrase⟩ := ih.unary hx
      refine ⟨_, _, first.trans (took.nest deep), ?_⟩
      rw [Nat.zero_max]
      refine .negate minus (fun t ht => ?_) phrase
      have head : s.drop.head env = t := by
        have rest := took.rest
        obtain ⟨us, rfl⟩ := List.head?_eq_some_iff.1 ht
        simp only [State.down] at rest
        simp [State.head, rest]
      simpa [head] using number
  · next bang =>
    rw [outcome_bind_of_ok (outcome_advance env s)] at h
    have first := Took.single final bang (by decide)
    obtain ⟨x, s₁, inner, h₁⟩ := outcome_bind_ok_iff.1 h
    obtain ⟨deep, s₂, hx, rfl⟩ := outcome_nested_ok inner
    simp only [outcome_pure, Prod.mk.injEq, Except.ok.injEq] at h₁
    obtain ⟨rfl, rfl⟩ := h₁
    obtain ⟨d, ts, took, phrase⟩ := ih.unary hx
    refine ⟨_, _, first.trans (took.nest deep), ?_⟩
    rw [Nat.zero_max]
    exact .not bang phrase
  · obtain ⟨d, ts, took, phrase⟩ := ih.primary h
    exact ⟨d, ts, took, phrase.tighter (by decide)⟩

theorem primary_succ (final : env.final.kind = .eof) (stops : env.config.continueOnError = false)
    (ih : Sound env n) {s s' : State α} {e : Expr α}
    (h : outcome (Parser.primary env (n + 1)) s = (.ok e, s')) :
    ∃ d ts, Took env s ts d s' ∧ Phrase env.dialect .primary d ts e := by
  rw [Parser.primary, outcome_bind_of_ok (outcome_peek env s)] at h
  split at h
  · next number =>
    rw [outcome_bind_of_ok (outcome_advance env s)] at h
    obtain ⟨x, s₁, hx, h₁⟩ := outcome_bind_ok_iff.1 h
    obtain ⟨value, rfl⟩ := numberOf_ok hx
    simp only [outcome_pure, Prod.mk.injEq, Except.ok.injEq] at h₁
    obtain ⟨rfl, rfl⟩ := h₁
    exact ⟨0, _, .single final number (by decide), .number number value⟩
  · next ident => exact ih.identifier ident h
  · next opening =>
    rw [outcome_bind_of_ok (outcome_advance env s)] at h
    obtain ⟨inner, s₁, hi, h₁⟩ := outcome_bind_ok_iff.1 h
    obtain ⟨deep, s₂, hb, rfl⟩ := outcome_nested_ok hi
    obtain ⟨d, ts, took, phrase, -⟩ := ih.binary (Nat.zero_le 11) hb
    by_cases closing : (s₂.up.head env).kind = .rightParen
    · rw [outcome_bind_of_ok (outcome_accept_of_eq closing), if_pos rfl] at h₁
      simp only [outcome_pure, Prod.mk.injEq, Except.ok.injEq] at h₁
      obtain ⟨rfl, rfl⟩ := h₁
      have first := Took.single final opening (by decide)
      have last := Took.single final closing (by decide)
      have whole := (first.trans (took.nest deep)).trans last
      rw [Nat.zero_max, Nat.max_zero] at whole
      exact ⟨_, _, whole, .brackets opening closing phrase⟩
    · rw [outcome_bind_of_ok (outcome_accept_of_ne closing), if_neg (by decide),
        outcome_bind_of_ok (outcome_peek env _)] at h₁
      obtain ⟨_, _, failed, _⟩ := outcome_bind_ok_iff.1 h₁
      exact absurd failed (fail_ne_ok stops)
  · exact absurd h (unexpected_ne_ok stops)

theorem arguments_succ (final : env.final.kind = .eof) (stops : env.config.continueOnError = false)
    (ih : Sound env n) {count : Nat} {s s' : State α} {es : List (Expr α)}
    (h : outcome (Parser.arguments env (n + 1) count) s = (.ok es, s')) :
    ∃ d ts rp, Took env s (ts ++ [rp]) d s' ∧ Arguments env.dialect d ts es ∧
      rp.kind = .rightParen ∧ ((count + es.length : Nat) : Int) ≤ env.config.maxArgs := by
  rw [Parser.arguments] at h
  split_ifs at h with full
  · rw [outcome_bind_of_ok (outcome_peek env s)] at h
    obtain ⟨_, _, failed, _⟩ := outcome_bind_ok_iff.1 h
    exact absurd failed (fail_ne_ok stops)
  · obtain ⟨e, s₁, he, h₁⟩ := outcome_bind_ok_iff.1 h
    obtain ⟨d, ts, took, phrase, -⟩ := ih.binary (Nat.zero_le 11) he
    by_cases comma : (s₁.head env).kind = .comma
    · rw [outcome_bind_of_ok (outcome_accept_of_eq comma), if_pos rfl] at h₁
      obtain ⟨es', s₂, hes, h₂⟩ := outcome_bind_ok_iff.1 h₁
      simp only [outcome_pure, Prod.mk.injEq, Except.ok.injEq] at h₂
      obtain ⟨rfl, rfl⟩ := h₂
      obtain ⟨d', us, rp, took', args, closing, few⟩ := ih.arguments hes
      have whole := (took.trans (.single final comma (by decide))).trans took'
      rw [Nat.max_zero] at whole
      refine ⟨max d d', ts ++ s₁.head env :: us, rp, ?_, .more comma phrase args, closing, ?_⟩
      · simpa using whole
      · rw [List.length_cons]
        omega
    · rw [outcome_bind_of_ok (outcome_accept_of_ne comma), if_neg (by decide)] at h₁
      by_cases closing : (s₁.head env).kind = .rightParen
      · rw [outcome_bind_of_ok (outcome_accept_of_eq closing), if_pos rfl] at h₁
        simp only [outcome_pure, Prod.mk.injEq, Except.ok.injEq] at h₁
        obtain ⟨rfl, rfl⟩ := h₁
        have whole := took.trans (.single final closing (by decide))
        rw [Nat.max_zero] at whole
        refine ⟨d, ts, s₁.head env, whole, .last phrase, closing, ?_⟩
        rw [List.length_singleton]
        omega
      · rw [outcome_bind_of_ok (outcome_accept_of_ne closing), if_neg (by decide),
          outcome_bind_of_ok (outcome_peek env _)] at h₁
        obtain ⟨_, _, failed, _⟩ := outcome_bind_ok_iff.1 h₁
        exact absurd failed (fail_ne_ok stops)

theorem identifier_succ (final : env.final.kind = .eof)
    (stops : env.config.continueOnError = false) (ih : Sound env n) {s s' : State α} {e : Expr α}
    (ident : (s.head env).kind = .ident)
    (h : outcome (Parser.identifier env (n + 1)) s = (.ok e, s')) :
    ∃ d ts, Took env s ts d s' ∧ Phrase env.dialect .primary d ts e := by
  have first := Took.single final ident (by decide)
  rw [Parser.identifier, outcome_bind_of_ok (outcome_advance env s)] at h
  dsimp only at h
  split at h
  · next x value =>
    simp only [outcome_pure, Prod.mk.injEq, Except.ok.injEq] at h
    obtain ⟨rfl, rfl⟩ := h
    exact ⟨0, _, first, .constant ident (constant?_eq_some_iff.1 value)⟩
  · next unnumbered =>
    have constant := constant?_eq_none_iff.1 unnumbered
    split at h
    · next x value =>
      rw [outcome_bind_of_ok (outcome_note _ _)] at h
      simp only [outcome_pure, Prod.mk.injEq, Except.ok.injEq] at h
      obtain ⟨rfl, rfl⟩ := h
      exact ⟨0, _, first.log (by simp), .bound ident constant value⟩
    · next unbound =>
      have free : Free env.dialect (Text.upper (s.head env).text) := ⟨constant, unbound⟩
      by_cases opening : (s.drop.head env).kind = .leftParen
      · rw [outcome_bind_of_ok (outcome_accept_of_eq opening), if_pos rfl] at h
        obtain ⟨args, s₁, hargs, h₁⟩ := outcome_bind_ok_iff.1 h
        obtain ⟨callable, rfl, quiet⟩ := finishCall_ok stops h₁
        obtain ⟨deep, s₂, ha, rfl⟩ := outcome_nested_ok hargs
        by_cases closing : (s.drop.drop.down.head env).kind = .rightParen
        · rw [outcome_bind_of_ok (outcome_accept_of_eq closing), if_pos rfl] at ha
          simp only [outcome_pure, Prod.mk.injEq, Except.ok.injEq] at ha
          obtain ⟨rfl, rfl⟩ := ha
          have second := Took.single final opening (by decide)
          have last := (Took.single final closing (by decide)).nest deep
          exact ⟨1, _, quiet ((first.trans second).trans last),
            .emptyCall ident free opening closing callable⟩
        · rw [outcome_bind_of_ok (outcome_accept_of_ne closing), if_neg (by decide)] at ha
          obtain ⟨d, ts, rp, took, phrases, closing, few⟩ := ih.arguments ha
          have second := Took.single final opening (by decide)
          have whole := (first.trans second).trans (took.nest deep)
          rw [Nat.max_zero, Nat.zero_max] at whole
          rw [Nat.zero_add] at few
          exact ⟨d + 1, _, quiet whole, .call ident free opening closing phrases few callable⟩
      · rw [outcome_bind_of_ok (outcome_accept_of_ne opening), if_neg (by decide)] at h
        split_ifs at h with strict
        · obtain ⟨_, _, failed, _⟩ := outcome_bind_ok_iff.1 h
          exact absurd failed (fail_ne_ok stops)
        · simp only [outcome_pure, Prod.mk.injEq, Except.ok.injEq] at h
          obtain ⟨rfl, rfl⟩ := h
          exact ⟨0, _, first, .name ident free (Bool.eq_false_iff.2 strict)⟩

end Sound

theorem sound {env : Setting α} (final : env.final.kind = .eof)
    (stops : env.config.continueOnError = false) (n : Nat) : Sound env n := by
  induction n with
  | zero =>
    constructor <;> intros <;>
      simp_all [binary, operators, unary, primary, identifier, arguments]
  | succ n ih =>
    exact ⟨ih.binary_succ, ih.operators_succ final, ih.unary_succ final,
      ih.primary_succ final stops, ih.identifier_succ final stops, ih.arguments_succ final stops⟩

end DerivativeEngine.Parser
