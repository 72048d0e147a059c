import DerivativeEngine.Proofs.Source.Acceptance

/-! How deep a source nests, and what a lower limit makes of it. Every part of the parser that
comes to a result leaves the depth as it found it, whatever was wrong with what it read. Under a
lower limit the parser does the same until it would go below it, and then stops with this one error
more; so of a source that was read without errors it is the only one. -/

namespace DerivativeEngine

open Grammar

namespace Parser

variable {α β γ : Type}

def Balanced (p : Parser α β) : Prop :=
  ∀ {s s' : State α} {x : β}, outcome p s = (.ok x, s') → s'.depth = s.depth

namespace Balanced

variable {env : Setting α}

theorem bind {p : Parser α β} {f : β → Parser α γ} (h : Balanced p) (k : ∀ x, Balanced (f x)) :
    Balanced (p >>= f) := by
  intro s s' y run
  obtain ⟨x, s₁, first, second⟩ := outcome_bind_ok_iff.1 run
  exact (k x second).trans (h first)

theorem of_keeps {p : Parser α β} (keeps : ∀ s, (outcome p s).2.depth = s.depth) : Balanced p := by
  intro s s' x run
  have kept := keeps s
  rwa [run] at kept

theorem nested {p : Parser α β} (h : Balanced p) : Balanced (nested env p) := by
  intro s s' x run
  obtain ⟨-, s₁, inner, rfl⟩ := outcome_nested_ok run
  have same : s₁.depth = s.depth + 1 := h inner
  change s₁.depth - 1 = s.depth
  omega

variable [Scalar α]

theorem parallel (env : Setting α) : Parallel env env Eq fun p _ => Balanced p where
  bindings := rfl
  strict := rfl
  maxArgs := rfl
  alike same := same ▸ .refl _
  pure _ := of_keeps fun _ => rfl
  exhausted := of_keeps fun _ => rfl
  bind := bind
  bindPeek next := bind (of_keeps fun _ => rfl) fun tok => next tok tok rfl
  bindAdvance next := bind (of_keeps fun _ => rfl) fun tok => next tok tok rfl
  isLate := of_keeps fun _ => rfl
  note _ := of_keeps fun _ => rfl
  abort _ _ _ := of_keeps fun _ => rfl
  fail _ _ _ _ := of_keeps fun s => by
    rw [outcome_fail]
    rfl
  nested := nested
  numberOf _ := of_keeps fun s => by
    unfold Parser.numberOf
    split <;> rfl

end Balanced

def Setting.limited (env : Setting α) (D : Int) : Setting α :=
  { env with config := { env.config with maxDepth := D } }

/-- The second run was stopped because it went too deep. Until then it noticed nothing that the
first did not notice, and the first, if it came to a result, went down, and deeper than `D`. -/
structure CutOff (D : Int) (r r' : Except Stop β × State α) : Prop where
  failed : r'.1 = .error .failed
  last : ∃ before e, e.code = .tooDeep ∧ r'.2.errors = before ++ [e] ∧ before <+: r.2.errors
  deeper : ∀ x, r.1 = .ok x → 0 < r.2.deepest ∧ D < r.2.deepest

/-- The second parser does what the first does as long as this goes no deeper than `D`, and stops
there. -/
structure Limited (D : Int) (p q : Parser α β) : Prop where
  errors : ∀ s, s.errors <+: (outcome p s).2.errors
  deepest : ∀ s, s.deepest ≤ (outcome p s).2.deepest
  follows : ∀ s, outcome q s = outcome p s ∧
      ((outcome p s).2.deepest = s.deepest ∨ ((outcome p s).2.deepest : Int) ≤ D) ∨
    CutOff D (outcome p s) (outcome q s)

namespace Limited

variable {D : Int} {env : Setting α}

theorem bind {p q : Parser α β} {f g : β → Parser α γ} (h : Limited D p q)
    (k : ∀ x, Limited D (f x) (g x)) : Limited D (p >>= f) (q >>= g) where
  errors s := by
    have first := h.errors s
    rw [outcome_bind]
    generalize outcome p s = r at first ⊢
    rcases r with ⟨_ | x, s₁⟩
    · exact first
    · exact first.trans ((k x).errors s₁)
  deepest s := by
    have first := h.deepest s
    rw [outcome_bind]
    generalize outcome p s = r at first ⊢
    rcases r with ⟨_ | x, s₁⟩
    · exact first
    · exact Nat.le_trans first ((k x).deepest s₁)
  follows s := by
    rw [outcome_bind p, outcome_bind q]
    rcases h.follows s with ⟨equal, within⟩ | cut
    · rw [equal]
      generalize outcome p s = r at within ⊢
      rcases r with ⟨_ | x, s₁⟩
      · exact .inl ⟨rfl, within⟩
      · refine ((k x).follows s₁).imp_left fun ⟨equal, within'⟩ => ⟨equal, ?_⟩
        dsimp only at within ⊢
        omega
    · refine .inr ?_
      generalize outcome q s = r' at cut ⊢
      generalize outcome p s = r at cut ⊢
      obtain ⟨failed, ⟨before, e, code, last, more⟩, deeper⟩ := cut
      rcases r' with ⟨stop | _, s₂⟩
      · obtain rfl : stop = .failed := by simpa using failed
        rcases r with ⟨_ | x, s₁⟩
        · exact ⟨rfl, ⟨before, e, code, last, more⟩, by simp⟩
        · refine ⟨rfl, ⟨before, e, code, last, more.trans ((k x).errors s₁)⟩, fun _ _ => ?_⟩
          have below := deeper x rfl
          have grown := (k x).deepest s₁
          dsimp only at below ⊢
          omega
      · simp at failed

theorem of_same {p q : Parser α β} (same : ∀ s, outcome q s = outcome p s)
    (errors : ∀ s, s.errors <+: (outcome p s).2.errors)
    (deepest : ∀ s, (outcome p s).2.deepest = s.deepest) : Limited D p q where
  errors := errors
  deepest s := Nat.le_of_eq (deepest s).symm
  follows s := .inl ⟨same s, .inl (deepest s)⟩

theorem of_quiet {p : Parser α β} (errors : ∀ s, (outcome p s).2.errors = s.errors)
    (deepest : ∀ s, (outcome p s).2.deepest = s.deepest) : Limited D p p :=
  of_same (fun _ => rfl) (fun s => ⟨[], by rw [List.append_nil, errors s]⟩) deepest

theorem abort (tok : Token) (code : ErrorCode) (message : String) :
    Limited D (abort tok code message : Parser α Unit) (Parser.abort tok code message) := by
  refine of_same (fun _ => rfl) (fun s => ?_) fun _ => rfl
  rw [outcome_abort, State.errors_log_error]
  exact List.prefix_append _ _

theorem fail (env : Setting α) (tok : Token) (code : ErrorCode) (message : String)
    (expected : List String) : Limited D (fail env tok code message expected)
      (Parser.fail (env.limited D) tok code message expected) := by
  refine of_same (fun s => ?_) (fun s => ?_) fun s => ?_
  · rw [outcome_fail, outcome_fail]
    rfl
  · rw [outcome_fail, State.errors_log_error]
    exact List.prefix_append _ _
  · rw [outcome_fail]
    rfl

theorem enter (lower : D ≤ env.config.maxDepth) :
    Limited D (enter env) (Parser.enter (env.limited D)) where
  errors s := by
    rw [outcome_enter]
    split
    · exact List.prefix_rfl
    · rw [State.errors_log_error]
      exact List.prefix_append _ _
  deepest s := by
    rw [outcome_enter]
    split
    · exact Nat.le_max_left _ _
    · exact Nat.le_refl _
  follows s := by
    have limit : (env.limited D).config.maxDepth = D := rfl
    rw [outcome_enter, outcome_enter, limit]
    by_cases fits : ((s.depth + 1 : Nat) : Int) ≤ D
    · rw [if_pos fits, if_pos (Int.le_trans fits lower)]
      refine .inl ⟨rfl, ?_⟩
      simp only [State.down]
      omega
    · rw [if_neg fits]
      refine .inr ⟨rfl, ⟨s.errors, tooDeep (env.limited D) s, rfl, s.errors_log_error _, ?_⟩, ?_⟩
      · split
        · exact List.prefix_rfl
        · rw [State.errors_log_error]
          exact List.prefix_append _ _
      · intro x ok
        split_ifs at ok ⊢
        · simp only [State.down]
          omega

theorem leave : Limited D (leave : Parser α Unit) Parser.leave :=
  of_quiet (fun _ => rfl) fun _ => rfl

theorem pure (x : β) : Limited D (pure x : Parser α β) (Pure.pure x) :=
  of_quiet (fun _ => rfl) fun _ => rfl

theorem nested (lower : D ≤ env.config.maxDepth) {p q : Parser α β} (h : Limited D p q) :
    Limited D (nested env p) (Parser.nested (env.limited D) q) :=
  (enter lower).bind fun _ => h.bind fun x => leave.bind fun _ => pure x

variable [Scalar α]

theorem parallel (lower : D ≤ env.config.maxDepth) :
    Parallel env (env.limited D) Eq (Limited D) where
  bindings := rfl
  strict := rfl
  maxArgs := rfl
  alike same := same ▸ .refl _
  pure := pure
  exhausted := of_quiet (fun _ => rfl) fun _ => rfl
  bind := bind
  bindPeek next := bind (p := peek env) (of_quiet (fun _ => rfl) fun _ => rfl)
    fun tok => next tok tok rfl
  bindAdvance next := bind (p := advance env) (of_quiet (fun _ => rfl) fun _ => rfl)
    fun tok => next tok tok rfl
  isLate := of_quiet (p := isLate env) (fun _ => rfl) fun _ => rfl
  note quiet := of_quiet (fun s => s.errors_log quiet) fun _ => rfl
  abort code message same := same ▸ abort _ code message
  fail code message expected same := same ▸ fail env _ code message expected
  nested := nested lower
  numberOf same := same ▸ by
    unfold Parser.numberOf
    split
    · exact pure _
    · exact of_quiet (fun _ => rfl) fun _ => rfl

end Limited

theorem binary_balanced [Scalar α] (env : Setting α) (fuel power : Nat) :
    Balanced (binary env fuel power) :=
  ((Balanced.parallel env).related fuel).binary power

end Parser

namespace ParseRun

variable {α : Type} [Scalar α] {config : TimedConfig} {bindings : Option (Bindings α)}
  {strict : Bool} {tokens : List Token} {final : Token} {D : Int} {t : Expr α}

/-- What was read without errors is read again under a lower limit, or stops at it. -/
theorem ofTokens_limited (lower : D ≤ config.maxDepth) {r low : ParseRun α}
    (high : ofTokens config bindings strict tokens final = r)
    (limited : ofTokens { config with maxDepth := D } bindings strict tokens final = low)
    (tree : r.tree = .ok t) (clean : r.errors = []) :
    low = r ∧ (r.deepest = 0 ∨ (r.deepest : Int) ≤ D) ∨
      (0 < r.deepest ∧ D < r.deepest) ∧ low.tree = .error .failed ∧
        ∃ e, e.code = .tooDeep ∧ low.errors = [e] := by
  let env : Parser.Setting α := ⟨config, bindings, strict, final⟩
  have below : D ≤ env.config.maxDepth := lower
  have follows := ((Parser.Limited.parallel below).whole (8 * (tokens.length + 2))).follows
    ⟨tokens, 0, 0, #[], 0⟩
  rw [ofTokens_eq] at high limited
  subst high limited
  rw [errors_ofOutcome] at clean ⊢
  rcases follows with ⟨equal, within⟩ | ⟨failed, ⟨before, e, code, last, more⟩, deeper⟩
  · exact .inl ⟨congrArg ofOutcome equal, within⟩
  · obtain rfl : before = [] := List.prefix_nil.1 (clean ▸ more)
    exact .inr ⟨deeper t tree, failed, e, code, last⟩

end ParseRun

namespace Source

variable {α : Type} [Scalar α] [NumberText α]

/-- A source that is read without errors nests so deep as its phrase does, in which neighbours
count by the deepest of them. A lower limit makes no difference to it, unless it is passed, and then
that is the only error, in both modes. In every setting what was read leaves the depth as it was. -/
theorem parse_maxDepth {source : String} {bindings : Option (Bindings α)} {config : TimedConfig}
    {D : Int} (lower : D ≤ config.maxDepth) {t : Expr α} {s : Engine}
    (read : (parse source bindings config s).1 = .ok t) (s' : Engine) :
    ∃ m : Nat, (readTree source bindings config false s).1.deepest = m ∧
      Phrase ⟨bindings, false, config.maxArgs⟩ .or m (Token.lexemes source) t ∧
      (m = 0 ∨ (m : Int) ≤ D →
        (parse source bindings { config with maxDepth := D } s').1 = .ok t) ∧
      (¬ (m = 0 ∨ (m : Int) ≤ D) → ∃ e, e.code = .tooDeep ∧
        (readTree source bindings { config with maxDepth := D } false s').1.errors = [e] ∧
        (parse source bindings { config with maxDepth := D } s').1 = .error (.parse e)) ∧
      ∀ (env : Parser.Setting α) (fuel power : Nat) (before after : Parser.State α) (e : Expr α),
        Parser.outcome (Parser.binary env fuel power) before = (.ok e, after) →
          after.depth = before.depth := by
  have accepted := refusal?_of_parse read
  have admitted : refusal? (some source) { config with maxDepth := D } = none := accepted
  rw [parse_value accepted, verdict_eq_ok_iff] at read
  obtain ⟨tree, clean⟩ := read
  have inner : ∀ tok ∈ Token.lexemes source, tok.kind ≠ .eof :=
    fun tok mem => Token.kind_of_mem_ofChars mem
  have last : (Token.endAt source.length).kind = .eof := rfl
  obtain ⟨m, deepest, phrase, -⟩ := ParseRun.phrase_of_ofTokens inner last tree clean
  have low := ParseRun.ofTokens_limited lower rfl rfl tree clean
  rw [deepest] at low
  rw [readTree_value, readTree_value, parse_value admitted]
  refine ⟨m, deepest, phrase, fun shallow => ?_, fun deep => ?_,
    fun env fuel power _ _ _ => Parser.binary_balanced env fuel power⟩
  · rcases low with ⟨same, -⟩ | ⟨deeper, -⟩
    · rw [same]
      exact verdict_eq_ok_iff.2 ⟨tree, clean⟩
    · omega
  · rcases low with ⟨-, shallow⟩ | ⟨-, failed, e, code, one⟩
    · exact absurd shallow deep
    · refine ⟨e, code, one, ?_⟩
      rw [verdict, failed, one]

theorem parse_maxDepth_brackets :
    let low : TimedConfig := { maxDepth := 1 }
    ((1 : Int) ≤ ({} : TimedConfig).maxDepth ∧
        (parse "((X))" none {} .start).1 = .ok (.var "X" : Expr Float)) ∧
      ∃ e, e.code = .tooDeep ∧
        (readTree (α := Float) "((X))" none low false .start).1.errors = [e] ∧
        (parse (α := Float) "((X))" none low .start).1 = .error (.parse e) := by
  have lower : (1 : Int) ≤ ({} : TimedConfig).maxDepth := by decide
  have read : (parse "((X))" none {} .start).1 = .ok (.var "X" : Expr Float) := by
    with_unfolding_all rfl
  have two : (readTree (α := Float) "((X))" none {} false .start).1.deepest = 2 := by
    with_unfolding_all rfl
  obtain ⟨m, deepest, -, -, deep, -⟩ := parse_maxDepth lower read .start
  rw [two] at deepest
  exact ⟨⟨lower, read⟩, deep (by omega)⟩

/-- Below zero a limit is no lower than zero: a source that does not nest passes it and is read. -/
theorem parse_maxDepth_negative :
    (-1 : Int) ≤ ({} : TimedConfig).maxDepth ∧
      (parse "X" none {} .start).1 = .ok (.var "X" : Expr Float) ∧
      ¬ (((readTree (α := Float) "X" none {} false .start).1.deepest : Int) ≤ -1) ∧
      (parse "X" none { maxDepth := -1 } .start).1 = .ok (.var "X" : Expr Float) := by
  have depth : (readTree (α := Float) "X" none {} false .start).1.deepest = 0 := by
    with_unfolding_all rfl
  refine ⟨by decide, by with_unfolding_all rfl, ?_, by with_unfolding_all rfl⟩
  rw [depth]
  decide

end Source

end DerivativeEngine
