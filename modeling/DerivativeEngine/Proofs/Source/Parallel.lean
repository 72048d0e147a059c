import DerivativeEngine.Proofs.Source.Steps

/-! Two parsers side by side. Some property of what two parsers do may be known of the small steps,
and be kept by running one part after another; then it is known of the whole parser. The two may
differ in their settings and in the tokens they read, as long as the tokens are alike to them. The
functions of the parser are taken apart here, as they are written and with one induction on the
fuel, for every such property at once. -/

namespace DerivativeEngine

namespace Parser

structure Alike (tok tok' : Token) : Prop where
  kind : tok'.kind = tok.kind
  start : tok'.start = tok.start
  name : Text.upper tok'.text = Text.upper tok.text
  complaint : tok.kind = .error → tok'.text = tok.text

theorem Alike.refl (tok : Token) : Alike tok tok := ⟨rfl, rfl, rfl, fun _ => rfl⟩

variable {α : Type} [Scalar α]

/-- The property `R` of two runs, in settings that ask for the same, is known of the small steps
and kept by putting parts together. Where the runs come to a token, the two tokens are related by
`T`, which makes them alike. -/
structure Parallel (env env' : Setting α) (T : Token → Token → Prop)
    (R : ∀ {β : Type}, Parser α β → Parser α β → Prop) : Prop where
  bindings : env'.bindings = env.bindings
  strict : env'.strict = env.strict
  maxArgs : env'.config.maxArgs = env.config.maxArgs
  alike : ∀ {tok tok' : Token}, T tok tok' → Alike tok tok'
  pure : ∀ {β : Type} (x : β), R (Pure.pure x) (Pure.pure x)
  exhausted : ∀ {β : Type}, R (throw .exhausted : Parser α β) (throw .exhausted)
  bind : ∀ {β γ : Type} {p q : Parser α β} {f g : β → Parser α γ},
    R p q → (∀ x, R (f x) (g x)) → R (p >>= f) (q >>= g)
  bindPeek : ∀ {β : Type} {f g : Token → Parser α β},
    (∀ tok tok', T tok tok' → R (f tok) (g tok')) → R (peek env >>= f) (peek env' >>= g)
  bindAdvance : ∀ {β : Type} {f g : Token → Parser α β},
    (∀ tok tok', T tok tok' → R (f tok) (g tok')) → R (advance env >>= f) (advance env' >>= g)
  isLate : R (isLate env) (Parser.isLate env')
  note : ∀ {e : Event α}, (∀ e', e ≠ .error e') → R (note e) (Parser.note e)
  abort : ∀ {tok tok' : Token} (code : ErrorCode) (message : String), T tok tok' →
    R (abort tok code message) (Parser.abort tok' code message)
  fail : ∀ {tok tok' : Token} (code : ErrorCode) (message : String) (expected : List String),
    T tok tok' →
      R (fail env tok code message expected) (Parser.fail env' tok' code message expected)
  nested : ∀ {β : Type} {p q : Parser α β}, R p q → R (nested env p) (Parser.nested env' q)
  numberOf : ∀ {tok tok' : Token}, T tok tok' → R (numberOf tok) (Parser.numberOf tok')

namespace Parallel

variable {env env' : Setting α} {T : Token → Token → Prop}
  {R : ∀ {β : Type}, Parser α β → Parser α β → Prop}

omit [Scalar α] in
theorem branch {β : Type} {c : Prop} [Decidable c] {p q p' q' : Parser α β} (yes : R p q)
    (no : R p' q') : R (if c then p else p') (if c then q else q') := by
  split
  · exact yes
  · exact no

variable (h : Parallel env env' T R)

include h

theorem accept (kind : TokenKind) : R (accept env kind) (Parser.accept env' kind) := by
  refine h.bindPeek fun tok tok' same => ?_
  rw [(h.alike same).kind]
  exact branch (h.bindAdvance fun _ _ _ => h.pure _) (h.pure _)

theorem checkTime : R (checkTime env) (Parser.checkTime env') := by
  exact h.bind h.isLate fun _ => branch (h.bindPeek fun _ _ same => h.abort _ _ same) (h.pure _)

theorem finishCall {tok tok' : Token} (same : T tok tok') (name : String)
    (args : List (Expr α)) :
    R (finishCall env tok name args) (Parser.finishCall env' tok' name args) := by
  unfold Parser.finishCall
  rw [h.strict, (h.alike same).start]
  refine h.bind (h.note (by simp)) fun _ => ?_
  dsimp only
  split
  · exact h.bind (h.fail _ _ _ same) fun _ => h.pure _
  · split
    · exact h.bind (h.note (by simp)) fun _ => h.pure _
    · exact h.pure _

theorem unexpected {tok tok' : Token} (same : T tok tok') :
    R (unexpected env tok) (Parser.unexpected env' tok') := by
  have skip : R (advance env >>= fun _ => (Pure.pure (.num 0) : Parser α (Expr α)))
      (advance env' >>= fun _ => Pure.pure (.num 0)) := h.bindAdvance fun _ _ _ => h.pure _
  have complaint := (h.alike same).complaint
  unfold Parser.unexpected
  rw [(h.alike same).kind]
  split
  · next error =>
    rw [complaint error]
    exact h.bind (h.fail _ _ _ same) fun _ => skip
  all_goals exact h.bind (h.fail _ _ _ same) fun _ => skip

end Parallel

open Parallel (branch)

structure Related (R : ∀ {β : Type}, Parser α β → Parser α β → Prop) (env env' : Setting α)
    (n : Nat) : Prop where
  binary : ∀ p, R (binary env n p) (Parser.binary env' n p)
  operators : ∀ p e compared combined, R (operators env n p e compared combined)
    (Parser.operators env' n p e compared combined)
  unary : R (unary env n) (Parser.unary env' n)
  primary : R (primary env n) (Parser.primary env' n)
  identifier : R (identifier env n) (Parser.identifier env' n)
  arguments : ∀ count, R (arguments env n count) (Parser.arguments env' n count)

namespace Related

variable {env env' : Setting α} {T : Token → Token → Prop}
  {R : ∀ {β : Type}, Parser α β → Parser α β → Prop} {n : Nat} (h : Parallel env env' T R)
  (ih : Related R env env' n)

include h ih

theorem binary_succ (p : Nat) : R (Parser.binary env (n + 1) p) (Parser.binary env' (n + 1) p) := by
  rw [Parser.binary, Parser.binary]
  exact h.bind h.checkTime fun _ => h.bind ih.unary fun e => ih.operators p e _ _

theorem operators_succ (p : Nat) (e : Expr α) (compared combined : Bool) :
    R (Parser.operators env (n + 1) p e compared combined)
      (Parser.operators env' (n + 1) p e compared combined) := by
  rw [Parser.operators, Parser.operators]
  refine h.bindPeek fun tok tok' same => ?_
  rw [(h.alike same).kind]
  split
  · exact h.pure e
  · refine branch (h.pure e) (h.bind h.checkTime fun _ => h.bindAdvance fun _ _ _ => branch ?_ ?_)
    · exact h.bind (h.nested (ih.binary _)) fun _ => ih.operators _ _ _ _
    · exact h.bind (ih.binary _) fun _ => ih.operators _ _ _ _

theorem unary_succ : R (Parser.unary env (n + 1)) (Parser.unary env' (n + 1)) := by
  rw [Parser.unary, Parser.unary]
  refine h.bindPeek fun tok tok' same => ?_
  rw [(h.alike same).kind]
  split
  · refine h.bindAdvance fun _ _ _ => h.bindPeek fun next next' same' => ?_
    rw [(h.alike same').kind]
    refine branch ?_ (h.bind (h.nested ih.unary) fun _ => h.pure _)
    exact h.bindAdvance fun _ _ number => h.bind (h.numberOf number) fun _ => h.pure _
  · exact h.bindAdvance fun _ _ _ => h.bind (h.nested ih.unary) fun _ => h.pure _
  · exact ih.primary

theorem primary_succ : R (Parser.primary env (n + 1)) (Parser.primary env' (n + 1)) := by
  rw [Parser.primary, Parser.primary]
  refine h.bindPeek fun tok tok' same => ?_
  rw [(h.alike same).kind]
  dsimp only
  split
  · exact h.bindAdvance fun _ _ number => h.bind (h.numberOf number) fun _ => h.pure _
  · exact ih.identifier
  · refine h.bindAdvance fun _ _ _ => h.bind (h.nested (ih.binary 0)) fun e =>
      h.bind (h.accept _) fun _ => branch (h.pure e) ?_
    exact h.bindPeek fun _ _ here => h.bind (h.fail _ _ _ here) fun _ => h.pure e
  · exact h.unexpected same

theorem identifier_succ : R (Parser.identifier env (n + 1)) (Parser.identifier env' (n + 1)) := by
  rw [Parser.identifier, Parser.identifier]
  refine h.bindAdvance fun tok tok' same => ?_
  rw [(h.alike same).name, h.bindings, h.strict]
  dsimp only
  split
  · exact h.pure _
  · split
    · exact h.bind (h.note (by simp)) fun _ => h.pure _
    · refine h.bind (h.accept _) fun _ => branch ?_ (branch ?_ (h.pure _))
      · refine h.bind (h.nested ?_) fun args => h.finishCall same _ args
        exact h.bind (h.accept _) fun _ => branch (h.pure _) (ih.arguments 0)
      · exact h.bind (h.fail _ _ _ same) fun _ => h.pure _

theorem arguments_succ (count : Nat) :
    R (Parser.arguments env (n + 1) count) (Parser.arguments env' (n + 1) count) := by
  rw [Parser.arguments, Parser.arguments, h.maxArgs]
  refine branch ?_ ?_
  · exact h.bindPeek fun _ _ here => h.bind (h.fail _ _ _ here) fun _ => h.pure _
  · refine h.bind (ih.binary 0) fun arg => h.bind (h.accept _) fun _ => branch ?_ ?_
    · exact h.bind (ih.arguments _) fun _ => h.pure _
    · refine h.bind (h.accept _) fun _ => branch (h.pure _) ?_
      exact h.bindPeek fun _ _ here => h.bind (h.fail _ _ _ here) fun _ => h.pure _

end Related

namespace Parallel

variable {env env' : Setting α} {T : Token → Token → Prop}
  {R : ∀ {β : Type}, Parser α β → Parser α β → Prop} (h : Parallel env env' T R)

include h

theorem related (n : Nat) : Related R env env' n := by
  induction n with
  | zero =>
    constructor <;> intros <;>
      simp only [binary, operators, unary, primary, identifier, arguments] <;>
      exact h.exhausted
  | succ n ih =>
    exact ⟨ih.binary_succ h, ih.operators_succ h, ih.unary_succ h, ih.primary_succ h,
      ih.identifier_succ h, ih.arguments_succ h⟩

theorem whole (n : Nat) : R (whole env n) (Parser.whole env' n) := by
  refine h.bind ((h.related n).binary 0) fun e => h.bindPeek fun tok tok' same => ?_
  have complaint := (h.alike same).complaint
  rw [(h.alike same).kind]
  by_cases error : (tok.kind == .error) = true
  · rw [if_pos error, if_pos error, complaint (beq_iff_eq.1 error)]
    exact h.bind (h.fail _ _ _ same) fun _ => h.pure e
  · rw [if_neg error, if_neg error]
    exact branch (h.bind (h.fail _ _ _ same) fun _ => h.pure e) (h.pure e)

end Parallel

/-- Two clocks that find the same at every check make no difference to the parser. -/
theorem parallel_clock (env : Setting α) {clock : Nat → Bool}
    (same : ∀ check, ({ env.config with clock } : TimedConfig).late check =
      env.config.late check) :
    Parallel env { env with config := { env.config with clock } } Eq fun p q => q = p where
  bindings := rfl
  strict := rfl
  maxArgs := rfl
  alike same := same ▸ .refl _
  pure _ := rfl
  exhausted := rfl
  bind equal next := by
    obtain rfl := equal
    exact congrArg _ (funext next)
  bindPeek next := congrArg _ (funext fun tok => next tok tok rfl)
  bindAdvance next := congrArg _ (funext fun tok => next tok tok rfl)
  isLate := by
    unfold Parser.isLate
    rw [funext same]
  note _ := rfl
  abort _ _ same := same ▸ rfl
  fail _ _ _ same := same ▸ rfl
  nested equal := by
    obtain rfl := equal
    rfl
  numberOf same := same ▸ rfl

end Parser

theorem ParseRun.ofTokens_clock {α : Type} [Scalar α] {config : TimedConfig}
    (untimed : ¬ 0.0 < config.timeoutMs) (clock : Nat → Bool) (bindings : Option (Bindings α))
    (strict : Bool) (tokens : List Token) (final : Token) :
    ofTokens { config with clock } bindings strict tokens final =
      ofTokens config bindings strict tokens final := by
  let env : Parser.Setting α := ⟨config, bindings, strict, final⟩
  have late : ∀ check, ({ env.config with clock } : TimedConfig).late check =
      env.config.late check := fun check =>
    (TimedConfig.inTime_of_untimed (c := { config with clock }) untimed check).trans
      (TimedConfig.inTime_of_untimed untimed check).symm
  have same := (Parser.parallel_clock env late).whole (8 * (tokens.length + 2))
  rw [ofTokens_eq, ofTokens_eq]
  exact congrArg (fun p => ofOutcome (Parser.outcome p ⟨tokens, 0, 0, #[], 0⟩)) same

end DerivativeEngine
