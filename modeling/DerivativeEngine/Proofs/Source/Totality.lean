import DerivativeEngine.Proofs.Source.Acceptance
import DerivativeEngine.Proofs.Source.Literals

/-! Every source has an answer. A run of the parser never gains tokens, and each of its calls but
the one into an operand comes after a token that was taken, so eight steps for each token are fuel
enough. What is left to stop it is an error it has noticed, or a number token without a value. Each
token that is taken pays for two errors in the same way, and at most two more are not paid for: the
one for an operand that is missing at the end, and one that stops the parse. -/

namespace DerivativeEngine

namespace Parser

variable {α β γ : Type} [Scalar α]

variable (α) in
def Unreadable (tokens : List Token) : Prop :=
  ∃ tok ∈ tokens, tok.kind = .number ∧ (tok.numberValue? : Option α) = none

def Settled (tokens : List Token) : Except Stop β × State α → Prop
  | (.ok _, s) => s.rest <:+ tokens
  | (.error .failed, _) => True
  | (.error .numberTooLarge, _) => Unreadable α tokens
  | (.error .exhausted, _) => False

theorem Settled.of_suffix {rest tokens : List Token} {r : Except Stop β × State α}
    (h : Settled rest r) (less : rest <:+ tokens) : Settled tokens r := by
  rcases r with ⟨(_ | _ | _) | x, s⟩
  · trivial
  · obtain ⟨tok, mem, large⟩ := h
    exact ⟨tok, less.subset mem, large⟩
  · exact h
  · exact List.IsSuffix.trans h less

/-- From the state, the run comes to its end. -/
def Ends (p : Parser α β) (s : State α) : Prop := Settled s.rest (outcome p s)

namespace Ends

variable {env : Setting α} {s : State α}

theorem bind {p : Parser α β} {f : β → Parser α γ} (h : Ends p s)
    (next : ∀ x s', s'.rest <:+ s.rest → Ends (f x) s') : Ends (p >>= f) s := by
  unfold Ends at h ⊢
  rw [outcome_bind]
  generalize outcome p s = r at h ⊢
  rcases r with ⟨(_ | _ | _) | x, s₁⟩
  · trivial
  · exact h
  · exact h
  · exact (next x s₁ h).of_suffix h

theorem pure (x : β) : Ends (pure x : Parser α β) s := List.suffix_rfl

theorem note (e : Event α) : Ends (note e) s := List.suffix_rfl

theorem advance (env : Setting α) : Ends (advance env) s := List.tail_suffix _

theorem failed {p : Parser α β} (h : (outcome p s).1 = .error .failed) : Ends p s := by
  unfold Ends
  generalize outcome p s = r at h ⊢
  rcases r with ⟨stop, s₁⟩
  obtain rfl : stop = .error .failed := h
  trivial

theorem bind_peek {f : Token → Parser α γ} (h : Ends (f (s.head env)) s) :
    Ends (peek env >>= f) s := h

theorem bind_advance {f : Token → Parser α γ} (h : Ends (f (s.head env)) s.drop) :
    Ends (Parser.advance env >>= f) s :=
  Settled.of_suffix h (List.tail_suffix _)

theorem bind_accept {kind : TokenKind} {f : Bool → Parser α γ}
    (yes : (s.head env).kind = kind → Ends (f true) s.drop) (no : Ends (f false) s) :
    Ends (accept env kind >>= f) s := by
  unfold Ends
  by_cases h : (s.head env).kind = kind
  · rw [outcome_bind_of_ok (outcome_accept_of_eq h)]
    exact Settled.of_suffix (yes h) (List.tail_suffix _)
  · rw [outcome_bind_of_ok (outcome_accept_of_ne h)]
    exact no

theorem fail (env : Setting α) (tok : Token) (code : ErrorCode) (message : String)
    (expected : List String) : Ends (fail env tok code message expected) s := by
  unfold Ends
  rw [outcome_fail]
  split
  · exact List.suffix_rfl
  · trivial

theorem bind_checkTime {f : Unit → Parser α γ} (h : Ends (f ()) s.checked) :
    Ends (checkTime env >>= f) s := by
  unfold Ends
  rw [outcome_bind, outcome_checkTime]
  cases env.config.late s.checks with
  | false => exact h
  | true => trivial

theorem bind_nested {p : Parser α β} {f : β → Parser α γ} (h : Ends p s.down)
    (next : ∀ x s', s'.rest <:+ s.rest → Ends (f x) s') : Ends (nested env p >>= f) s := by
  refine bind ?_ next
  by_cases deep : ((s.depth + 1 : Nat) : Int) ≤ env.config.maxDepth
  · have inner : Ends (p >>= fun x => leave >>= fun _ => Pure.pure x) s.down :=
      h.bind fun x _ _ => bind (f := fun _ => Pure.pure x) List.suffix_rfl fun _ _ _ => pure x
    unfold Ends at inner ⊢
    rwa [nested, outcome_bind, outcome_enter, if_pos deep]
  · refine failed ?_
    rw [nested, outcome_bind, outcome_enter, if_neg deep]

end Ends

omit [Scalar α] in
theorem State.length_drop {env : Setting α} {s : State α} (final : env.final.kind = .eof)
    {kind : TokenKind} (h : (s.head env).kind = kind) (other : kind ≠ .eof) :
    s.drop.rest.length + 1 = s.rest.length := by
  conv => rhs; rw [s.rest_of_head final h other]
  rfl

variable {env : Setting α} {s : State α}

theorem Ends.numberOf (final : env.final.kind = .eof) (number : (s.head env).kind = .number) :
    Ends (Parser.advance env >>= fun tok => Parser.numberOf tok) s := by
  have here : s.head env ∈ s.rest := by
    rw [s.rest_of_head final number (by decide)]
    exact List.mem_cons_self
  unfold Ends
  rw [outcome_bind_of_ok (outcome_advance env s)]
  unfold Parser.numberOf
  split
  · exact List.tail_suffix _
  · next large => exact ⟨s.head env, here, number, large⟩

theorem Ends.finishCall (env : Setting α) (nameTok : Token) (name : String)
    (args : List (Expr α)) : Ends (finishCall env nameTok name args) s := by
  unfold Parser.finishCall
  refine (note _).bind fun _ s₁ _ => ?_
  dsimp only
  split
  · exact (fail env _ _ _ _).bind fun _ _ _ => pure _
  · split
    · exact (note _).bind fun _ _ _ => pure _
    · exact pure _

theorem Ends.unexpected (env : Setting α) (tok : Token) : Ends (unexpected env tok) s := by
  unfold Parser.unexpected
  split <;> exact (fail env _ _ _ _).bind fun _ _ _ => (advance env).bind fun _ _ _ => pure _

structure Ending (env : Setting α) (n : Nat) : Prop where
  binary : ∀ {s : State α} (p : Nat), 8 * s.rest.length + 4 ≤ n →
    Ends (binary env n p) s
  operators : ∀ {s : State α} (p : Nat) (left : Expr α) (compared combined : Bool),
    8 * s.rest.length + 1 ≤ n → Ends (operators env n p left compared combined) s
  unary : ∀ {s : State α}, 8 * s.rest.length + 3 ≤ n → Ends (unary env n) s
  primary : ∀ {s : State α}, 8 * s.rest.length + 2 ≤ n →
    Ends (primary env n) s
  identifier : ∀ {s : State α}, 8 * s.rest.length + 1 ≤ n →
    Ends (identifier env n) s
  arguments : ∀ {s : State α} (count : Nat), 8 * s.rest.length + 5 ≤ n →
    Ends (arguments env n count) s

namespace Ending

variable {n : Nat}

theorem binary_succ (ih : Ending env n) (p : Nat)
    (fuel : 8 * s.rest.length + 4 ≤ n + 1) : Ends (Parser.binary env (n + 1) p) s := by
  rw [Parser.binary]
  have operand : Ends (Parser.unary env n) s.checked := ih.unary (Nat.le_of_succ_le_succ fuel)
  refine Ends.bind_checkTime (operand.bind fun left s₁ less => ?_)
  have short : s₁.rest.length ≤ s.rest.length := less.length_le
  exact ih.operators p left false false (by omega)

theorem operators_succ (final : env.final.kind = .eof) (ih : Ending env n) (p : Nat)
    (left : Expr α) (compared combined : Bool)
    (fuel : 8 * s.rest.length + 1 ≤ n + 1) :
    Ends (Parser.operators env (n + 1) p left compared combined) s := by
  rw [Parser.operators]
  refine Ends.bind_peek ?_
  split
  · exact .pure _
  · next op toLeft toRight operator =>
    have inner : (s.head env).kind ≠ .eof := by
      intro ended
      rw [ended] at operator
      simp [infix?] at operator
    have one := State.length_drop final rfl inner
    have fewer : 8 * s.checked.drop.rest.length + 4 ≤ n := by
      change 8 * s.drop.rest.length + 4 ≤ n
      omega
    have rest : ∀ right : Expr α, ∀ s' : State α, s'.rest <:+ s.checked.drop.rest →
        Ends (Parser.operators env n p (.bin op left right) (compared || op.isComparison)
          (combined || op.isLogical)) s' := by
      intro right s' less
      have short := less.length_le
      exact ih.operators p _ _ _ (by omega)
    dsimp only
    split
    · exact .pure _
    · refine Ends.bind_checkTime (Ends.bind_advance ?_)
      split
      · exact Ends.bind_nested (ih.binary toRight fewer) rest
      · exact (ih.binary toRight fewer).bind rest

theorem unary_succ (final : env.final.kind = .eof) (ih : Ending env n)
    (fuel : 8 * s.rest.length + 3 ≤ n + 1) :
    Ends (Parser.unary env (n + 1)) s := by
  rw [Parser.unary]
  refine Ends.bind_peek ?_
  have operand : s.drop.rest.length + 1 = s.rest.length → Ends (Parser.unary env n) s.drop.down :=
    fun one => ih.unary (by change 8 * s.drop.rest.length + 3 ≤ n; omega)
  split
  · next minus =>
    refine Ends.bind_advance (Ends.bind_peek ?_)
    split
    · next number =>
      exact (Ends.numberOf final (by simpa using number)).bind fun _ _ _ => .pure _
    · exact Ends.bind_nested (operand (State.length_drop final minus (by decide)))
        fun _ _ _ => .pure _
  · next bang =>
    exact Ends.bind_advance (Ends.bind_nested (operand (State.length_drop final bang (by decide)))
      fun _ _ _ => .pure _)
  · exact ih.primary (by omega)

theorem primary_succ (final : env.final.kind = .eof) (ih : Ending env n)
    (fuel : 8 * s.rest.length + 2 ≤ n + 1) :
    Ends (Parser.primary env (n + 1)) s := by
  rw [Parser.primary]
  refine Ends.bind_peek ?_
  dsimp only
  split
  · next number =>
    exact (Ends.numberOf final number).bind fun _ _ _ => .pure _
  · exact ih.identifier (by omega)
  · next opening =>
    have one := State.length_drop final opening (by decide)
    have inside : Ends (Parser.binary env n 0) s.drop.down :=
      ih.binary 0 (by change 8 * s.drop.rest.length + 4 ≤ n; omega)
    refine Ends.bind_advance (Ends.bind_nested inside fun inner s₁ less => ?_)
    refine Ends.bind_accept (fun _ => .pure _) ?_
    exact Ends.bind_peek ((Ends.fail env _ _ _ _).bind fun _ _ _ => .pure _)
  · exact .unexpected env _

theorem identifier_succ (final : env.final.kind = .eof) (ih : Ending env n)
    (fuel : 8 * s.rest.length + 1 ≤ n + 1) :
    Ends (Parser.identifier env (n + 1)) s := by
  rw [Parser.identifier]
  refine Ends.bind_advance ?_
  dsimp only
  split
  · exact .pure _
  · split
    · exact (Ends.note _).bind fun _ _ _ => .pure _
    · refine Ends.bind_accept (fun opening => ?_) ?_
      · have one := State.length_drop final opening (by decide)
        have less : s.drop.rest.length ≤ s.rest.length := (List.tail_suffix _).length_le
        refine Ends.bind_nested ?_ fun args s₁ _ => .finishCall env _ _ _
        refine Ends.bind_accept (fun _ => .pure _) ?_
        refine ih.arguments 0 ?_
        change 8 * s.drop.drop.rest.length + 5 ≤ n
        omega
      · rw [if_neg Bool.false_ne_true]
        split
        · exact (Ends.fail env _ _ _ _).bind fun _ _ _ => .pure _
        · exact .pure _

theorem arguments_succ (final : env.final.kind = .eof) (ih : Ending env n) (count : Nat)
    (fuel : 8 * s.rest.length + 5 ≤ n + 1) :
    Ends (Parser.arguments env (n + 1) count) s := by
  rw [Parser.arguments]
  split
  · exact Ends.bind_peek ((Ends.fail env _ _ _ _).bind fun _ _ _ => .pure _)
  · refine (ih.binary 0 (by omega)).bind fun arg s₁ less => ?_
    have short := less.length_le
    refine Ends.bind_accept (fun comma => ?_) ?_
    · have one := State.length_drop final comma (by decide)
      exact (ih.arguments (count + 1) (by omega)).bind
        fun _ _ _ => .pure _
    · refine Ends.bind_accept (fun _ => .pure _) ?_
      exact Ends.bind_peek ((Ends.fail env _ _ _ _).bind fun _ _ _ => .pure _)

end Ending

theorem ending (final : env.final.kind = .eof) (n : Nat) : Ending env n := by
  induction n with
  | zero => constructor <;> intros <;> omega
  | succ n ih =>
    exact ⟨fun p => ih.binary_succ p, fun p left compared combined =>
      ih.operators_succ final p left compared combined, ih.unary_succ final, ih.primary_succ final,
      ih.identifier_succ final, fun count => ih.arguments_succ final count⟩

theorem whole_ends (final : env.final.kind = .eof) {n : Nat}
    (fuel : 8 * s.rest.length + 4 ≤ n) : Ends (whole env n) s := by
  refine ((ending final n).binary 0 fuel).bind fun e s₁ _ => Ends.bind_peek ?_
  dsimp only
  split
  · exact (Ends.fail env _ _ _ _).bind fun _ _ _ => .pure _
  · split
    · exact (Ends.fail env _ _ _ _).bind fun _ _ _ => .pure _
    · exact .pure _

theorem errors_of_whole_failed {n : Nat} (failed : (outcome (whole env n) s).1 = .error .failed) :
    (outcome (whole env n) s).2.errors ≠ [] := by
  have recovers := whole_recovers env n
  have stops := recovers.stops s
  rcases recovers.follows s with equal | ⟨stopped, more⟩
  · rw [← equal, OneError, failed] at stops
    obtain ⟨e, one⟩ := stops
    simp [one]
  · rw [OneError, stopped] at stops
    obtain ⟨e, one⟩ := stops
    intro none
    rw [one, none] at more
    simp at more

end Parser

namespace ParseRun

variable {α : Type} [Scalar α] {config : TimedConfig} {bindings : Option (Bindings α)}
  {strict : Bool} {tokens : List Token} {final : Token}

theorem ofTokens_ends (last : final.kind = .eof) :
    (∃ t, (ofTokens config bindings strict tokens final).tree = .ok t) ∨
      (ofTokens config bindings strict tokens final).tree = .error .failed ∧
        (ofTokens config bindings strict tokens final).errors ≠ [] ∨
      (ofTokens config bindings strict tokens final).tree = .error .numberTooLarge ∧
        Parser.Unreadable α tokens := by
  let env : Parser.Setting α := ⟨config, bindings, strict, final⟩
  let s : Parser.State α := ⟨tokens, 0, 0, #[], 0⟩
  let n := 8 * (tokens.length + 2)
  have ends : Parser.Ends (Parser.whole env n) s :=
    @Parser.whole_ends α _ env s last n (by change 8 * tokens.length + 4 ≤ n; omega)
  have noticed := @Parser.errors_of_whole_failed α _ env s n
  change (∃ t, (Parser.outcome (Parser.whole env n) s).1 = .ok t) ∨
    (Parser.outcome (Parser.whole env n) s).1 = .error .failed ∧
      (Parser.outcome (Parser.whole env n) s).2.errors ≠ [] ∨
    (Parser.outcome (Parser.whole env n) s).1 = .error .numberTooLarge ∧ _
  unfold Parser.Ends at ends
  generalize Parser.outcome (Parser.whole env n) s = r at ends noticed ⊢
  rcases r with ⟨(_ | _ | _) | t, s'⟩
  · exact .inr (.inl ⟨rfl, noticed rfl⟩)
  · exact .inr (.inr ⟨rfl, ends⟩)
  · exact ends.elim
  · exact .inl ⟨t, rfl⟩

end ParseRun

namespace Parser

variable {α β γ : Type}

def State.budget (s : State α) : Nat := s.errors.length + 2 * s.rest.length

namespace State

theorem budget_log_error (s : State α) (e : ParseError) :
    (s.log (.error e)).budget = s.budget + 1 := by
  have rest : (s.log (.error e)).rest = s.rest := rfl
  rw [budget, errors_log_error, rest, List.length_append, budget]
  simp only [List.length_cons, List.length_nil]
  omega

theorem budget_log (s : State α) {e : Event α} (quiet : ∀ e', e ≠ .error e') :
    (s.log e).budget = s.budget := by
  rw [budget, s.errors_log quiet]
  rfl

theorem budget_drop_le (s : State α) : s.drop.budget ≤ s.budget := by
  have short : s.drop.rest.length ≤ s.rest.length := (List.tail_suffix _).length_le
  simp only [budget, errors_drop]
  omega

theorem budget_drop {env : Setting α} {s : State α} (final : env.final.kind = .eof)
    {kind : TokenKind} (h : (s.head env).kind = kind) (other : kind ≠ .eof) :
    s.drop.budget + 2 = s.budget := by
  have one := length_drop final h other
  simp only [budget, errors_drop]
  omega

end State

/-- From the state, the run ends with a budget of at most `a`, or stops with one of at most `b`. -/
def Within (a b : Nat) (p : Parser α β) (s : State α) : Prop :=
  match outcome p s with
  | (.ok _, s') => s'.budget ≤ a
  | (.error _, s') => s'.budget ≤ b

namespace Within

variable {env : Setting α} {s : State α} {a b c : Nat}

theorem bind {p : Parser α β} {f : β → Parser α γ} (h : Within c b p s)
    (next : ∀ x s', s'.budget ≤ c → Within a b (f x) s') : Within a b (p >>= f) s := by
  unfold Within at h ⊢
  rw [outcome_bind]
  generalize outcome p s = r at h ⊢
  rcases r with ⟨_ | x, s₁⟩
  · exact h
  · exact next x s₁ h

theorem mono {p : Parser α β} {a' b' : Nat} (h : Within a b p s) (ok : a ≤ a') (stop : b ≤ b') :
    Within a' b' p s := by
  unfold Within at h ⊢
  generalize outcome p s = r at h ⊢
  rcases r with ⟨_ | x, s₁⟩
  · exact Nat.le_trans h stop
  · exact Nat.le_trans h ok

theorem pure {x : β} (ok : s.budget ≤ a) : Within a b (pure x : Parser α β) s := ok

theorem exhausted (stop : s.budget ≤ b) : Within a b (throw .exhausted : Parser α β) s := stop

theorem note {e : Event α} (quiet : ∀ e', e ≠ .error e') : Within s.budget b (note e) s :=
  Nat.le_of_eq (s.budget_log quiet)

theorem fail (env : Setting α) (tok : Token) (code : ErrorCode) (message : String)
    (expected : List String) :
    Within (s.budget + 1) (s.budget + 1) (fail env tok code message expected) s := by
  unfold Within
  rw [outcome_fail]
  split_ifs
  all_goals exact Nat.le_of_eq (s.budget_log_error _)

theorem fail_pure {tok : Token} {code : ErrorCode} {message : String} {expected : List String}
    {x : β} (ok : s.budget + 1 ≤ a) (stop : s.budget + 1 ≤ b) :
    Within a b (Parser.fail env tok code message expected >>= fun _ => Pure.pure x) s :=
  ((fail env tok code message expected).mono ok stop).bind fun _ _ le => pure le

theorem bind_peek {f : Token → Parser α γ} (h : Within a b (f (s.head env)) s) :
    Within a b (peek env >>= f) s := h

theorem bind_advance {f : Token → Parser α γ} (h : Within a b (f (s.head env)) s.drop) :
    Within a b (Parser.advance env >>= f) s := h

theorem bind_accept {kind : TokenKind} {f : Bool → Parser α γ}
    (yes : (s.head env).kind = kind → Within a b (f true) s.drop)
    (no : Within a b (f false) s) : Within a b (accept env kind >>= f) s := by
  unfold Within
  by_cases h : (s.head env).kind = kind
  · rw [outcome_bind_of_ok (outcome_accept_of_eq h)]
    exact yes h
  · rw [outcome_bind_of_ok (outcome_accept_of_ne h)]
    exact no

theorem bind_checkTime {f : Unit → Parser α γ} (limit : s.budget + 1 ≤ b)
    (h : Within a b (f ()) s.checked) : Within a b (checkTime env >>= f) s := by
  unfold Within
  rw [outcome_bind, outcome_checkTime]
  cases env.config.late s.checks with
  | false => exact h
  | true => exact Nat.le_trans (Nat.le_of_eq (s.checked.budget_log_error _)) limit

theorem nested {p : Parser α β} (limit : s.budget + 1 ≤ b) (h : Within a b p s.down) :
    Within a b (nested env p) s := by
  by_cases deep : ((s.depth + 1 : Nat) : Int) ≤ env.config.maxDepth
  · have inner : Within a b (p >>= fun x => leave >>= fun _ => Pure.pure x) s.down :=
      h.bind fun x s' le => bind (c := s'.budget) (Nat.le_refl _) fun _ _ le' =>
        pure (Nat.le_trans le' le)
    unfold Within at inner ⊢
    rwa [Parser.nested, outcome_bind, outcome_enter, if_pos deep]
  · unfold Within
    rw [Parser.nested, outcome_bind, outcome_enter, if_neg deep]
    refine Nat.le_trans (Nat.le_of_eq ?_) limit
    exact State.budget_log_error { s with depth := s.depth + 1 } _

variable [Scalar α]

theorem numberOf (tok : Token) : Within s.budget s.budget (numberOf tok) s := by
  unfold Parser.numberOf
  split
  · exact pure (Nat.le_refl _)
  · exact Nat.le_refl s.budget

theorem finishCall (env : Setting α) (nameTok : Token) (name : String) (args : List (Expr α)) :
    Within (s.budget + 1) (s.budget + 1) (finishCall env nameTok name args) s := by
  unfold Parser.finishCall
  refine (note (by simp)).bind fun _ s₁ le => ?_
  dsimp only
  split
  · exact fail_pure (by omega) (by omega)
  · split
    · exact (note (by simp)).bind fun _ _ le' => pure (by omega)
    · exact pure (by omega)

theorem unexpected (env : Setting α) (tok : Token) :
    Within (s.budget + 1) (s.budget + 1) (unexpected env tok) s := by
  unfold Parser.unexpected
  split <;>
    exact (fail env _ _ _ _).bind fun _ s₁ le =>
      bind_advance (pure (Nat.le_trans s₁.budget_drop_le le))

end Within

/-- How far each function of the parser goes over its budget. Every call for an operand but the
first comes after a token that was taken, and this token pays for it. -/
structure Spending [Scalar α] (env : Setting α) (n : Nat) : Prop where
  binary : ∀ (s : State α) (p : Nat),
    Within (s.budget + 1) (s.budget + 2) (binary env n p) s
  operators : ∀ (s : State α) (p : Nat) (left : Expr α) (compared combined : Bool),
    Within s.budget (s.budget + 1) (operators env n p left compared combined) s
  unary : ∀ s : State α, Within (s.budget + 1) (s.budget + 1) (unary env n) s
  primary : ∀ s : State α, Within (s.budget + 1) (s.budget + 1) (primary env n) s
  identifier : ∀ s : State α, Within (s.budget + 1) (s.budget + 1) (identifier env n) s
  arguments : ∀ (s : State α) (count : Nat),
    Within (s.budget + 2) (s.budget + 2) (arguments env n count) s

namespace Spending

variable [Scalar α] {env : Setting α} {n : Nat} (final : env.final.kind = .eof)
  (ih : Spending env n) (s : State α)

include ih

theorem binary_succ (p : Nat) :
    Within (s.budget + 1) (s.budget + 2) (Parser.binary env (n + 1) p) s := by
  rw [Parser.binary]
  have same : s.checked.budget = s.budget := rfl
  refine Within.bind_checkTime (by omega) ?_
  refine Within.bind ((ih.unary s.checked).mono (Nat.le_refl _) (by omega)) fun left s₂ le' => ?_
  exact (ih.operators s₂ p left false false).mono le' (by omega)

include final

theorem operators_succ (p : Nat) (left : Expr α) (compared combined : Bool) :
    Within s.budget (s.budget + 1) (Parser.operators env (n + 1) p left compared combined) s := by
  rw [Parser.operators]
  refine Within.bind_peek ?_
  split
  · exact .pure (Nat.le_refl _)
  · next op toLeft toRight operator =>
    have inner : (s.head env).kind ≠ .eof := by
      intro ended
      rw [ended] at operator
      simp [infix?] at operator
    have paid : s.drop.budget + 2 = s.budget := State.budget_drop final rfl inner
    have same : s.checked.drop.budget = s.drop.budget := rfl
    have operand : Within (s.drop.budget + 1) (s.budget + 1) (Parser.binary env n toRight)
        s.checked.drop := (ih.binary s.checked.drop toRight).mono (Nat.le_refl _) (by omega)
    have lower : Within (s.drop.budget + 1) (s.budget + 1)
        (nested env (Parser.binary env n toRight)) s.checked.drop :=
      .nested (by omega) ((ih.binary s.checked.drop.down toRight).mono (Nat.le_refl _) (by
        change s.drop.budget + 2 ≤ _
        omega))
    have rest : ∀ right : Expr α, ∀ s' : State α, s'.budget ≤ s.drop.budget + 1 →
        Within s.budget (s.budget + 1) (Parser.operators env n p (.bin op left right)
          (compared || op.isComparison) (combined || op.isLogical)) s' := fun right s' le =>
      (ih.operators s' p _ _ _).mono (by omega) (by omega)
    dsimp only
    split
    · exact .pure (Nat.le_refl _)
    · refine Within.bind_checkTime (Nat.le_refl _) (Within.bind_advance ?_)
      split
      · exact lower.bind rest
      · exact operand.bind rest

theorem unary_succ : Within (s.budget + 1) (s.budget + 1) (Parser.unary env (n + 1)) s := by
  rw [Parser.unary]
  have operand : s.drop.budget + 2 = s.budget →
      Within (s.budget + 1) (s.budget + 1) (nested env (Parser.unary env n)) s.drop := fun paid =>
    .nested (by omega) ((ih.unary s.drop.down).mono (by change s.drop.budget + 1 ≤ _; omega)
      (by change s.drop.budget + 1 ≤ _; omega))
  refine Within.bind_peek ?_
  split
  · next minus =>
    have paid := State.budget_drop final minus (by decide)
    refine Within.bind_advance (Within.bind_peek ?_)
    split
    · have less := s.drop.budget_drop_le
      exact Within.bind_advance (Within.bind ((Within.numberOf _).mono (by omega) (by omega))
        fun _ _ le => .pure le)
    · exact (operand paid).bind fun _ _ le => .pure le
  · next bang =>
    exact Within.bind_advance ((operand (State.budget_drop final bang (by decide))).bind
      fun _ _ le => .pure le)
  · exact ih.primary s

theorem primary_succ : Within (s.budget + 1) (s.budget + 1) (Parser.primary env (n + 1)) s := by
  rw [Parser.primary]
  refine Within.bind_peek ?_
  dsimp only
  split
  · have less := s.budget_drop_le
    exact Within.bind_advance (Within.bind ((Within.numberOf _).mono (by omega) (by omega))
      fun _ _ le => .pure le)
  · exact ih.identifier s
  · next opening =>
    have paid := State.budget_drop final opening (by decide)
    have inside : Within (s.drop.budget + 1) (s.drop.budget + 2)
        (nested env (Parser.binary env n 0)) s.drop :=
      .nested (by omega) (ih.binary s.drop.down 0)
    refine Within.bind_advance (Within.bind (inside.mono (Nat.le_refl _) (by omega))
      fun inner s₁ le => ?_)
    have less := s₁.budget_drop_le
    refine Within.bind_accept (fun _ => .pure (by omega)) (Within.bind_peek ?_)
    exact .fail_pure (by omega) (by omega)
  · exact .unexpected env _

theorem identifier_succ :
    Within (s.budget + 1) (s.budget + 1) (Parser.identifier env (n + 1)) s := by
  -- The opening bracket pays for the list of arguments.
  have less := s.budget_drop_le
  rw [Parser.identifier]
  refine Within.bind_advance ?_
  dsimp only
  split
  · exact .pure (by omega)
  · split
    · exact Within.bind ((Within.note (by simp)).mono (by omega) (Nat.le_refl _))
        fun _ _ le => .pure le
    · refine Within.bind_accept (fun opening => ?_) ?_
      · have paid := State.budget_drop final opening (by decide)
        have list : Within s.budget s.budget (nested env do
            if ← accept env .rightParen then return []
            else Parser.arguments env n 0) s.drop.drop := by
          refine .nested (by omega) ?_
          have same : s.drop.drop.down.budget = s.drop.drop.budget := rfl
          have fewer := s.drop.drop.down.budget_drop_le
          refine Within.bind_accept (fun _ => .pure (by omega)) ?_
          exact (ih.arguments s.drop.drop.down 0).mono (by omega) (by omega)
        refine Within.bind (list.mono (Nat.le_refl _) (by omega)) fun args s₁ le => ?_
        exact (Within.finishCall env _ _ _).mono (by omega) (by omega)
      · rw [if_neg Bool.false_ne_true]
        split
        · exact .fail_pure (by omega) (by omega)
        · exact .pure (by omega)

theorem arguments_succ (count : Nat) :
    Within (s.budget + 2) (s.budget + 2) (Parser.arguments env (n + 1) count) s := by
  -- The comma pays for the next argument.
  rw [Parser.arguments]
  split
  · exact Within.bind_peek (.fail_pure (by omega) (by omega))
  · refine Within.bind (ih.binary s 0) fun arg s₁ le => ?_
    have less := s₁.budget_drop_le
    refine Within.bind_accept (fun comma => ?_) (Within.bind_accept (fun _ => ?_) ?_)
    · have paid := State.budget_drop final comma (by decide)
      exact Within.bind ((ih.arguments s₁.drop (count + 1)).mono (by omega) (by omega))
        fun _ _ le' => .pure le'
    · exact .pure (by omega)
    · exact Within.bind_peek (.fail_pure (by omega) (by omega))

end Spending

variable [Scalar α] {env : Setting α}

theorem spending (final : env.final.kind = .eof) (n : Nat) : Spending env n := by
  induction n with
  | zero =>
    constructor <;> intros <;>
      simp only [binary, operators, unary, primary, identifier, arguments] <;>
      exact .exhausted (by omega)
  | succ n ih =>
    exact ⟨ih.binary_succ, ih.operators_succ final, ih.unary_succ final, ih.primary_succ final,
      ih.identifier_succ final, ih.arguments_succ final⟩

theorem whole_within (final : env.final.kind = .eof) (n : Nat) (s : State α) :
    Within (s.budget + 2) (s.budget + 2) (whole env n) s := by
  refine Within.bind (((spending final n).binary s 0)) fun e s₁ le => ?_
  refine Within.bind_peek ?_
  dsimp only
  split
  · exact .fail_pure (by omega) (by omega)
  · split
    · exact .fail_pure (by omega) (by omega)
    · exact .pure (by omega)

end Parser

namespace ParseRun

variable {α : Type} [Scalar α] {config : TimedConfig} {bindings : Option (Bindings α)}
  {strict : Bool} {tokens : List Token} {final : Token}

theorem length_errors_le (last : final.kind = .eof) :
    (ofTokens config bindings strict tokens final).errors.length ≤ 2 * tokens.length + 2 := by
  let env : Parser.Setting α := ⟨config, bindings, strict, final⟩
  let s : Parser.State α := ⟨tokens, 0, 0, #[], 0⟩
  let n := 8 * (tokens.length + 2)
  have within : Parser.Within (s.budget + 2) (s.budget + 2) (Parser.whole env n) s :=
    Parser.whole_within last n s
  have start : s.budget = 2 * tokens.length := Nat.zero_add _
  change (Parser.outcome (Parser.whole env n) s).2.errors.length ≤ _
  unfold Parser.Within at within
  generalize Parser.outcome (Parser.whole env n) s = r at within ⊢
  rcases r with ⟨_ | t, s'⟩
  all_goals
    change s'.errors.length + 2 * s'.rest.length ≤ s.budget + 2 at within
    change s'.errors.length ≤ _
    omega

end ParseRun

namespace Source

/-- What the answer to a source holds: the reason why it was not read; or the tree that was read
and its value, if no error was noticed; or a zero and all errors that were noticed. -/
def Answers {α : Type} [Scalar α] (source : Option String) (bindings : Option (Bindings α))
    (config : TimedConfig) (free : Bool) (r : ParseResult α) : Prop :=
  match refusal? source config with
  | some e => r = .failure none e []
  | none =>
    let text := source.getD ""
    let run := ParseRun.ofTokens config bindings (!free) (Token.lexemes text)
      (Token.endAt text.length)
    (run.errors = [] ∧ ∃ t stream, run.tree = .ok t ∧
      r = .success (t.evaluate bindings stream).1 t) ∨
    ∃ e es, run.errors = e :: es ∧
      r = .failure run.tree.toOption e.info (es.map ParseError.info)

variable {α : Type} [Scalar α] [NumberText α]

theorem parseValue_answers (source : Option String) (bindings : Option (Bindings α))
    (config : TimedConfig) (free : Bool) (s : Engine) :
    (∃ r, (parseValue source bindings config free s).1 = .ok r ∧
      Answers source bindings config free r) ∨
    (parseValue source bindings config free s).1 = .error .numberTooLarge ∧
      Parser.Unreadable α (Token.lexemes (source.getD "")) := by
  unfold parseValue Answers
  cases refusal? source config with
  | some e => exact .inl ⟨_, rfl, rfl⟩
  | none =>
    have ends := @ParseRun.ofTokens_ends α _ config bindings (!free)
      (Token.lexemes (source.getD "")) (Token.endAt (source.getD "").length) rfl
    dsimp only
    rw [value_bind, readTree_value]
    generalize ParseRun.ofTokens config bindings (!free) _ _ = run at ends ⊢
    rcases ends with ⟨t, tree⟩ | ⟨tree, noticed⟩ | ⟨tree, large⟩
    · rw [tree]
      rcases errors : run.errors with _ | ⟨e, es⟩
      · exact .inl ⟨_, rfl, .inl ⟨rfl, t, _, rfl, rfl⟩⟩
      · exact .inl ⟨_, rfl, .inr ⟨e, es, rfl, rfl⟩⟩
    · rw [tree]
      rcases errors : run.errors with _ | ⟨e, es⟩
      · exact absurd errors noticed
      · exact .inl ⟨_, rfl, .inr ⟨e, es, rfl, rfl⟩⟩
    · rw [tree]
      exact .inr ⟨rfl, large⟩

/-- Over the doubles every source has its answer, but for those with a hexadecimal literal that is
too large for a double. -/
theorem parseValue_total (source : Option String) (bindings : Option (Bindings Float))
    (config : TimedConfig) (free : Bool) (s : Engine) :
    (∃ r, (parseValue source bindings config free s).1 = .ok r ∧
      Answers source bindings config free r) ∨
    (parseValue source bindings config free s).1 = .error .numberTooLarge ∧
      ∃ tok ∈ Token.lexemes (source.getD ""), tok.Oversized := by
  refine (parseValue_answers source bindings config free s).imp_right fun ⟨failed, unreadable⟩ => ?_
  obtain ⟨tok, mem, number, large⟩ := unreadable
  exact ⟨failed, tok, mem, Token.oversized_of_numberValue?_eq_none mem number large⟩

/-- Twice the largest power of two among the doubles, written in hexadecimal, has no answer. -/
theorem parseValue_oversized :
    (parseValue (some "0x1p1024") (none : Option (Bindings Float)) {} false .start).1.isOk =
      false := by
  decide +kernel

end Source

end DerivativeEngine
