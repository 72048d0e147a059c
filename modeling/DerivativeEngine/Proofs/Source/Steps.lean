import DerivativeEngine.Proofs.Source.Powers

/-! One step of the parser at a time: how a run of two parts splits, what each small operation does
to the state, and what it means to take tokens from a state without noticing an error. -/

namespace DerivativeEngine

def TimedConfig.InTime (c : TimedConfig) : Prop := ∀ check, c.late check = false

theorem TimedConfig.inTime_of_untimed {c : TimedConfig} (untimed : ¬ 0.0 < c.timeoutMs) :
    c.InTime := by
  intro check
  rw [late, decide_eq_false untimed, Bool.false_and]

namespace Parser

open Grammar

variable {α β γ : Type}

/-- What a run from the state ends with. -/
def outcome (p : Parser α β) (s : State α) : Except Stop β × State α := p s

theorem outcome_bind (p : Parser α β) (f : β → Parser α γ) (s : State α) :
    outcome (p >>= f) s = match outcome p s with
      | (.ok x, s₁) => outcome (f x) s₁
      | (.error e, s₁) => (.error e, s₁) := by
  change outcome (ExceptT.bind p f) s = _
  simp only [outcome, ExceptT.bind, ExceptT.mk, bind, StateT.bind]
  rcases p s with ⟨_ | x, s₁⟩ <;> rfl

theorem outcome_bind_of_ok {p : Parser α β} {s s₁ : State α} {x : β}
    (h : outcome p s = (.ok x, s₁)) (f : β → Parser α γ) :
    outcome (p >>= f) s = outcome (f x) s₁ := by
  rw [outcome_bind, h]

theorem outcome_bind_ok_iff {p : Parser α β} {f : β → Parser α γ} {s s' : State α} {y : γ} :
    outcome (p >>= f) s = (.ok y, s') ↔
      ∃ x s₁, outcome p s = (.ok x, s₁) ∧ outcome (f x) s₁ = (.ok y, s') := by
  rw [outcome_bind]
  rcases outcome p s with ⟨e | x, s₁⟩
  · simp
  · constructor
    · intro h
      exact ⟨x, s₁, rfl, h⟩
    · rintro ⟨_, _, h, g⟩
      cases h
      exact g

@[simp] theorem outcome_pure (x : β) (s : State α) : outcome (pure x) s = (.ok x, s) := rfl

@[simp] theorem outcome_throw (e : Stop) (s : State α) :
    outcome (throw e : Parser α β) s = (.error e, s) := rfl

@[simp] theorem outcome_get (s : State α) : outcome get s = (.ok s, s) := rfl

@[simp] theorem outcome_modify (f : State α → State α) (s : State α) :
    outcome (modify f) s = (.ok (), f s) := rfl

namespace State

def errors (s : State α) : List ParseError :=
  s.trace.toList.filterMap fun
    | .error e => some e
    | _ => none

def head (env : Setting α) (s : State α) : Token := s.rest.headD env.final

def drop (s : State α) : State α := { s with rest := s.rest.tail }

def log (s : State α) (e : Event α) : State α := { s with trace := s.trace.push e }

def down (s : State α) : State α :=
  { s with depth := s.depth + 1, deepest := max s.deepest (s.depth + 1) }

def up (s : State α) : State α := { s with depth := s.depth - 1 }

def checked (s : State α) : State α := { s with checks := s.checks + 1 }

@[simp] theorem errors_drop (s : State α) : s.drop.errors = s.errors := rfl

@[simp] theorem errors_down (s : State α) : s.down.errors = s.errors := rfl

@[simp] theorem errors_up (s : State α) : s.up.errors = s.errors := rfl

@[simp] theorem errors_checked (s : State α) : s.checked.errors = s.errors := rfl

@[simp] theorem errors_log_error (s : State α) (e : ParseError) :
    (s.log (.error e)).errors = s.errors ++ [e] := by
  simp [errors, log]

theorem errors_log (s : State α) {e : Event α} (h : ∀ e', e ≠ .error e') :
    (s.log e).errors = s.errors := by
  cases e with
  | error e => exact absurd rfl (h e)
  | _ => simp [errors, log]

theorem rest_of_head {env : Setting α} {s : State α} {kind : TokenKind}
    (final : env.final.kind = .eof) (h : (s.head env).kind = kind) (other : kind ≠ .eof) :
    s.rest = s.head env :: s.drop.rest := by
  rcases hr : s.rest with _ | ⟨tok, rest⟩
  · rw [head, hr] at h
    exact absurd (h.symm.trans final) other
  · simp [head, drop, hr]

end State

@[simp] theorem outcome_peek (env : Setting α) (s : State α) :
    outcome (peek env) s = (.ok (s.head env), s) := rfl

@[simp] theorem outcome_advance (env : Setting α) (s : State α) :
    outcome (advance env) s = (.ok (s.head env), s.drop) := rfl

theorem outcome_accept_of_eq {env : Setting α} {kind : TokenKind} {s : State α}
    (h : (s.head env).kind = kind) : outcome (accept env kind) s = (.ok true, s.drop) := by
  rw [accept, outcome_bind_of_ok (outcome_peek env s), beq_iff_eq.2 h]
  rfl

theorem outcome_accept_of_ne {env : Setting α} {kind : TokenKind} {s : State α}
    (h : (s.head env).kind ≠ kind) : outcome (accept env kind) s = (.ok false, s) := by
  rw [accept, outcome_bind_of_ok (outcome_peek env s), beq_eq_false_iff_ne.2 h]
  rfl

@[simp] theorem outcome_note (e : Event α) (s : State α) :
    outcome (note e) s = (.ok (), s.log e) := rfl

@[simp] theorem outcome_leave (s : State α) : outcome leave s = (.ok (), s.up) := rfl

theorem outcome_abort (tok : Token) (code : ErrorCode) (message : String) (s : State α) :
    outcome (abort tok code message) s =
      (.error .failed, s.log (.error (errorAt tok code message []))) := rfl

@[simp] theorem outcome_isLate (env : Setting α) (s : State α) :
    outcome (isLate env) s = (.ok (env.config.late s.checks), s.checked) := rfl

def overdue (env : Setting α) (s : State α) : ParseError :=
  errorAt (s.head env) .syntaxError "Parsing timeout exceeded" []

theorem outcome_checkTime (env : Setting α) (s : State α) :
    outcome (checkTime env) s =
      if env.config.late s.checks then
        (.error .failed, s.checked.log (.error (overdue env s)))
      else (.ok (), s.checked) := by
  rw [checkTime, outcome_bind_of_ok (outcome_isLate env s)]
  split <;> rfl

theorem outcome_checkTime_of_inTime {env : Setting α} (live : env.config.InTime) (s : State α) :
    outcome (checkTime env) s = (.ok (), s.checked) := by
  rw [outcome_checkTime, live]
  rfl

theorem outcome_fail (env : Setting α) (tok : Token) (code : ErrorCode) (message : String)
    (expected : List String) (s : State α) :
    outcome (fail env tok code message expected) s =
      (if env.config.continueOnError then .ok () else .error .failed,
        s.log (.error (errorAt tok code message expected))) := by
  rw [fail, outcome_bind_of_ok (outcome_note _ s)]
  cases env.config.continueOnError <;> rfl

def tooDeep (env : Setting α) (s : State α) : ParseError :=
  errorAt (s.head env) .tooDeep
    s!"Expression too deeply nested (max depth: {env.config.maxDepth})" []

theorem outcome_enter (env : Setting α) (s : State α) :
    outcome (enter env) s =
      if ((s.depth + 1 : Nat) : Int) ≤ env.config.maxDepth then (.ok (), s.down)
      else (.error .failed, { s with depth := s.depth + 1 }.log (.error (tooDeep env s))) := by
  by_cases h : ((s.depth + 1 : Nat) : Int) ≤ env.config.maxDepth
  · have low : ¬ env.config.maxDepth < ((s.depth + 1 : Nat) : Int) := by omega
    simp only [enter, outcome_bind, outcome_modify, outcome_get, low, h, if_true, if_false]
    rfl
  · have high : env.config.maxDepth < ((s.depth + 1 : Nat) : Int) := by omega
    simp only [enter, outcome_bind, outcome_modify, outcome_get, high, h, if_true, if_false]
    rfl

def reach (depth d : Nat) : Nat := if d = 0 then 0 else depth + d

theorem max_reach (m depth d₁ d₂ : Nat) :
    max (max m (reach depth d₁)) (reach depth d₂) = max m (reach depth (max d₁ d₂)) := by
  rw [Nat.max_assoc]
  congr 1
  unfold reach
  split_ifs <;> omega

theorem max_reach_succ (m depth d : Nat) :
    max (max m (depth + 1)) (reach (depth + 1) d) = max m (reach depth (d + 1)) := by
  rw [Nat.max_assoc, reach, reach, if_neg (Nat.succ_ne_zero d)]
  congr 1
  split_ifs <;> omega

/-- From one state to the other the parser took these tokens, went so deep, and noticed no
error. -/
structure Took (env : Setting α) (s : State α) (ts : List Token) (d : Nat) (s' : State α) :
    Prop where
  rest : s.rest = ts ++ s'.rest
  depth : s'.depth = s.depth
  deepest : s'.deepest = max s.deepest (reach s.depth d)
  fits : d = 0 ∨ ((s.depth + d : Nat) : Int) ≤ env.config.maxDepth
  errors : s'.errors = s.errors

namespace Took

variable {env : Setting α} {s s₁ s' : State α} {ts us : List Token} {d d₁ d₂ : Nat}

theorem refl (env : Setting α) (s : State α) : Took env s [] 0 s :=
  ⟨rfl, rfl, by simp [reach], .inl rfl, rfl⟩

theorem trans (h : Took env s ts d₁ s₁) (g : Took env s₁ us d₂ s') :
    Took env s (ts ++ us) (max d₁ d₂) s' where
  rest := by rw [h.rest, g.rest, List.append_assoc]
  depth := g.depth.trans h.depth
  deepest := by
    rw [g.deepest, h.deepest, h.depth, max_reach]
  fits := by
    have hd := h.depth
    have hf := h.fits
    have gf := g.fits
    omega
  errors := g.errors.trans h.errors

theorem of_checked (h : Took env s.checked ts d s') : Took env s ts d s' :=
  ⟨h.rest, h.depth, h.deepest, h.fits, h.errors⟩

theorem log (h : Took env s ts d s') {e : Event α} (quiet : ∀ e', e ≠ .error e') :
    Took env s ts d (s'.log e) :=
  ⟨h.rest, h.depth, h.deepest, h.fits, (s'.errors_log quiet).trans h.errors⟩

theorem single (final : env.final.kind = .eof) {kind : TokenKind}
    (h : (s.head env).kind = kind) (other : kind ≠ .eof) :
    Took env s [s.head env] 0 s.drop :=
  ⟨s.rest_of_head final h other, rfl, by simp [reach, State.drop], .inl rfl, rfl⟩

theorem nest (deep : ((s.depth + 1 : Nat) : Int) ≤ env.config.maxDepth)
    (h : Took env s.down ts d s') : Took env s ts (d + 1) s'.up where
  rest := h.rest
  depth := by
    have hd : s'.depth = s.depth + 1 := h.depth
    change s'.depth - 1 = s.depth
    omega
  deepest := by
    have hd : s'.deepest = max (max s.deepest (s.depth + 1)) (reach (s.depth + 1) d) := h.deepest
    exact hd.trans (max_reach_succ _ _ _)
  fits := by
    have hf := h.fits
    simp only [State.down] at hf
    omega
  errors := h.errors

end Took

theorem outcome_nested {env : Setting α} {p : Parser α β} {s s₁ : State α} {x : β}
    (deep : ((s.depth + 1 : Nat) : Int) ≤ env.config.maxDepth)
    (h : outcome p s.down = (.ok x, s₁)) : outcome (nested env p) s = (.ok x, s₁.up) := by
  rw [nested, outcome_bind, outcome_enter, if_pos deep]
  simp only [outcome_bind, h, outcome_leave, outcome_pure]

theorem outcome_nested_ok {env : Setting α} {p : Parser α β} {s s' : State α} {x : β}
    (h : outcome (nested env p) s = (.ok x, s')) :
    ((s.depth + 1 : Nat) : Int) ≤ env.config.maxDepth ∧
      ∃ s₁, outcome p s.down = (.ok x, s₁) ∧ s' = s₁.up := by
  rw [nested, outcome_bind, outcome_enter] at h
  split_ifs at h with deep
  · obtain ⟨y, s₁, hp, hy⟩ := outcome_bind_ok_iff.1 h
    simp only [outcome_bind, outcome_leave, outcome_pure, Prod.mk.injEq, Except.ok.injEq] at hy
    exact ⟨deep, s₁, hy.1 ▸ hp, hy.2.symm⟩
  · simp at h

def callIssue? (env : Setting α) (name : String) (argc : Nat) : Option (ErrorCode × String) :=
  if env.strict then callFault? name argc else none

theorem callIssue?_eq_none_iff {env : Setting α} {name : String} {argc : Nat} :
    callIssue? env name argc = none ↔ Callable env.dialect name argc := by
  unfold callIssue? Callable Setting.dialect
  split_ifs with strict <;> simp [strict, callFault?_eq_none_iff]

section

variable [Scalar α]

theorem outcome_finishCall (env : Setting α) (nameTok : Token) (name : String)
    (args : List (Expr α)) (s : State α) :
    outcome (finishCall env nameTok name args) s =
      match callIssue? env name args.length with
      | some (code, message) =>
        outcome (fail env nameTok code message [] >>= fun _ => pure (.num 0))
          (s.log (.called name args.length))
      | none =>
        (.ok (callTree name args), match domainWarning? name args with
          | some message =>
            (s.log (.called name args.length)).log (.outOfDomain message nameTok.start)
          | none => s.log (.called name args.length)) := by
  rw [finishCall, outcome_bind_of_ok (outcome_note _ s), callIssue?]
  dsimp only
  cases (if env.strict = true then callFault? name args.length else none) with
  | some fault => rfl
  | none =>
    dsimp only
    cases warning : domainWarning? name args with
    | some message =>
      simp only [outcome_bind, outcome_note, outcome_pure, callTree_of_warning warning]
    | none => simp only [outcome_pure, callTree_of_silent warning]

def operand (env : Setting α) (n : Nat) (r : Rule) : Parser α (Expr α) :=
  if r.op = .pow then nested env (binary env n r.level.rightPower)
  else binary env n r.level.rightPower

theorem outcome_operators (env : Setting α) (n p : Nat) (left : Expr α) (compared combined : Bool)
    (s : State α) :
    outcome (operators env (n + 1) p left compared combined) s =
      match rule? (s.head env).kind with
      | none => (.ok left, s)
      | some r =>
        if p ≤ r.level.leftPower ∧ r.refused compared combined = false then
          outcome (checkTime env >>= fun _ => advance env >>= fun _ =>
            operand env n r >>= fun right => operators env n p (.bin r.op left right)
              (compared || r.op.isComparison) (combined || r.op.isLogical)) s
        else (.ok left, s) := by
  rw [operators, outcome_bind_of_ok (outcome_peek env s), infix?_eq]
  cases rule : rule? (s.head env).kind with
  | none => rfl
  | some r =>
    simp only [Option.map_some]
    by_cases goes : p ≤ r.level.leftPower ∧ r.refused compared combined = false
    · have stays : ¬ (decide (r.level.leftPower < p) || r.refused compared combined) = true := by
        simp [goes.1, goes.2]
      rw [Rule.refused] at stays
      rw [if_pos goes, if_neg stays]
      by_cases power : r.op = .pow
      · simp only [operand, power, beq_self_eq_true, if_true]
      · simp only [operand, if_neg power, beq_eq_false_iff_ne.2 power]
        rfl
    · have leaves : (decide (r.level.leftPower < p) || r.refused compared combined) = true := by
        grind
      rw [Rule.refused] at leaves
      rw [if_neg goes, if_pos leaves]
      rfl

end

end Parser

namespace ParseRun

open DerivativeEngine.Parser

variable {α : Type}

def ofOutcome (r : Except Stop (Expr α) × State α) : ParseRun α := ⟨r.1, r.2.deepest, r.2.trace⟩

theorem errors_ofOutcome (r : Except Stop (Expr α) × State α) :
    (ofOutcome r).errors = r.2.errors := rfl

theorem ofTokens_eq [Scalar α] (config : TimedConfig) (bindings : Option (Bindings α))
    (strict : Bool) (tokens : List Token) (final : Token) :
    ofTokens config bindings strict tokens final =
      ofOutcome (outcome (whole ⟨config, bindings, strict, final⟩ (8 * (tokens.length + 2)))
        ⟨tokens, 0, 0, #[], 0⟩) := rfl

end ParseRun

end DerivativeEngine
