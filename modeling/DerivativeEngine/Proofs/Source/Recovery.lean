import DerivativeEngine.Proofs.Source.Parallel

/-! Going on after an error. Next to every run of the parser stands the run that stops at the first
error. Until then the two are one run; from then on the parser that goes on only adds errors to the
first. The relation is kept by running one part after another, so it holds of the whole parser. -/

namespace DerivativeEngine.Parser

open Grammar

variable {α β γ : Type}

def Setting.stopping (env : Setting α) : Setting α :=
  { env with config := { env.config with continueOnError := false } }

def OneError (before : List ParseError) (r : Except Stop β × State α) : Prop :=
  match r.1 with
  | .error .failed => ∃ e, r.2.errors = before ++ [e]
  | _ => r.2.errors = before

/-- The first parser goes on where the second stops. -/
structure Recovers (p q : Parser α β) : Prop where
  grows : ∀ s, s.errors <+: (outcome p s).2.errors
  stops : ∀ s, OneError s.errors (outcome q s)
  follows : ∀ s, outcome p s = outcome q s ∨
    (outcome q s).1 = .error .failed ∧ (outcome q s).2.errors <+: (outcome p s).2.errors

namespace Recovers

theorem of_quiet {p : Parser α β} (quiet : ∀ s, (outcome p s).2.errors = s.errors)
    (unfailing : ∀ s, (outcome p s).1 ≠ .error .failed) : Recovers p p where
  grows s := ⟨[], by rw [List.append_nil, quiet s]⟩
  stops s := by
    unfold OneError
    split
    · next failed => exact absurd failed (unfailing s)
    · exact quiet s
  follows _ := .inl rfl

theorem bind {p q : Parser α β} {f g : β → Parser α γ} (h : Recovers p q)
    (k : ∀ x, Recovers (f x) (g x)) : Recovers (p >>= f) (q >>= g) where
  grows s := by
    have first := h.grows s
    rw [outcome_bind]
    generalize outcome p s = r at first ⊢
    rcases r with ⟨_ | x, s₁⟩
    · exact first
    · exact first.trans ((k x).grows s₁)
  stops s := by
    have first := h.stops s
    rw [outcome_bind]
    generalize outcome q s = r at first ⊢
    rcases r with ⟨stop | x, s₁⟩
    · cases stop <;> exact first
    · have next := (k x).stops s₁
      rwa [show s₁.errors = s.errors from first] at next
  follows s := by
    rcases h.follows s with equal | ⟨failed, first⟩
    · rw [outcome_bind, outcome_bind, equal]
      generalize outcome q s = r
      rcases r with ⟨_ | x, s₁⟩
      · exact .inl rfl
      · exact (k x).follows s₁
    · refine .inr ?_
      rw [outcome_bind p, outcome_bind q]
      generalize outcome q s = r at failed first ⊢
      generalize outcome p s = r' at first ⊢
      rcases r with ⟨stop | _, s₁⟩
      · obtain rfl : stop = .failed := by simpa using failed
        refine ⟨rfl, first.trans ?_⟩
        rcases r' with ⟨_ | x, s₂⟩
        · exact List.prefix_rfl
        · exact (k x).grows s₂
      · simp at failed

theorem pure (x : β) : Recovers (pure x : Parser α β) (Pure.pure x) :=
  of_quiet (fun _ => rfl) (by simp)

theorem exhausted : Recovers (throw .exhausted : Parser α β) (throw .exhausted) :=
  of_quiet (fun _ => rfl) (by simp)

theorem peek (env : Setting α) : Recovers (peek env) (Parser.peek env.stopping) :=
  of_quiet (fun _ => rfl) (by simp)

theorem advance (env : Setting α) : Recovers (advance env) (Parser.advance env.stopping) :=
  of_quiet (fun _ => rfl) (by simp)

theorem isLate (env : Setting α) : Recovers (isLate env) (Parser.isLate env.stopping) :=
  of_quiet (fun _ => rfl) (by simp)

theorem note {e : Event α} (quiet : ∀ e', e ≠ .error e') : Recovers (note e) (Parser.note e) :=
  of_quiet (fun s => s.errors_log quiet) (by simp)

theorem leave : Recovers (leave : Parser α Unit) Parser.leave :=
  of_quiet (fun _ => rfl) (by simp)

theorem abort (tok : Token) (code : ErrorCode) (message : String) :
    Recovers (abort tok code message : Parser α Unit) (Parser.abort tok code message) where
  grows s := by
    rw [outcome_abort, State.errors_log_error]
    exact List.prefix_append _ _
  stops s := ⟨_, State.errors_log_error s _⟩
  follows _ := .inl rfl

theorem fail (env : Setting α) (tok : Token) (code : ErrorCode) (message : String)
    (expected : List String) : Recovers (fail env tok code message expected)
      (Parser.fail env.stopping tok code message expected) where
  grows s := by
    rw [outcome_fail, State.errors_log_error]
    exact List.prefix_append _ _
  stops s := ⟨_, State.errors_log_error s _⟩
  follows s := by
    rw [outcome_fail, outcome_fail]
    exact .inr ⟨rfl, List.prefix_rfl⟩

theorem enter (env : Setting α) : Recovers (enter env) (Parser.enter env.stopping) where
  grows s := by
    rw [outcome_enter]
    split
    · exact List.prefix_rfl
    · rw [State.errors_log_error]
      exact List.prefix_append _ _
  stops s := by
    rw [outcome_enter]
    split
    · rfl
    · exact ⟨_, State.errors_log_error _ _⟩
  follows _ := .inl rfl

theorem nested (env : Setting α) {p q : Parser α β} (h : Recovers p q) :
    Recovers (nested env p) (Parser.nested env.stopping q) :=
  (enter env).bind fun _ => h.bind fun x => leave.bind fun _ => pure x

end Recovers

variable [Scalar α]

namespace Recovers

theorem numberOf (tok : Token) : Recovers (numberOf tok : Parser α α) (Parser.numberOf tok) := by
  unfold Parser.numberOf
  split
  · exact pure _
  · exact of_quiet (fun _ => rfl) (by simp)

end Recovers

theorem parallel_stopping (env : Setting α) : Parallel env env.stopping Eq Recovers where
  bindings := rfl
  strict := rfl
  maxArgs := rfl
  alike same := same ▸ .refl _
  pure := .pure
  exhausted := .exhausted
  bind := .bind
  bindPeek next := (Recovers.peek env).bind fun tok => next tok tok rfl
  bindAdvance next := (Recovers.advance env).bind fun tok => next tok tok rfl
  isLate := .isLate env
  note := .note
  abort code message same := same ▸ .abort _ code message
  fail code message expected same := same ▸ .fail env _ code message expected
  nested := .nested env
  numberOf same := same ▸ .numberOf _

theorem whole_recovers (env : Setting α) (n : Nat) :
    Recovers (whole env n) (whole env.stopping n) :=
  (parallel_stopping env).whole n

end DerivativeEngine.Parser
