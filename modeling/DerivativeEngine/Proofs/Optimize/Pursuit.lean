import Mathlib.Data.List.Chain

/-! A step repeated until it fails, or so many times. What is reached is a chain of steps, its last
state is the one that failed, and a pursuit can be cut anywhere and taken up again from the state
that was reached there. -/

namespace DerivativeEngine

/-- What is reached, one after the other, and why there was no further step, if that ended it. -/
structure Pursuit (σ ε : Type) where
  visited : List σ
  stop : Option ε

def Pursuit.map {σ τ ε : Type} (f : σ → τ) (q : Pursuit σ ε) : Pursuit τ ε :=
  ⟨q.visited.map f, q.stop⟩

def pursue {σ ε : Type} (next : σ → Except ε σ) : Nat → σ → Pursuit σ ε
  | 0, _ => ⟨[], none⟩
  | n + 1, x =>
    match next x with
    | .error e => ⟨[], some e⟩
    | .ok y => ⟨y :: (pursue next n y).visited, (pursue next n y).stop⟩

section Pursuits

variable {σ τ ε : Type} {next : σ → Except ε σ} {x y : σ} {e : ε}

theorem pursue_stopped (h : next x = .error e) (n : Nat) :
    pursue next (n + 1) x = ⟨[], some e⟩ := by
  rw [pursue, h]

theorem pursue_moved (h : next x = .ok y) (n : Nat) :
    pursue next (n + 1) x = ⟨y :: (pursue next n y).visited, (pursue next n y).stop⟩ := by
  rw [pursue, h]

theorem isChain_pursue (next : σ → Except ε σ) (n : Nat) (x : σ) :
    (x :: (pursue next n x).visited).IsChain fun x y => next x = .ok y := by
  induction n generalizing x with
  | zero => exact .singleton x
  | succ n ih =>
    cases step : next x with
    | error e =>
      rw [pursue_stopped step]
      exact .singleton x
    | ok y =>
      rw [pursue_moved step]
      exact .cons_cons step (ih y)

theorem length_pursue_le (next : σ → Except ε σ) (n : Nat) (x : σ) :
    (pursue next n x).visited.length ≤ n := by
  induction n generalizing x with
  | zero => exact Nat.le_refl 0
  | succ n ih =>
    cases step : next x with
    | error e =>
      rw [pursue_stopped step]
      exact Nat.zero_le _
    | ok y =>
      rw [pursue_moved step]
      exact Nat.succ_le_succ (ih y)

theorem next_of_stop {n : Nat} (h : (pursue next n x).stop = some e) :
    next ((pursue next n x).visited.getLastD x) = .error e := by
  induction n generalizing x with
  | zero => cases h
  | succ n ih =>
    cases step : next x with
    | error e' =>
      rw [pursue_stopped step] at h ⊢
      cases h
      exact step
    | ok y =>
      rw [pursue_moved step] at h ⊢
      rw [List.getLastD_cons]
      exact ih h

theorem getLastD_append (xs ys : List σ) (x : σ) :
    (xs ++ ys).getLastD x = ys.getLastD (xs.getLastD x) := by
  simp only [List.getLastD_eq_getLast?, List.getLast?_append, Option.getD_or]

theorem pursue_add (next : σ → Except ε σ) (n : Nat) {m : Nat} (further : 0 < m) (x : σ) :
    let before := pursue next n x
    let after := pursue next m (before.visited.getLastD x)
    pursue next (n + m) x = ⟨before.visited ++ after.visited, after.stop⟩ := by
  induction n generalizing x with
  | zero => simp [pursue]
  | succ n ih =>
    cases step : next x with
    | error e =>
      -- The state that stopped the first pursuit stops the second one at once.
      obtain ⟨m, rfl⟩ := Nat.exists_eq_add_one.2 further
      rw [show n + 1 + (m + 1) = (n + (m + 1)) + 1 by omega, pursue_stopped step,
        pursue_stopped step]
      simp [pursue_stopped step]
    | ok y =>
      rw [show n + 1 + m = (n + m) + 1 by omega, pursue_moved step, pursue_moved step, ih y]
      dsimp only
      rw [List.getLastD_cons]
      rfl

theorem pursue_map {next' : τ → Except ε τ} (f : σ → τ)
    (same : ∀ x, next' (f x) = (next x).map f) (n : Nat) (x : σ) :
    pursue next' n (f x) = (pursue next n x).map f := by
  induction n generalizing x with
  | zero => rfl
  | succ n ih =>
    cases step : next x with
    | error e =>
      have seen : next' (f x) = .error e := by rw [same, step]; rfl
      rw [pursue_stopped step, pursue_stopped seen]
      rfl
    | ok y =>
      have seen : next' (f x) = .ok (f y) := by rw [same, step]; rfl
      rw [pursue_moved step, pursue_moved seen, ih y]
      rfl

end Pursuits

end DerivativeEngine
