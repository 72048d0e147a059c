import Mathlib.Data.List.Forall2
import DerivativeEngine.Engine

/-! What a run gives, whatever state the engine is in. The rules follow the way runs are written:
one after the other, with the result of the first handed to the second, and one for each entry of a
list. A run that gives the same in every state is steady; then it has a result by itself. -/

namespace DerivativeEngine

/-- Whatever state the engine is in, the result is of this kind. -/
def Run.Gives {β : Type} (p : Run β) (Q : β → Prop) : Prop := ∀ s, Q (p s).1

namespace Run

variable {β γ ν : Type} {Q : β → Prop} {R : γ → Prop}

theorem bind_eq (p : Run β) (f : β → Run γ) (s : Engine) : (p >>= f) s = f (p s).1 (p s).2 := rfl

theorem Gives.pure {x : β} (h : Q x) : Gives (pure x) Q := fun _ => h

theorem Gives.bind {p : Run β} {f : β → Run γ} (first : p.Gives Q)
    (next : ∀ x, Q x → (f x).Gives R) : (p >>= f).Gives R :=
  fun s => next _ (first s) _

theorem Gives.after {p : Run β} {f : β → Run γ} (next : ∀ x, (f x).Gives R) :
    (p >>= f).Gives R :=
  fun _ => next _ _

theorem Gives.mapM {f : ν → Run β} {T : ν → β → Prop} (each : ∀ x, (f x).Gives (T x)) :
    ∀ xs : List ν, (xs.mapM f).Gives (List.Forall₂ T xs)
  | [] => .pure .nil
  | x :: xs => by
    rw [List.mapM_cons]
    exact (each x).bind fun y hy => (mapM each xs).bind fun ys hys => .pure (.cons hy hys)

def result (p : Run β) : β := (p Engine.start).1

def Steady (p : Run β) : Prop := p.Gives (· = p.result)

theorem Gives.steady {p : Run β} {x : β} (h : p.Gives (· = x)) : p.Steady :=
  fun s => (h s).trans (h Engine.start).symm

namespace Steady

theorem pure (x : β) : Steady (pure x) := fun _ => rfl

theorem bind {p : Run β} {f : β → Run γ} (first : p.Steady) (next : ∀ x, (f x).Steady) :
    (p >>= f).Steady := by
  intro s
  calc ((p >>= f) s).1 = (f (p s).1).result := next _ _
    _ = (f p.result).result := by rw [first s]
    _ = (p >>= f).result := (next _ _).symm

end Steady

end Run

theorem Expr.gives_run {α : Type} [Scalar α] [NumberText α] (e : Expr α) (b : Option (Bindings α)) :
    (e.run b).Gives fun x => ∃ σ, x = (e.evaluate b σ).1 := fun s => ⟨s.stream, rfl⟩

end DerivativeEngine
