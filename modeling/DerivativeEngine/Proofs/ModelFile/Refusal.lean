import DerivativeEngine.Proofs.Layer.Buildable
import DerivativeEngine.Proofs.ModelFile.Failure

/-! Loads into a new model. Behind a good header the sizes of the file are handed to the plan of a
model as they stand, before anything else is read. So besides a model and a format error there is
one more end: a shape, where these sizes cannot be built. Filling the new model never fails, since
what was read has the shapes of its parameters. -/

namespace DerivativeEngine

namespace Session

variable {α : Type} [Scalar α] {w w' : Workspace α}

def Ends {β : Type} (p : Session α β) (w : Workspace α) : Prop :=
  (∃ x, (outcome p w).1 = .ok x) ∨ ∃ e, (outcome p w).1 = .error (.format e)

namespace Ends

variable {β γ : Type} {p : Session α β} {f : β → Session α γ}

omit [Scalar α] in
theorem pure (x : β) (w : Workspace α) : Ends (Pure.pure x : Session α β) w := .inl ⟨x, rfl⟩

omit [Scalar α] in
theorem ofFormat (x : Except FormatError β) (w : Workspace α) : Ends (ofFormat x) w := by
  cases x with
  | error e => exact .inr ⟨e, rfl⟩
  | ok x => exact .inl ⟨x, rfl⟩

omit [Scalar α] in
theorem bind (first : Ends p w)
    (second : ∀ x w', outcome p w = (.ok x, w') → Ends (f x) w') : Ends (p >>= f) w := by
  rcases run : outcome p w with ⟨e | x, w'⟩
  · rw [Ends, run] at first
    obtain ⟨x, ⟨⟩⟩ | ⟨e, ⟨⟩⟩ := first
    exact .inr ⟨e, by rw [outcome_bind_error run]⟩
  · rw [Ends, outcome_bind_ok run]
    exact second x w' run

end Ends

variable [WordCoded α] {t : Transformer α VariableId}

theorem ends_fillParameters (holds : w.Holds t) (bytes : List UInt8) :
    Ends (do
      let p := Reader.parameters (t.parameters.map fun v => ⟨(w.var v).name, w.shapeOf v⟩) bytes
      (t.parameters.zip p.arrays).forM fun (v, x) => setData v x
      let _ ← ofFormat p.rest
      return t) w := by
  dsimp only
  rw [Reader.parameters, List.length_map]
  cases counted : (Reader.count t.parameters.length).run bytes with
  | error err =>
    rw [List.zip_nil_right]
    exact .inr ⟨err, rfl⟩
  | ok r =>
    obtain ⟨rest, ends⟩ := Reader.parametersFrom_ends (α := α)
      (t.parameters.map fun v => ⟨(w.var v).name, w.shapeOf v⟩) 0 r.2
    dsimp only
    generalize Reader.parametersFrom (α := α) 0 _ r.2 = p at ends
    have accepts : ∀ q ∈ t.parameters.zip p.arrays, w.Accepts q.1 q.2 := fun q hq =>
      ⟨shape_of_ends ends q hq, (holds.filled q.1 (List.of_mem_zip hq).1).1⟩
    obtain ⟨w₁, set⟩ := outcome_setAll accepts
    rw [Ends, outcome_bind_ok set]
    exact (Ends.ofFormat p.rest w₁).bind fun _ w' _ => .pure t w'

theorem ends_loadModel_of_plan {bytes rest : List UInt8} {c : TransformerConfig} {causal : Bool}
    {p : Transformer α (Slot α)} {into? : Option (Transformer α VariableId)}
    (opened : (Reader.header *> Reader.config).run bytes = .ok (c, rest))
    (plan : Transformer.plan c causal = .ok p) (given : ∀ u ∈ into?, w.Holds u) :
    Ends (loadModel bytes into?) w := by
  have filling {t : Transformer α VariableId} {w₁ : Workspace α} (holds : w₁.Holds t) :=
    ends_fillParameters holds rest
  cases into? with
  | none =>
    obtain ⟨-, -, p', plan', -⟩ := Transformer.of_plan plan false
    obtain ⟨t, w₁, built, -⟩ := outcome_buildTransformer plan' w
    obtain ⟨-, holds, -⟩ := holds_buildTransformer built
    rw [Ends, loadModel, outcome_bind_ok (outcome_ofFormat opened)]
    dsimp only
    rw [outcome_bind_ok built, outcome_bind_ok (outcome_expected _)]
    exact filling holds
  | some u =>
    rw [Ends, loadModel, outcome_bind_ok (outcome_ofFormat opened)]
    dsimp only
    by_cases same : u.config = c
    · rw [if_neg (by simpa using same), pure_bind, outcome_bind_ok (outcome_expected _)]
      exact filling (given u rfl)
    · rw [if_pos (bne_iff_ne.2 same)]
      exact .inr ⟨_, rfl⟩

theorem ends_loadModel [RootedSizes α] {bytes rest : List UInt8} {c : TransformerConfig}
    (opened : (Reader.header *> Reader.config).run bytes = .ok (c, rest)) (buildable : c.Buildable)
    (w : Workspace α) : Ends (loadModel bytes none) w := by
  obtain ⟨p, plan⟩ := (Transformer.decides_plan (α := α) c false).ok buildable
  exact ends_loadModel_of_plan opened plan nofun

theorem loadModel_of_unbuildable [RootedSizes α] {bytes rest : List UInt8} {c : TransformerConfig}
    (opened : (Reader.header *> Reader.config).run bytes = .ok (c, rest))
    (unbuildable : ¬ c.Buildable) (w : Workspace α) :
    ∃ e, outcome (loadModel bytes none) w = (.error (.shape e), w) := by
  obtain ⟨e, plan⟩ := (Transformer.decides_plan (α := α) c false).refused unbuildable
  have failed : outcome (buildTransformer c false) w = (.error (.shape e), w) := by
    rw [buildTransformer, plan]
    rfl
  rw [loadModel, outcome_bind_ok (outcome_ofFormat opened)]
  exact ⟨e, outcome_bind_error failed _⟩

/-- Whatever the bytes are, a load into a new model gives a model, or fails with a format error, or
fails with a shape. The last is so exactly where the file has a good header and sizes that cannot be
built, and then nothing has changed. -/
theorem loadModel_ends (bytes : List UInt8) (w : Workspace StoredDouble) :
    ((∃ t, (outcome (loadModel bytes none) w).1 = .ok t) ∨
      (∃ e, (outcome (loadModel bytes none) w).1 = .error (.format e)) ∨
      ∃ e, outcome (loadModel bytes none) w = (.error (.shape e), w)) ∧
    ((∃ e, (outcome (loadModel bytes none) w).1 = .error (.shape e)) ↔
      ∃ c rest, (Reader.header *> Reader.config).run bytes = .ok (c, rest) ∧ ¬ c.Buildable) := by
  have no_shape (ends : Ends (loadModel bytes none) w) (e : ShapeError) :
      (outcome (loadModel bytes none) w).1 ≠ .error (.shape e) := by
    rcases ends with ⟨t, run⟩ | ⟨f, run⟩ <;> rw [run] <;> nofun
  cases opened : (Reader.header *> Reader.config).run bytes with
  | error e =>
    have failed : outcome (ofFormat ((Reader.header *> Reader.config).run bytes)) w =
        (.error (.format e), w) := by
      rw [opened]
      rfl
    have ends : Ends (loadModel bytes none) w := by
      refine .inr ⟨e, ?_⟩
      rw [loadModel, outcome_bind_error failed]
    refine ⟨ends.imp_right .inl, ?_⟩
    exact iff_of_false (fun ⟨e, run⟩ => no_shape ends e run) nofun
  | ok r =>
    obtain ⟨c, rest⟩ := r
    by_cases buildable : c.Buildable
    · have ends := ends_loadModel opened buildable w
      refine ⟨ends.imp_right .inl, iff_of_false (fun ⟨e, run⟩ => no_shape ends e run) ?_⟩
      rintro ⟨c', rest', same, unbuildable⟩
      obtain ⟨rfl, rfl⟩ := Prod.mk.inj (Except.ok.inj same)
      exact unbuildable buildable
    · obtain ⟨e, run⟩ := loadModel_of_unbuildable opened buildable w
      exact ⟨.inr (.inr ⟨e, run⟩), iff_of_true ⟨e, by rw [run]⟩ ⟨c, rest, rfl, buildable⟩⟩

def headlessFile : List UInt8 := (ModelFile.model ⟨1, 1, 0, 1, 1, 1⟩ (leastArrays .ofNat)).bytes

/-- It is refused, and not as a file. -/
theorem loadModel_headless :
    (outcome (loadModel headlessFile none)
        (.empty (fun _ => 0) : Workspace StoredDouble)).1.map (fun _ => ()) =
      .error (.shape (.heads 1 0)) := by
  decide +kernel

end Session

end DerivativeEngine
