import Mathlib
import DerivativeEngine.Proofs.Layer.Plan
import DerivativeEngine.Proofs.Scalar.Fields
import DerivativeEngine.Proofs.Scalar.Reals
import DerivativeEngine.Scalar.Stored

/-! Sizes that a model can be built with. A size is checked as a dimension before it is divided by
or taken the root of, so a plan succeeds exactly where all sizes are positive and the columns can
be split among the heads, and fails in no other way than with a shape. That the roots are taken of
nothing below zero is asked of the scalars: it holds without rounding, and of doubles. -/

namespace DerivativeEngine

variable {α : Type}

/-- The sizes inside the blocks count only where there is a block. -/
structure TransformerConfig.Buildable (c : TransformerConfig) : Prop where
  vocabulary : 0 < c.vocabSize
  model : 0 < c.dModel
  length : 0 < c.maxSeqLen
  heads : 0 < c.nLayers → 0 < c.nHeads
  divides : 0 < c.nLayers → c.nHeads ∣ c.dModel
  inner : 0 < c.nLayers → 0 < c.dFf

class RootedSizes (α : Type) [Scalar α] : Prop where
  width : ∀ n : Int, 0 < n → ¬ (Scalar.ofInt n : α) < 0
  fan : ∀ n : Int, 0 < n → ¬ (2.0 / Scalar.ofInt n : α) < 0

instance : RootedSizes EReal := by
  have nonneg (n : Int) (h : 0 < n) : (0 : EReal) ≤ Scalar.ofInt n := by
    rw [Scalar.ofInt, if_neg (by omega)]
    exact EReal.coe_nonneg.2 (Nat.cast_nonneg _)
  have two : (0 : EReal) ≤ (2.0 : EReal) := EReal.coe_nonneg.2 (by norm_num)
  exact ⟨fun n h => not_lt.2 (nonneg n h), fun n h => not_lt.2 (EReal.div_nonneg two (nonneg n h))⟩

instance : RootedSizes StoredDouble := by
  have positive (n : Int) (h : 0 < n) :
      Double.sign (Scalar.ofInt n : StoredDouble).value = .positive := by
    rw [Scalar.ofInt, if_neg (by omega)]
    exact Double.sign_ofBits_toBits (Double.sign_ofDyadic _ _)
  refine ⟨fun n h => Double.not_lt_zero (positive n h) rfl, fun n h => Double.not_lt_zero ?_ rfl⟩
  exact Double.sign_ofBits_toBits (Double.sign_div rfl (positive n h))

/-- A plan that these sizes decide: it succeeds where they are possible, and is refused with a
shape where they are not. -/
structure Decides (possible : Prop) {β : Type} (p : Except TensorError β) : Prop where
  ok : possible → ∃ x, p = .ok x
  refused : ¬ possible → ∃ e, p = .error (.shape e)

namespace Decides

variable {β γ : Type} {P Q : Prop} {p : Except TensorError β} {f : β → Except TensorError γ}

theorem pure (x : β) : Decides True (Except.ok (ε := TensorError) x) :=
  ⟨fun _ => ⟨x, rfl⟩, fun h => absurd trivial h⟩

theorem of_iff (h : Decides P p) (same : P ↔ Q) : Decides Q p :=
  ⟨fun q => h.ok (same.2 q), fun q => h.refused fun p => q (same.1 p)⟩

theorem bind (first : Decides P p) (second : P → ∀ x, Decides Q (f x)) :
    Decides (P ∧ Q) (p >>= f) := by
  by_cases possible : P
  · obtain ⟨x, rfl⟩ := first.ok possible
    exact (second possible x).of_iff (and_iff_right possible).symm
  · obtain ⟨e, rfl⟩ := first.refused possible
    exact ⟨fun h => absurd h.1 possible, fun _ => ⟨e, rfl⟩⟩

theorem map (h : Decides P p) (f : β → γ) :
    Decides P (p >>= fun x => Except.ok (ε := TensorError) (f x)) :=
  (h.bind fun _ x => pure (f x)).of_iff (and_iff_left trivial)

theorem mapM {f : γ → Except TensorError β} (each : ∀ x, Decides P (f x)) :
    ∀ xs : List γ, Decides (xs ≠ [] → P) (xs.mapM f)
  | [] => (pure ([] : List β)).of_iff (by simp)
  | x :: xs => by
    rw [List.mapM_cons]
    refine ((each x).bind fun _ y => (mapM each xs).map (y :: ·)).of_iff ?_
    simp only [ne_eq, List.cons_ne_nil, not_false_eq_true, true_imp_iff]
    exact and_iff_left_of_imp fun h _ => h

end Decides

theorem Slot.decides_ofSizes (sizes : List Int) (given : sizes ≠ [])
    (rank : sizes.length ≤ Shape.maxRank) (name : String) (filling : Filling α) :
    Decides (∀ n ∈ sizes, 0 < n) (Slot.ofSizes name sizes filling) := by
  constructor
  · intro positive
    rw [Slot.ofSizes, Shape.check_eq_ok.2 ⟨⟨given, rank, positive⟩, rfl⟩]
    exact ⟨_, rfl⟩
  · intro impossible
    rw [Slot.ofSizes]
    cases checked : Shape.check sizes with
    | error e => exact ⟨e, rfl⟩
    | ok s => exact absurd (Shape.check_eq_ok.1 checked).1.2.2 impossible

theorem Slot.decides_row (n : Int) (name : String) (filling : Filling α) :
    Decides (0 < n) (Slot.ofSizes name [n] filling) :=
  (decides_ofSizes [n] (by simp) (show 1 ≤ 8 by decide) name filling).of_iff (by simp)

theorem Slot.decides_table (m n : Int) (name : String) (filling : Filling α) :
    Decides (0 < m ∧ 0 < n) (Slot.ofSizes name [m, n] filling) :=
  (decides_ofSizes [m, n] (by simp) (show 2 ≤ 8 by decide) name filling).of_iff (by simp)

theorem Slot.root_eq_ok [Scalar α] {x : α} (h : ¬ x < 0) : Slot.root x = .ok (Scalar.sqrt x) :=
  if_neg h

variable [Scalar α] [RootedSizes α]

theorem Linear.decides_plan {inputs : Int} (given : 0 < inputs) (outputs : Int) (name : String) :
    Decides (0 < outputs) (Linear.plan (α := α) inputs outputs name) := by
  have divided : Slot.quotient (2.0 : α) inputs = .ok (2.0 / Scalar.ofInt inputs) :=
    if_neg (by simpa using Int.ne_of_gt given)
  have root := Slot.root_eq_ok (RootedSizes.fan (α := α) inputs given)
  rw [Linear.plan, ok_bind divided, ok_bind root]
  refine ((Slot.decides_table outputs inputs _ _).bind fun _ _ =>
    (Slot.decides_row outputs _ _).map _).of_iff ?_
  exact ⟨And.right, fun h => ⟨⟨h, given⟩, h⟩⟩

omit [RootedSizes α] in
theorem LayerNorm.decides_plan (width : Int) (eps : α) (name : String) :
    Decides (0 < width) (LayerNorm.plan width eps name) :=
  ((Slot.decides_row width _ _).bind fun _ _ => (Slot.decides_row width _ _).map _).of_iff
    and_self_iff

omit [RootedSizes α] in
theorem Embedding.decides_plan (rows width : Int) (name : String) :
    Decides (0 < rows ∧ 0 < width) (Embedding.plan (α := α) rows width name) :=
  (Slot.decides_table rows width _ _).map _

theorem FeedForward.decides_plan {width : Int} (given : 0 < width) (inner : Int) (name : String) :
    Decides (0 < inner) (FeedForward.plan (α := α) width inner name) :=
  -- The inner size is a dimension of the first map before it is the inputs of the second.
  ((Linear.decides_plan given inner _).bind fun fed _ =>
    (Linear.decides_plan fed width _).map _).of_iff (and_iff_left given)

theorem MultiHeadAttention.decides_plan {model : Int} (given : 0 < model) (heads : Int)
    (causal : Bool) (name : String) :
    Decides (0 < heads ∧ heads ∣ model)
      (MultiHeadAttention.plan (α := α) model heads causal name) := by
  have split : (decide (heads ≤ 0) || model % heads != 0) = true ↔
      ¬ (0 < heads ∧ heads ∣ model) := by
    rw [Bool.or_eq_true, decide_eq_true_eq, bne_iff_ne, Int.dvd_iff_emod_eq_zero]
    omega
  by_cases fits : 0 < heads ∧ heads ∣ model
  · have positive : 0 < model / heads :=
      Int.ediv_pos_of_pos_of_dvd given (Int.le_of_lt fits.1) fits.2
    have wide : ¬ (model / heads == 0) = true := by simpa using Int.ne_of_gt positive
    have root := Slot.root_eq_ok (RootedSizes.width (α := α) _ positive)
    have project (name : String) := Linear.decides_plan (α := α) given model name
    rw [MultiHeadAttention.plan, if_neg (mt split.1 (not_not.2 fits))]
    refine .of_iff (P := 0 < model) ?_ (iff_of_true given fits)
    change Decides _ (Slot.root _ >>= _)
    rw [ok_bind root, if_neg wide]
    refine ((project _).bind fun _ _ => (project _).bind fun _ _ => (project _).bind fun _ _ =>
      (project _).map _).of_iff (by simp only [and_self])
  · rw [MultiHeadAttention.plan, if_pos (split.2 fits)]
    exact ⟨fun h => absurd h fits, fun _ => ⟨_, rfl⟩⟩

theorem TransformerBlock.decides_plan {model : Int} (given : 0 < model) (heads inner : Int)
    (causal : Bool) (name : String) :
    Decides ((0 < heads ∧ heads ∣ model) ∧ 0 < inner)
      (TransformerBlock.plan (α := α) model heads inner causal name) :=
  ((LayerNorm.decides_plan model _ _).bind fun _ _ =>
    (MultiHeadAttention.decides_plan given heads causal _).bind fun _ _ =>
      (LayerNorm.decides_plan model _ _).bind fun _ _ =>
        (FeedForward.decides_plan given inner _).map _).of_iff (by tauto)

theorem Transformer.decides_plan (c : TransformerConfig) (causal : Bool) :
    Decides c.Buildable (Transformer.plan (α := α) c causal) := by
  refine ((Embedding.decides_plan c.vocabSize c.dModel _).bind fun given _ =>
    (Embedding.decides_plan c.maxSeqLen c.dModel _).bind fun _ _ =>
      (Decides.mapM (fun i => TransformerBlock.decides_plan given.2 c.nHeads c.dFf causal
        s!"blocks.{i}") _).bind fun _ _ =>
        (LayerNorm.decides_plan c.dModel _ _).bind fun _ _ =>
          (Linear.decides_plan given.2 c.vocabSize _).map _).of_iff ?_
  have layered : List.range c.nLayers.toNat ≠ [] ↔ 0 < c.nLayers := by
    rw [Ne, List.range_eq_nil]
    omega
  rw [layered]
  constructor
  · rintro ⟨⟨vocabulary, model⟩, ⟨length, -⟩, blocks, -⟩
    exact ⟨vocabulary, model, length, fun h => (blocks h).1.1, fun h => (blocks h).1.2,
      fun h => (blocks h).2⟩
  · intro h
    exact ⟨⟨h.vocabulary, h.model⟩, ⟨h.length, h.model⟩,
      fun layers => ⟨⟨h.heads layers, h.divides layers⟩, h.inner layers⟩, h.model, h.vocabulary⟩

end DerivativeEngine
