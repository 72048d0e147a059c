import DerivativeEngine.Layer.Kind
import DerivativeEngine.Proofs.Tape.Operands

/-! Plans that succeed. Every slot of a plan has a shape that was checked, and whether a layer is
causal makes no difference to its slots. -/

namespace DerivativeEngine

def Shape.Checked (s : Shape) : Prop := ∃ sizes, Shape.check sizes = .ok s

theorem Shape.check_eq_ok {sizes : List Int} {s : Shape} : Shape.check sizes = .ok s ↔
    (sizes ≠ [] ∧ sizes.length ≤ Shape.maxRank ∧ ∀ n ∈ sizes, 0 < n) ∧
      sizes.map Int.toNat = s := by
  have given : sizes ≠ [] ↔ 1 ≤ sizes.length := List.length_pos_iff.symm
  have ranked : (decide (sizes.length < 1) || decide (Shape.maxRank < sizes.length)) = true ↔
      ¬ (1 ≤ sizes.length ∧ sizes.length ≤ Shape.maxRank) := by
    rw [Bool.or_eq_true, decide_eq_true_eq, decide_eq_true_eq]
    omega
  have small : sizes.any (· ≤ 0) = true ↔ ¬ ∀ n ∈ sizes, 0 < n := by simp
  rw [Shape.check, given]
  by_cases rank : 1 ≤ sizes.length ∧ sizes.length ≤ Shape.maxRank
  · rw [if_neg fun h => ranked.1 h rank]
    by_cases positive : ∀ n ∈ sizes, 0 < n
    · rw [if_neg fun h => small.1 h positive, Except.ok.injEq]
      exact ⟨fun same => ⟨⟨rank.1, rank.2, positive⟩, same⟩, And.right⟩
    · rw [if_pos (small.2 positive)]
      exact ⟨nofun, fun h => absurd h.1.2.2 positive⟩
  · rw [if_pos (ranked.2 rank)]
    exact ⟨nofun, fun h => absurd ⟨h.1.1, h.1.2.1⟩ rank⟩

variable {α : Type} [Scalar α]

open Operation (ok_of_bind)

section Slots

omit [Scalar α]

variable {name : String} {sizes : List Int} {filling : Filling α} {s : Slot α}

theorem Slot.check_of_ofSizes (h : Slot.ofSizes name sizes filling = .ok s) :
    Shape.check sizes = .ok s.shape := by
  unfold Slot.ofSizes at h
  cases check : Shape.check sizes with
  | error e =>
    rw [check] at h
    cases h
  | ok shape =>
    rw [check] at h
    obtain rfl := Except.ok.inj h
    rfl

theorem Slot.checked_of_ofSizes (h : Slot.ofSizes name sizes filling = .ok s) : s.shape.Checked :=
  ⟨sizes, Slot.check_of_ofSizes h⟩

end Slots

theorem Linear.checked_of_plan {inputs outputs : Int} {name : String} {l : Linear (Slot α)}
    (h : Linear.plan inputs outputs name = .ok l) : ∀ s ∈ l.parameters, s.shape.Checked := by
  obtain ⟨quotient, -, h⟩ := ok_of_bind h
  obtain ⟨deviation, -, h⟩ := ok_of_bind h
  obtain ⟨weight, first, h⟩ := ok_of_bind h
  obtain ⟨bias, second, h⟩ := ok_of_bind h
  obtain rfl := Except.ok.inj h
  simp [parameters, Slot.checked_of_ofSizes first, Slot.checked_of_ofSizes second]

theorem Embedding.checked_of_plan {rows width : Int} {name : String} {e : Embedding (Slot α)}
    (h : Embedding.plan rows width name = .ok e) : ∀ s ∈ e.parameters, s.shape.Checked := by
  obtain ⟨weight, first, h⟩ := ok_of_bind h
  obtain rfl := Except.ok.inj h
  simp [parameters, Slot.checked_of_ofSizes first]

theorem LayerNorm.checked_of_plan {width : Int} {eps : α} {name : String}
    {l : LayerNorm α (Slot α)} (h : LayerNorm.plan width eps name = .ok l) :
    ∀ s ∈ l.parameters, s.shape.Checked := by
  obtain ⟨gamma, first, h⟩ := ok_of_bind h
  obtain ⟨beta, second, h⟩ := ok_of_bind h
  obtain rfl := Except.ok.inj h
  simp [parameters, Slot.checked_of_ofSizes first, Slot.checked_of_ofSizes second]

theorem FeedForward.checked_of_plan {width inner : Int} {name : String} {l : FeedForward (Slot α)}
    (h : FeedForward.plan width inner name = .ok l) : ∀ s ∈ l.parameters, s.shape.Checked := by
  obtain ⟨up, first, h⟩ := ok_of_bind h
  obtain ⟨down, second, h⟩ := ok_of_bind h
  obtain rfl := Except.ok.inj h
  exact List.forall_mem_append.2 ⟨Linear.checked_of_plan first, Linear.checked_of_plan second⟩

theorem MultiHeadAttention.of_plan {model heads : Int} {causal : Bool} {name : String}
    {a : MultiHeadAttention α (Slot α)}
    (h : MultiHeadAttention.plan model heads causal name = .ok a) (causal' : Bool) :
    MultiHeadAttention.plan model heads causal' name = .ok { a with causal := causal' } ∧
      ∀ s ∈ a.parameters, s.shape.Checked := by
  unfold MultiHeadAttention.plan at h ⊢
  split at h
  · cases h
  · next divides =>
    rw [if_neg divides]
    obtain ⟨root, hroot, h⟩ := ok_of_bind h
    split at h
    · cases h
    · next positive =>
      obtain ⟨query, first, h⟩ := ok_of_bind h
      obtain ⟨key, second, h⟩ := ok_of_bind h
      obtain ⟨values, third, h⟩ := ok_of_bind h
      obtain ⟨output, fourth, h⟩ := ok_of_bind h
      obtain rfl := Except.ok.inj h
      refine ⟨?_, ?_⟩
      · change (Slot.root (Scalar.ofInt (model / heads)) >>= _) = _
        rw [hroot]
        change (if (model / heads == 0) = true then _ else
          Linear.plan model model (name ++ ".q_proj") >>= _) = _
        rw [if_neg positive, first, second, third, fourth]
        rfl
      · have slots := List.forall_mem_append.2
          ⟨Linear.checked_of_plan first, Linear.checked_of_plan second⟩
        have slots := List.forall_mem_append.2 ⟨slots, Linear.checked_of_plan third⟩
        exact List.forall_mem_append.2 ⟨slots, Linear.checked_of_plan fourth⟩

theorem TransformerBlock.of_plan {model heads inner : Int} {causal : Bool} {name : String}
    {b : TransformerBlock α (Slot α)}
    (h : TransformerBlock.plan model heads inner causal name = .ok b) (causal' : Bool) :
    TransformerBlock.plan model heads inner causal' name =
        .ok { b with attention := { b.attention with causal := causal' } } ∧
      ∀ s ∈ b.parameters, s.shape.Checked := by
  unfold TransformerBlock.plan at h ⊢
  obtain ⟨norm₁, first, h⟩ := ok_of_bind h
  obtain ⟨attention, second, h⟩ := ok_of_bind h
  obtain ⟨norm₂, third, h⟩ := ok_of_bind h
  obtain ⟨feedForward, fourth, h⟩ := ok_of_bind h
  obtain rfl := Except.ok.inj h
  obtain ⟨other, slots⟩ := MultiHeadAttention.of_plan second causal'
  refine ⟨?_, ?_⟩
  · rw [first, other, third, fourth]
    rfl
  · have norms := List.forall_mem_append.2
      ⟨LayerNorm.checked_of_plan first, LayerNorm.checked_of_plan third⟩
    have front := List.forall_mem_append.2 ⟨norms, slots⟩
    exact List.forall_mem_append.2 ⟨front, FeedForward.checked_of_plan fourth⟩

theorem TransformerBlock.of_plans {model heads inner : Int} {causal : Bool} {names : Nat → String}
    (causal' : Bool) : ∀ {is : List Nat} {bs : List (TransformerBlock α (Slot α))},
      is.mapM (fun i => TransformerBlock.plan model heads inner causal (names i)) = .ok bs →
        ∃ bs', is.mapM (fun i => TransformerBlock.plan model heads inner causal' (names i)) =
            .ok bs' ∧ bs'.flatMap parameters = bs.flatMap parameters ∧
          ∀ s ∈ bs.flatMap parameters, s.shape.Checked
  | [], bs, h => by
    obtain rfl := Except.ok.inj h
    exact ⟨[], rfl, rfl, by simp⟩
  | i :: is, bs, h => by
    rw [List.mapM_cons] at h
    obtain ⟨b, first, h⟩ := ok_of_bind h
    obtain ⟨bs, others, h⟩ := ok_of_bind h
    obtain rfl := Except.ok.inj h
    obtain ⟨other, slots⟩ := TransformerBlock.of_plan first causal'
    obtain ⟨bs', others', same, rest⟩ := TransformerBlock.of_plans causal' others
    refine ⟨{ b with attention := { b.attention with causal := causal' } } :: bs', ?_, ?_, ?_⟩
    · rw [List.mapM_cons, other, others']
      rfl
    · rw [List.flatMap_cons, List.flatMap_cons, same]
      rfl
    · rw [List.flatMap_cons]
      exact List.forall_mem_append.2 ⟨slots, rest⟩

theorem Transformer.of_plan {c : TransformerConfig} {causal : Bool} {p : Transformer α (Slot α)}
    (h : Transformer.plan c causal = .ok p) (causal' : Bool) :
    p.config = c ∧ (∀ s ∈ p.parameters, s.shape.Checked) ∧
      ∃ p', Transformer.plan c causal' = .ok p' ∧ p'.parameters = p.parameters := by
  unfold Transformer.plan at h ⊢
  obtain ⟨tokens, first, h⟩ := ok_of_bind h
  obtain ⟨positions, second, h⟩ := ok_of_bind h
  obtain ⟨blocks, third, h⟩ := ok_of_bind h
  obtain ⟨norm, fourth, h⟩ := ok_of_bind h
  obtain ⟨head, fifth, h⟩ := ok_of_bind h
  obtain rfl := Except.ok.inj h
  obtain ⟨blocks', third', same, slots⟩ := TransformerBlock.of_plans causal' third
  refine ⟨rfl, ?_, ⟨c, tokens, positions, blocks', norm, head⟩, ?_, ?_⟩
  · have embeddings := List.forall_mem_append.2
      ⟨Embedding.checked_of_plan first, Embedding.checked_of_plan second⟩
    have front := List.forall_mem_append.2 ⟨embeddings, slots⟩
    have body := List.forall_mem_append.2 ⟨front, LayerNorm.checked_of_plan fourth⟩
    exact List.forall_mem_append.2 ⟨body, Linear.checked_of_plan fifth⟩
  · rw [first, second]
    rw [third', fourth, fifth]
    rfl
  · simp only [Transformer.parameters, same]

end DerivativeEngine
