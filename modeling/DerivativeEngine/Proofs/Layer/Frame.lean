import DerivativeEngine.Proofs.Layer.Plan
import DerivativeEngine.Proofs.Workspace.Filling

/-! A layer as a frame with parameters in it. The frame is what is left when all parameters are made
the same: the sizes, the numbers and the mask of a layer. Two layers are the same if their frames
are and their parameters are, one after the other. A planned layer keeps its frame when its slots
become variables, and the frames of the causal and of the other plan differ only in the mask. -/

namespace DerivativeEngine

variable {α μ ν ρ : Type}

namespace Linear

def map (f : μ → ν) (l : Linear μ) : Linear ν := ⟨f l.weight, f l.bias⟩

theorem parameters_map (f : μ → ν) (l : Linear μ) :
    (l.map f).parameters = l.parameters.map f := rfl

theorem eq_of_parameters {l l' : Linear ν} (parameters : l.parameters = l'.parameters) :
    l = l' := by
  cases l
  cases l'
  simpa [Linear.parameters] using parameters

end Linear

namespace Embedding

def map (f : μ → ν) (e : Embedding μ) : Embedding ν := ⟨f e.weight⟩

theorem parameters_map (f : μ → ν) (e : Embedding μ) :
    (e.map f).parameters = e.parameters.map f := rfl

theorem eq_of_parameters {e e' : Embedding ν} (parameters : e.parameters = e'.parameters) :
    e = e' := by
  cases e
  cases e'
  simpa [Embedding.parameters] using parameters

end Embedding

namespace LayerNorm

def map (f : μ → ν) (l : LayerNorm α μ) : LayerNorm α ν := ⟨l.eps, f l.gamma, f l.beta⟩

theorem parameters_map (f : μ → ν) (l : LayerNorm α μ) :
    (l.map f).parameters = l.parameters.map f := rfl

def frame (l : LayerNorm α ν) : LayerNorm α Unit := l.map fun _ => ()

theorem eq_of_frame {l l' : LayerNorm α ν} (frame : l.frame = l'.frame)
    (parameters : l.parameters = l'.parameters) : l = l' := by
  cases l
  cases l'
  have eps := congrArg LayerNorm.eps frame
  simpa [LayerNorm.parameters, LayerNorm.frame, map] using And.intro eps parameters

end LayerNorm

namespace FeedForward

def map (f : μ → ν) (l : FeedForward μ) : FeedForward ν := ⟨l.first.map f, l.second.map f⟩

theorem parameters_map (f : μ → ν) (l : FeedForward μ) :
    (l.map f).parameters = l.parameters.map f := rfl

theorem eq_of_parameters {l l' : FeedForward ν} (parameters : l.parameters = l'.parameters) :
    l = l' := by
  obtain ⟨first, second⟩ := List.append_inj parameters rfl
  cases l
  cases l'
  obtain rfl := Linear.eq_of_parameters first
  obtain rfl := Linear.eq_of_parameters second
  rfl

end FeedForward

namespace MultiHeadAttention

def map (f : μ → ν) (a : MultiHeadAttention α μ) : MultiHeadAttention α ν :=
  ⟨a.model, a.heads, a.width, a.scale, a.causal, a.query.map f, a.key.map f, a.values.map f,
    a.output.map f⟩

theorem parameters_map (f : μ → ν) (a : MultiHeadAttention α μ) :
    (a.map f).parameters = a.parameters.map f := rfl

def frame (a : MultiHeadAttention α ν) : MultiHeadAttention α Unit := a.map fun _ => ()

def unmasked (a : MultiHeadAttention α ν) : MultiHeadAttention α ν := { a with causal := false }

theorem eq_of_frame {a a' : MultiHeadAttention α ν} (frame : a.frame = a'.frame)
    (parameters : a.parameters = a'.parameters) : a = a' := by
  obtain ⟨front, output⟩ := List.append_inj parameters rfl
  obtain ⟨front, values⟩ := List.append_inj front rfl
  obtain ⟨query, key⟩ := List.append_inj front rfl
  cases a
  cases a'
  obtain rfl := Linear.eq_of_parameters query
  obtain rfl := Linear.eq_of_parameters key
  obtain rfl := Linear.eq_of_parameters values
  obtain rfl := Linear.eq_of_parameters output
  simpa [MultiHeadAttention.frame, map] using frame

end MultiHeadAttention

namespace TransformerBlock

def map (f : μ → ν) (b : TransformerBlock α μ) : TransformerBlock α ν :=
  ⟨b.norm₁.map f, b.attention.map f, b.norm₂.map f, b.feedForward.map f⟩

theorem parameters_map (f : μ → ν) (b : TransformerBlock α μ) :
    (b.map f).parameters = b.parameters.map f := rfl

def frame (b : TransformerBlock α ν) : TransformerBlock α Unit := b.map fun _ => ()

def unmasked (b : TransformerBlock α ν) : TransformerBlock α ν :=
  { b with attention := b.attention.unmasked }

theorem eq_of_frame {b b' : TransformerBlock α ν} (frame : b.frame = b'.frame)
    (parameters : b.parameters = b'.parameters) : b = b' := by
  obtain ⟨front, feedForward⟩ := List.append_inj parameters rfl
  obtain ⟨norms, attention⟩ := List.append_inj front rfl
  obtain ⟨norm₁, norm₂⟩ := List.append_inj norms rfl
  have first : b.norm₁ = b'.norm₁ :=
    LayerNorm.eq_of_frame (congrArg TransformerBlock.norm₁ frame) norm₁
  have second : b.attention = b'.attention :=
    MultiHeadAttention.eq_of_frame (congrArg TransformerBlock.attention frame) attention
  have third : b.norm₂ = b'.norm₂ :=
    LayerNorm.eq_of_frame (congrArg TransformerBlock.norm₂ frame) norm₂
  have fourth : b.feedForward = b'.feedForward := FeedForward.eq_of_parameters feedForward
  cases b
  cases b'
  simp only at first second third fourth
  simp only [first, second, third, fourth]

theorem all_eq_of_frame : ∀ {bs bs' : List (TransformerBlock α ν)},
    bs.map frame = bs'.map frame → bs.flatMap parameters = bs'.flatMap parameters → bs = bs'
  | [], [], _, _ => rfl
  | b :: bs, b' :: bs', frames, parameters => by
    obtain ⟨first, others⟩ := List.cons.inj frames
    have joined : b.parameters ++ bs.flatMap TransformerBlock.parameters =
        b'.parameters ++ bs'.flatMap TransformerBlock.parameters := parameters
    obtain ⟨front, rest⟩ := List.append_inj joined rfl
    rw [eq_of_frame first front, all_eq_of_frame others rest]

end TransformerBlock

namespace Transformer

def map (f : μ → ν) (t : Transformer α μ) : Transformer α ν :=
  ⟨t.config, t.tokens.map f, t.positions.map f, t.blocks.map (TransformerBlock.map f),
    t.norm.map f, t.head.map f⟩

theorem parameters_map (f : μ → ν) (t : Transformer α μ) :
    (t.map f).parameters = t.parameters.map f := by
  simp only [Transformer.parameters, map, List.map_append, List.flatMap_map, List.map_flatMap,
    TransformerBlock.parameters_map, Linear.parameters_map, Embedding.parameters_map,
    LayerNorm.parameters_map]

theorem map_map (f : μ → ν) (g : ν → ρ) (t : Transformer α μ) :
    (t.map f).map g = t.map (g ∘ f) := by
  simp only [map, List.map_map]
  rfl

def frame (t : Transformer α ν) : Transformer α Unit := t.map fun _ => ()

theorem frame_map (f : μ → ν) (t : Transformer α μ) : (t.map f).frame = t.frame :=
  map_map f _ t

def unmasked (t : Transformer α ν) : Transformer α ν :=
  { t with blocks := t.blocks.map TransformerBlock.unmasked }

theorem unmasked_map (f : μ → ν) (t : Transformer α μ) :
    (t.map f).unmasked = t.unmasked.map f := by
  simp only [unmasked, map, List.map_map]
  rfl

theorem parameters_unmasked (t : Transformer α ν) : t.unmasked.parameters = t.parameters := by
  simp only [Transformer.parameters, unmasked, List.flatMap_map]
  rfl

theorem eq_of_frame {t t' : Transformer α ν} (frame : t.frame = t'.frame)
    (parameters : t.parameters = t'.parameters) : t = t' := by
  obtain ⟨front, head⟩ := List.append_inj' parameters rfl
  obtain ⟨front, norm⟩ := List.append_inj' front rfl
  obtain ⟨embeddings, blocks⟩ := List.append_inj front rfl
  obtain ⟨tokens, positions⟩ := List.append_inj embeddings rfl
  have first : t.config = t'.config := by
    change t.frame.config = t'.frame.config
    rw [frame]
  have second : t.tokens = t'.tokens := Embedding.eq_of_parameters tokens
  have third : t.positions = t'.positions := Embedding.eq_of_parameters positions
  have fourth : t.blocks = t'.blocks :=
    TransformerBlock.all_eq_of_frame (congrArg Transformer.blocks frame) blocks
  have fifth : t.norm = t'.norm :=
    LayerNorm.eq_of_frame (congrArg Transformer.norm frame) norm
  have sixth : t.head = t'.head := Linear.eq_of_parameters head
  cases t
  cases t'
  simp only at first second third fourth fifth sixth
  simp only [first, second, third, fourth, fifth, sixth]

end Transformer

section Plans

variable [Scalar α]

theorem TransformerBlock.plans_unmasked {model heads inner : Int} {causal : Bool}
    {names : Nat → String} : ∀ {is : List Nat} {bs : List (TransformerBlock α (Slot α))},
      is.mapM (fun i => TransformerBlock.plan model heads inner causal (names i)) = .ok bs →
        is.mapM (fun i => TransformerBlock.plan model heads inner false (names i)) =
          .ok (bs.map unmasked)
  | [], bs, h => by
    obtain rfl := Except.ok.inj h
    rfl
  | i :: is, bs, h => by
    rw [List.mapM_cons] at h
    obtain ⟨b, first, h⟩ := Operation.ok_of_bind h
    obtain ⟨bs, others, h⟩ := Operation.ok_of_bind h
    obtain rfl := Except.ok.inj h
    rw [List.mapM_cons, (TransformerBlock.of_plan first false).1, plans_unmasked others]
    rfl

theorem Transformer.plan_unmasked {c : TransformerConfig} {causal : Bool}
    {p : Transformer α (Slot α)} (h : Transformer.plan c causal = .ok p) :
    Transformer.plan c false = .ok p.unmasked := by
  unfold Transformer.plan at h ⊢
  obtain ⟨tokens, first, h⟩ := Operation.ok_of_bind h
  obtain ⟨positions, second, h⟩ := Operation.ok_of_bind h
  obtain ⟨blocks, third, h⟩ := Operation.ok_of_bind h
  obtain ⟨norm, fourth, h⟩ := Operation.ok_of_bind h
  obtain ⟨head, fifth, h⟩ := Operation.ok_of_bind h
  obtain rfl := Except.ok.inj h
  rw [first, second]
  rw [TransformerBlock.plans_unmasked third, fourth, fifth]
  rfl

structure MultiHeadAttention.Planned (model heads : Int) (causal : Bool)
    (a : MultiHeadAttention α (Slot α)) : Prop where
  divides : 0 < heads ∧ heads ∣ model
  width : a.width = model / heads ∧ a.width ≠ 0
  scale : ∃ root, Slot.root (Scalar.ofInt a.width) = .ok root ∧ a.scale = 1 / root
  query : ∃ name, Linear.plan model model name = .ok a.query
  key : ∃ name, Linear.plan model model name = .ok a.key
  values : ∃ name, Linear.plan model model name = .ok a.values
  output : ∃ name, Linear.plan model model name = .ok a.output
  model : a.model = model
  heads : a.heads = heads
  causal : a.causal = causal

theorem MultiHeadAttention.planned {model heads : Int} {causal : Bool} {name : String}
    {a : MultiHeadAttention α (Slot α)}
    (h : MultiHeadAttention.plan model heads causal name = .ok a) :
    MultiHeadAttention.Planned model heads causal a := by
  unfold MultiHeadAttention.plan at h
  split at h
  · cases h
  · next divides =>
    simp only [Bool.or_eq_true, decide_eq_true_eq, bne_iff_ne, ne_eq, not_or, Decidable.not_not,
      Int.not_le] at divides
    obtain ⟨root, taken, h⟩ := Operation.ok_of_bind h
    split at h
    · cases h
    · next nonzero =>
      obtain ⟨query, first, h⟩ := Operation.ok_of_bind h
      obtain ⟨key, second, h⟩ := Operation.ok_of_bind h
      obtain ⟨values, third, h⟩ := Operation.ok_of_bind h
      obtain ⟨output, fourth, h⟩ := Operation.ok_of_bind h
      obtain rfl := Except.ok.inj h
      exact
        { divides := ⟨divides.1, Int.dvd_of_emod_eq_zero divides.2⟩
          width := ⟨rfl, by simpa using nonzero⟩
          scale := ⟨root, taken, rfl⟩
          query := ⟨_, first⟩
          key := ⟨_, second⟩
          values := ⟨_, third⟩
          output := ⟨_, fourth⟩
          model := rfl
          heads := rfl
          causal := rfl }

theorem TransformerBlock.exists_plan {model heads inner : Int} {causal : Bool}
    {names : Nat → String} : ∀ {is : List Nat} {bs : List (TransformerBlock α (Slot α))},
      is.mapM (fun i => TransformerBlock.plan model heads inner causal (names i)) = .ok bs →
        bs.length = is.length ∧
          ∀ b ∈ bs, ∃ name, TransformerBlock.plan model heads inner causal name = .ok b
  | [], bs, h => by
    obtain rfl := Except.ok.inj h
    exact ⟨rfl, List.forall_mem_nil _⟩
  | i :: is, bs, h => by
    rw [List.mapM_cons] at h
    obtain ⟨b, first, h⟩ := Operation.ok_of_bind h
    obtain ⟨bs, others, h⟩ := Operation.ok_of_bind h
    obtain rfl := Except.ok.inj h
    obtain ⟨length, plans⟩ := exists_plan others
    exact ⟨congrArg (· + 1) length, List.forall_mem_cons.2 ⟨⟨_, first⟩, plans⟩⟩

structure Transformer.Planned (c : TransformerConfig) (causal : Bool) (p : Transformer α (Slot α)) :
    Prop where
  tokens : ∃ name, Embedding.plan c.vocabSize c.dModel name = .ok p.tokens
  positions : ∃ name, Embedding.plan c.maxSeqLen c.dModel name = .ok p.positions
  blocks : ∀ b ∈ p.blocks, ∃ name,
    TransformerBlock.plan c.dModel c.nHeads c.dFf causal name = .ok b
  norm : ∃ name, LayerNorm.plan c.dModel LayerNorm.defaultEps name = .ok p.norm
  head : ∃ name, Linear.plan c.dModel c.vocabSize name = .ok p.head
  config : p.config = c
  layers : p.blocks.length = c.nLayers.toNat

theorem Transformer.planned {c : TransformerConfig} {causal : Bool} {p : Transformer α (Slot α)}
    (h : Transformer.plan c causal = .ok p) : Transformer.Planned c causal p := by
  obtain ⟨tokens, first, h⟩ := Operation.ok_of_bind h
  obtain ⟨positions, second, h⟩ := Operation.ok_of_bind h
  obtain ⟨blocks, third, h⟩ := Operation.ok_of_bind h
  obtain ⟨norm, fourth, h⟩ := Operation.ok_of_bind h
  obtain ⟨head, fifth, h⟩ := Operation.ok_of_bind h
  obtain rfl := Except.ok.inj h
  obtain ⟨length, plans⟩ := TransformerBlock.exists_plan third
  exact ⟨⟨_, first⟩, ⟨_, second⟩, plans, ⟨_, fourth⟩, ⟨_, fifth⟩, rfl,
    length.trans List.length_range⟩

theorem Transformer.causal_of_plan {c : TransformerConfig} {causal : Bool}
    {p : Transformer α (Slot α)} (h : Transformer.plan c causal = .ok p) :
    ∀ b ∈ p.blocks, b.attention.causal = causal := by
  intro b hb
  obtain ⟨name, plan⟩ := (Transformer.planned h).blocks b hb
  have same := Except.ok.inj (plan.symm.trans (TransformerBlock.of_plan plan causal).1)
  exact congrArg (fun b => b.attention.causal) same

end Plans

namespace Session

variable {f : μ → Session α ν} {w w' : Workspace α}

theorem frame_layerNorm {l : LayerNorm α μ} {l' : LayerNorm α ν}
    (run : outcome (l.mapM f) w = (.ok l', w')) : l'.frame = l.frame := by
  rw [LayerNorm.mapM, outcome_bind_eq_ok] at run
  obtain ⟨gamma, _, -, run⟩ := run
  rw [outcome_bind_eq_ok] at run
  obtain ⟨beta, _, -, run⟩ := run
  obtain ⟨rfl, -⟩ := outcome_pure_eq_ok.1 run
  rfl

theorem frame_attention {a : MultiHeadAttention α μ} {a' : MultiHeadAttention α ν}
    (run : outcome (a.mapM f) w = (.ok a', w')) : a'.frame = a.frame := by
  rw [MultiHeadAttention.mapM, outcome_bind_eq_ok] at run
  obtain ⟨query, _, -, run⟩ := run
  rw [outcome_bind_eq_ok] at run
  obtain ⟨key, _, -, run⟩ := run
  rw [outcome_bind_eq_ok] at run
  obtain ⟨values, _, -, run⟩ := run
  rw [outcome_bind_eq_ok] at run
  obtain ⟨output, _, -, run⟩ := run
  obtain ⟨rfl, -⟩ := outcome_pure_eq_ok.1 run
  rfl

theorem frame_block {b : TransformerBlock α μ} {b' : TransformerBlock α ν}
    (run : outcome (b.mapM f) w = (.ok b', w')) : b'.frame = b.frame := by
  rw [TransformerBlock.mapM, outcome_bind_eq_ok] at run
  obtain ⟨norm₁, _, first, run⟩ := run
  rw [outcome_bind_eq_ok] at run
  obtain ⟨attention, _, second, run⟩ := run
  rw [outcome_bind_eq_ok] at run
  obtain ⟨norm₂, _, third, run⟩ := run
  rw [outcome_bind_eq_ok] at run
  obtain ⟨feedForward, _, -, run⟩ := run
  obtain ⟨rfl, -⟩ := outcome_pure_eq_ok.1 run
  have first : norm₁.map (fun _ => ()) = b.norm₁.map fun _ => () := frame_layerNorm first
  have second : attention.map (fun _ => ()) = b.attention.map fun _ => () :=
    frame_attention second
  have third : norm₂.map (fun _ => ()) = b.norm₂.map fun _ => () := frame_layerNorm third
  simp only [TransformerBlock.frame, TransformerBlock.map, first, second, third]
  rfl

theorem frame_blocks : ∀ {bs : List (TransformerBlock α μ)} {bs' : List (TransformerBlock α ν)}
    {w w' : Workspace α}, outcome (bs.mapM (TransformerBlock.mapM f)) w = (.ok bs', w') →
      bs'.map TransformerBlock.frame = bs.map TransformerBlock.frame
  | [], _, _, _, run => by
    obtain ⟨rfl, -⟩ := outcome_pure_eq_ok.1 run
    rfl
  | b :: bs, _, _, _, run => by
    rw [List.mapM_cons, outcome_bind_eq_ok] at run
    obtain ⟨b', _, first, run⟩ := run
    rw [outcome_bind_eq_ok] at run
    obtain ⟨bs', _, others, run⟩ := run
    obtain ⟨rfl, -⟩ := outcome_pure_eq_ok.1 run
    rw [List.map_cons, List.map_cons, frame_block first, frame_blocks others]

theorem frame_transformer {t : Transformer α μ} {t' : Transformer α ν}
    (run : outcome (t.mapM f) w = (.ok t', w')) : t'.frame = t.frame := by
  rw [Transformer.mapM, outcome_bind_eq_ok] at run
  obtain ⟨tokens, _, -, run⟩ := run
  rw [outcome_bind_eq_ok] at run
  obtain ⟨positions, _, -, run⟩ := run
  rw [outcome_bind_eq_ok] at run
  obtain ⟨blocks, _, middle, run⟩ := run
  rw [outcome_bind_eq_ok] at run
  obtain ⟨norm, _, last, run⟩ := run
  rw [outcome_bind_eq_ok] at run
  obtain ⟨head, _, -, run⟩ := run
  obtain ⟨rfl, -⟩ := outcome_pure_eq_ok.1 run
  have middle : blocks.map (TransformerBlock.map fun _ => ()) =
      t.blocks.map (TransformerBlock.map fun _ => ()) := frame_blocks middle
  have last : norm.map (fun _ => ()) = t.norm.map fun _ => () := frame_layerNorm last
  simp only [Transformer.frame, Transformer.map, middle, last]
  rfl

end Session

end DerivativeEngine
