import DerivativeEngine.Proofs.Workspace.Recorded

/-! Layers recorded in a workspace. Whatever is known of the variables that stand for arrays, and of
what an operation makes of them, is then known of the layers: a layer does to variables what it does
to the arrays they stand for. That variables hold these arrays is the least that can be known, and
so layers compute on variables what they compute on arrays. -/

namespace DerivativeEngine

variable {α : Type} [Scalar α]

/-- A way to follow a run in stages, each with a workspace and with variables that stand for the
arrays they hold. What stands for an array does so at every later stage, and so does what a simple
operation makes. -/
structure Reading (α : Type) [Scalar α] where
  Stage : Type
  space : Stage → Workspace α
  Later : Stage → Stage → Prop
  Stands : Stage → VariableId → NDArray α → Prop
  /-- What is asked of the numbers that belong to an operation. -/
  number : α → Prop
  refl : ∀ s, Later s s
  trans : ∀ {s s' s''}, Later s s' → Later s' s'' → Later s s''
  stays : ∀ {s s' v x}, Stands s v x → Later s s' → Stands s' v x
  held : ∀ {s v x}, Stands s v x → (space s).Held v x
  starts : ∀ s, ∃ c s', Session.outcome Session.current (space s) = (.ok c, space s') ∧ Later s s'
  applies : ∀ {s y} {op : Operation α VariableId}, op.Simple number →
    (∀ v ∈ op.operands, ∃ x, Stands s v x) →
    Interpretation.arrays.apply (op.map (space s).valueOf) = .ok y →
    ∃ v s', Session.outcome (Session.apply op) (space s) = (.ok v, space s') ∧ Later s s' ∧
      Stands s' v y

namespace Reading

open Interpretation (arrays)
open Operation (ok_of_bind)
open Session (outcome_bind_ok recording)

variable {R : Reading α} {s : R.Stage} {v : VariableId} {x y : NDArray α}
  {f : VariableId → NDArray α}

def Gives (R : Reading α) (s : R.Stage) (p : Session α VariableId)
    (K : R.Stage → VariableId → Prop) : Prop :=
  ∃ v s', Session.outcome p (R.space s) = (.ok v, R.space s') ∧ R.Later s s' ∧ K s' v

abbrev Computes (R : Reading α) (s : R.Stage) (p : Session α VariableId) (x : NDArray α) : Prop :=
  R.Gives s p fun s' v => R.Stands s' v x

theorem Gives.bind {K L : R.Stage → VariableId → Prop} {p : Session α VariableId}
    {g : VariableId → Session α VariableId} (first : R.Gives s p K)
    (second : ∀ v s', R.Later s s' → K s' v → R.Gives s' (g v) L) : R.Gives s (p >>= g) L := by
  obtain ⟨v, s₁, run, later, known⟩ := first
  obtain ⟨u, s₂, run', later', known'⟩ := second v s₁ later known
  exact ⟨u, s₂, (outcome_bind_ok run g).trans run', R.trans later later', known'⟩

theorem Gives.after {β : Type} {K : R.Stage → VariableId → Prop} {p : Session α β}
    {g : β → Session α VariableId} {z : β}
    (read : Session.outcome p (R.space s) = (.ok z, R.space s)) (h : R.Gives s (g z) K) :
    R.Gives s (p >>= g) K := by
  obtain ⟨v, s', run, later, known⟩ := h
  exact ⟨v, s', (outcome_bind_ok read g).trans run, later, known⟩

theorem computes_unary (op : VariableId → Operation α VariableId)
    {op' : NDArray α → Operation α (NDArray α)} (single : ∀ u, (op u).operands = [u])
    (maps : ∀ u g, (op u).map g = op' (g u)) (simple : (op v).Simple R.number)
    (hx : R.Stands s v x) (ok : arrays.apply (op' x) = .ok y) :
    R.Computes s (Session.apply (op v)) y := by
  refine R.applies simple ?_ ?_
  · rw [single]
    exact List.forall_mem_singleton.2 ⟨x, hx⟩
  · rw [maps, (R.held hx).valueOf]
    exact ok

theorem computes_binary (op : VariableId → VariableId → Operation α VariableId)
    {op' : NDArray α → NDArray α → Operation α (NDArray α)}
    (both : ∀ u u', (op u u').operands = [u, u'])
    (maps : ∀ u u' g, (op u u').map g = op' (g u) (g u')) {v' : VariableId} {x' : NDArray α}
    (simple : (op v v').Simple R.number) (hx : R.Stands s v x) (hx' : R.Stands s v' x')
    (ok : arrays.apply (op' x x') = .ok y) : R.Computes s (Session.apply (op v v')) y := by
  refine R.applies simple ?_ ?_
  · rw [both]
    exact List.forall_mem_cons.2 ⟨⟨x, hx⟩, List.forall_mem_singleton.2 ⟨x', hx'⟩⟩
  · rw [maps, (R.held hx).valueOf, (R.held hx').valueOf]
    exact ok

theorem computes_linear {l : Linear VariableId} (stands : ∀ u ∈ l.parameters, R.Stands s u (f u))
    (hx : R.Stands s v x) (ok : (l.map f).call arrays x = .ok y) :
    R.Computes s (l.call recording v) y := by
  have weight : R.Stands s l.weight (f l.weight) := stands _ (by simp [Linear.parameters])
  have bias : R.Stands s l.bias (f l.bias) := stands _ (by simp [Linear.parameters])
  obtain ⟨turned, transposed, ok⟩ := ok_of_bind ok
  obtain ⟨product, multiplied, ok⟩ := ok_of_bind ok
  refine (computes_unary .transpose (fun _ => rfl) (fun _ _ => rfl) trivial weight
    transposed).bind fun t s₁ later₁ ht => ?_
  refine (computes_binary .matmul (fun _ _ => rfl) (fun _ _ _ => rfl) trivial
    (R.stays hx later₁) ht multiplied).bind fun u s₂ later₂ hu => ?_
  exact computes_binary .add (fun _ _ => rfl) (fun _ _ _ => rfl) trivial hu
    (R.stays bias (R.trans later₁ later₂)) ok

theorem computes_embedding {e : Embedding VariableId} {indices : List Int}
    (stands : ∀ u ∈ e.parameters, R.Stands s u (f u))
    (ok : (e.map f).call arrays indices = .ok y) :
    R.Computes s (e.call recording indices) y :=
  computes_unary (.embedding indices) (fun _ => rfl) (fun _ _ => rfl) trivial
    (stands e.weight (by simp [Embedding.parameters])) ok

theorem computes_layerNorm {l : LayerNorm α VariableId} (eps : R.number l.eps)
    (stands : ∀ u ∈ l.parameters, R.Stands s u (f u)) (hx : R.Stands s v x)
    (ok : (l.map f).call arrays x = .ok y) : R.Computes s (l.call recording v) y := by
  have gamma : R.Stands s l.gamma (f l.gamma) := stands _ (by simp [LayerNorm.parameters])
  have beta : R.Stands s l.beta (f l.beta) := stands _ (by simp [LayerNorm.parameters])
  refine @Reading.applies _ _ R s y (.layerNorm l.eps v l.gamma l.beta) eps ?_ ?_
  · exact List.forall_mem_cons.2 ⟨⟨x, hx⟩, List.forall_mem_cons.2 ⟨⟨_, gamma⟩,
      List.forall_mem_singleton.2 ⟨_, beta⟩⟩⟩
  · change arrays.apply (.layerNorm l.eps ((R.space s).valueOf v) ((R.space s).valueOf l.gamma)
      ((R.space s).valueOf l.beta)) = _
    rw [(R.held hx).valueOf, (R.held gamma).valueOf, (R.held beta).valueOf]
    exact ok

theorem computes_feedForward {l : FeedForward VariableId}
    (stands : ∀ u ∈ l.parameters, R.Stands s u (f u)) (hx : R.Stands s v x)
    (ok : (l.map f).call arrays x = .ok y) : R.Computes s (l.call recording v) y := by
  obtain ⟨first, second⟩ := List.forall_mem_append.1 stands
  obtain ⟨inner, fed, ok⟩ := ok_of_bind ok
  obtain ⟨positive, rectified, ok⟩ := ok_of_bind ok
  refine (computes_linear first hx fed).bind fun t s₁ later₁ ht => ?_
  refine (computes_unary .relu (fun _ => rfl) (fun _ _ => rfl) trivial ht
    rectified).bind fun u s₂ later₂ hu => ?_
  exact computes_linear (fun u hu => R.stays (second u hu) (R.trans later₁ later₂)) hu ok

theorem computes_project {a : MultiHeadAttention α VariableId} {rows : Nat} {l : Linear VariableId}
    (stands : ∀ u ∈ l.parameters, R.Stands s u (f u)) (hx : R.Stands s v x)
    (ok : (a.map f).project arrays rows (l.map f) x = .ok y) :
    R.Computes s (a.project recording rows l v) y := by
  obtain ⟨projected, first, ok⟩ := ok_of_bind ok
  exact (computes_linear stands hx first).bind fun u s₁ _ hu =>
    computes_unary (.reshape [rows, a.heads, a.width]) (fun _ => rfl) (fun _ _ => rfl) trivial hu ok

def Attends (R : Reading α) (s : R.Stage) (f : VariableId → NDArray α)
    (a : MultiHeadAttention α VariableId) : Prop :=
  ∀ s' v x y, R.Later s s' → R.Stands s' v x → (a.map f).call arrays x = .ok y →
    R.Computes s' (a.call recording v) y

structure Scores (R : Reading α) (s : R.Stage) (f : VariableId → NDArray α)
    (a : MultiHeadAttention α VariableId) (K S : R.Stage → VariableId → NDArray α → Prop) :
    Prop where
  stays : ∀ s' s'' v x, K s' v x → R.Later s' s'' → K s'' v x
  key : ∀ s' v x y, R.Later s s' → R.Stands s' v x →
    (a.map f).project arrays (x.shape.dim 0) (a.key.map f) x = .ok y →
    R.Gives s' (a.project recording (x.shape.dim 0) a.key v) fun s'' u => K s'' u y
  scores : ∀ s' q k x y z, R.Stands s' q x → K s' k y →
    arrays.apply (.attentionScores a.scale a.causal x y) = .ok z →
    R.Gives s' (Session.apply (.attentionScores a.scale a.causal q k)) fun s'' u => S s'' u z
  weights : ∀ s' v x y, S s' v x → arrays.apply (.softmax x) = .ok y →
    R.Computes s' (Session.apply (.softmax v)) y

theorem Scores.attends {a : MultiHeadAttention α VariableId}
    {K S : R.Stage → VariableId → NDArray α → Prop} (h : R.Scores s f a K S)
    (query : ∀ u ∈ a.query.parameters, R.Stands s u (f u))
    (values : ∀ u ∈ a.values.parameters, R.Stands s u (f u))
    (output : ∀ u ∈ a.output.parameters, R.Stands s u (f u)) : R.Attends s f a := by
  intro s₀ v x y later₀ hx ok
  obtain ⟨shape, found, ok⟩ := ok_of_bind ok
  obtain rfl : x.shape = shape := Except.ok.inj found
  obtain ⟨_, first, ok⟩ := ok_of_bind ok
  obtain ⟨_, second, ok⟩ := ok_of_bind ok
  obtain ⟨_, third, ok⟩ := ok_of_bind ok
  obtain ⟨_, scored, ok⟩ := ok_of_bind ok
  obtain ⟨_, weighted, ok⟩ := ok_of_bind ok
  obtain ⟨_, applied, ok⟩ := ok_of_bind ok
  obtain ⟨_, reshaped, ok⟩ := ok_of_bind ok
  have rows : Session.outcome (recording.shape v) (R.space s₀) = (.ok x.shape, R.space s₀) := by
    rw [(R.held hx).shape]
    rfl
  refine .after rows ?_
  refine (computes_project (fun u hu => R.stays (query u hu) later₀) hx
    first).bind fun q s₁ later₁ hq => ?_
  have later₁' := R.trans later₀ later₁
  refine (h.key s₁ v x _ later₁' (R.stays hx later₁) second).bind fun k s₂ later₂ hk => ?_
  have later₂' := R.trans later₁' later₂
  refine (computes_project (fun u hu => R.stays (values u hu) later₂')
    (R.stays hx (R.trans later₁ later₂)) third).bind fun z s₃ later₃ hz => ?_
  refine (h.scores s₃ q k _ _ _ (R.stays hq (R.trans later₂ later₃)) (h.stays _ _ _ _ hk later₃)
    scored).bind fun m s₄ later₄ hm => ?_
  refine (h.weights s₄ m _ _ hm weighted).bind fun t s₅ later₅ ht => ?_
  refine (computes_binary .attentionApply (fun _ _ => rfl) (fun _ _ _ => rfl) trivial ht
    (R.stays hz (R.trans later₄ later₅)) applied).bind fun m s₆ later₆ hm => ?_
  refine (computes_unary (.reshape [x.shape.dim 0, a.model]) (fun _ => rfl) (fun _ _ => rfl)
    trivial hm reshaped).bind fun j s₇ later₇ hj => ?_
  have later₇' := R.trans (R.trans (R.trans later₂' later₃) (R.trans later₄ later₅))
    (R.trans later₆ later₇)
  exact computes_linear (fun u hu => R.stays (output u hu) later₇') hj ok

structure Supports (R : Reading α) (s : R.Stage) (f : VariableId → NDArray α)
    (b : TransformerBlock α VariableId) : Prop where
  eps : R.number b.norm₁.eps ∧ R.number b.norm₂.eps
  norm₁ : ∀ u ∈ b.norm₁.parameters, R.Stands s u (f u)
  norm₂ : ∀ u ∈ b.norm₂.parameters, R.Stands s u (f u)
  attends : R.Attends s f b.attention
  feedForward : ∀ u ∈ b.feedForward.parameters, R.Stands s u (f u)

theorem Supports.later {s' : R.Stage} {b : TransformerBlock α VariableId} (h : R.Supports s f b)
    (later : R.Later s s') : R.Supports s' f b where
  eps := h.eps
  norm₁ u hu := R.stays (h.norm₁ u hu) later
  norm₂ u hu := R.stays (h.norm₂ u hu) later
  attends s'' v x y later' := h.attends s'' v x y (R.trans later later')
  feedForward u hu := R.stays (h.feedForward u hu) later

theorem computes_block {b : TransformerBlock α VariableId} (supports : R.Supports s f b)
    (hx : R.Stands s v x) (ok : (b.map f).call arrays x = .ok y) :
    R.Computes s (b.call recording v) y := by
  obtain ⟨normed₁, first, ok⟩ := ok_of_bind ok
  obtain ⟨attended, second, ok⟩ := ok_of_bind ok
  obtain ⟨middle, added, ok⟩ := ok_of_bind ok
  obtain ⟨normed₂, third, ok⟩ := ok_of_bind ok
  obtain ⟨fed, fourth, ok⟩ := ok_of_bind ok
  refine (computes_layerNorm supports.eps.1 supports.norm₁ hx
    first).bind fun n s₁ later₁ hn => ?_
  refine (supports.attends s₁ n _ _ later₁ hn second).bind fun a s₂ later₂ ha => ?_
  have later₂' := R.trans later₁ later₂
  refine (computes_binary .add (fun _ _ => rfl) (fun _ _ _ => rfl) trivial
    (R.stays hx later₂') ha added).bind fun m s₃ later₃ hm => ?_
  have supports₃ := supports.later (R.trans later₂' later₃)
  refine (computes_layerNorm supports₃.eps.2 supports₃.norm₂ hm
    third).bind fun n' s₄ later₄ hn' => ?_
  refine (computes_feedForward (supports₃.later later₄).feedForward hn'
    fourth).bind fun g s₅ later₅ hg => ?_
  exact computes_binary .add (fun _ _ => rfl) (fun _ _ _ => rfl) trivial
    (R.stays hm (R.trans later₄ later₅)) hg ok

theorem computes_blocks : ∀ {bs : List (TransformerBlock α VariableId)} {s : R.Stage}
    {v : VariableId} {x : NDArray α}, (∀ b ∈ bs, R.Supports s f b) → R.Stands s v x →
      Transformer.runBlocks arrays (bs.map (TransformerBlock.map f)) x = .ok y →
        R.Computes s (Transformer.runBlocks recording bs v) y
  | [], s, v, x, _, hx, ok => by
    obtain rfl : x = y := Except.ok.inj ok
    exact ⟨v, s, rfl, R.refl s, hx⟩
  | b :: bs, s, v, x, supports, hx, ok => by
    obtain ⟨here, others⟩ := List.forall_mem_cons.1 supports
    obtain ⟨z, first, ok⟩ := ok_of_bind ok
    exact (computes_block here hx first).bind fun u s₁ later hu =>
      computes_blocks (fun b hb => (others b hb).later later) hu ok

/-- What a model asks for, with its attention layers as they may be. -/
structure SupportsModel (R : Reading α) (s : R.Stage) (f : VariableId → NDArray α)
    (t : Transformer α VariableId) : Prop where
  tokens : ∀ u ∈ t.tokens.parameters, R.Stands s u (f u)
  positions : ∀ u ∈ t.positions.parameters, R.Stands s u (f u)
  blocks : ∀ b ∈ t.blocks, R.Supports s f b
  eps : R.number t.norm.eps
  norm : ∀ u ∈ t.norm.parameters, R.Stands s u (f u)
  head : ∀ u ∈ t.head.parameters, R.Stands s u (f u)

theorem SupportsModel.later {s' : R.Stage} {t : Transformer α VariableId}
    (h : R.SupportsModel s f t) (later : R.Later s s') : R.SupportsModel s' f t where
  tokens u hu := R.stays (h.tokens u hu) later
  positions u hu := R.stays (h.positions u hu) later
  blocks b hb := (h.blocks b hb).later later
  eps := h.eps
  norm u hu := R.stays (h.norm u hu) later
  head u hu := R.stays (h.head u hu) later

theorem computes_transformer {t : Transformer α VariableId} {tokens : List Int}
    (supports : R.SupportsModel s f t) (ok : (t.map f).logits arrays tokens = .ok y) :
    R.Computes s (t.logits recording tokens) y := by
  obtain ⟨looked, first, ok⟩ := ok_of_bind ok
  obtain ⟨placed, second, ok⟩ := ok_of_bind ok
  obtain ⟨embedded, added, ok⟩ := ok_of_bind ok
  obtain ⟨last, run, ok⟩ := ok_of_bind ok
  obtain ⟨normed, third, ok⟩ := ok_of_bind ok
  refine (computes_embedding supports.tokens first).bind fun e s₁ later₁ he => ?_
  refine (computes_embedding (fun u hu => R.stays (supports.positions u hu) later₁)
    second).bind fun p s₂ later₂ hp => ?_
  refine (computes_binary .add (fun _ _ => rfl) (fun _ _ _ => rfl) trivial
    (R.stays he later₂) hp added).bind fun m s₃ later₃ hm => ?_
  have later₃' := R.trans (R.trans later₁ later₂) later₃
  refine (computes_blocks (fun b hb => (supports.blocks b hb).later later₃') hm
    run).bind fun b s₄ later₄ hb => ?_
  have later₄' := R.trans later₃' later₄
  refine (computes_layerNorm supports.eps (fun u hu => R.stays (supports.norm u hu) later₄') hb
    third).bind fun n s₅ later₅ hn => ?_
  exact computes_linear (fun u hu => R.stays (supports.head u hu) (R.trans later₄' later₅)) hn ok

/-- A model whose parameters have the right shapes gives its logits for every sequence it takes. -/
theorem computes_logits {t : Transformer α VariableId} {tokens : List Int}
    (supports : R.SupportsModel s f t) (fits : ((t.map f).map NDArray.shape).Fits)
    (takes : t.config.Takes tokens) :
    R.Computes s (Session.logits t tokens) ((t.map f).value tokens) := by
  obtain ⟨c, s₁, found, later⟩ := R.starts s
  have length : Session.outcome (Session.ofShape (α := α)
      (Transformer.checkLength t.config tokens)) (R.space s₁) = (.ok (), R.space s₁) := by
    have nonempty := takes.nonempty
    have short := takes.length
    have fitsLength : (decide (0 < (tokens.length : Int)) &&
        decide ((tokens.length : Int) ≤ t.config.maxSeqLen)) = true := by
      simp only [Bool.and_eq_true, decide_eq_true_eq]
      omega
    rw [Transformer.checkLength, if_pos fitsLength]
    rfl
  have computed := computes_transformer (supports.later later)
    (Transformer.logits_arrays fits takes)
  obtain ⟨v, s₂, run, later', stands⟩ := Gives.after (g := fun _ => t.logits recording tokens)
    length computed
  exact ⟨v, s₂, (outcome_bind_ok found _).trans run, R.trans later later', stands⟩

def plain (α : Type) [Scalar α] : Reading α where
  Stage := Workspace α
  space := id
  Later := Workspace.Continues
  Stands := Workspace.Held
  number _ := True
  refl := .refl
  trans := .trans
  stays := .continue
  held := id
  starts := Session.outcome_current_continues
  applies _ := Session.computes_apply

end Reading

namespace Session

open Interpretation (arrays)

variable {w : Workspace α} {v : VariableId} {x y : NDArray α} {f : VariableId → NDArray α}

theorem attends_plain {a : MultiHeadAttention α VariableId}
    (held : ∀ u ∈ a.parameters, w.Held u (f u)) : (Reading.plain α).Attends w f a := by
  obtain ⟨held, output⟩ := List.forall_mem_append.1 held
  obtain ⟨held, values⟩ := List.forall_mem_append.1 held
  obtain ⟨query, key⟩ := List.forall_mem_append.1 held
  have scores : (Reading.plain α).Scores w f a Workspace.Held Workspace.Held :=
    { stays := fun _ _ _ _ hk later => hk.continue later
      key := fun w' v x y later hx ok => Reading.computes_project
        (R := .plain α) (fun u hu => (key u hu).continue later) hx ok
      scores := fun w' q k x y z hq hk ok => by
        refine computes_apply (List.forall_mem_cons.2 ⟨⟨x, hq⟩,
          List.forall_mem_singleton.2 ⟨y, hk⟩⟩) ?_
        change arrays.apply (.attentionScores _ _ (w'.valueOf q) (w'.valueOf k)) = _
        rwa [hq.valueOf, hk.valueOf]
      weights := fun w' v x y hx ok =>
        Reading.computes_unary (R := .plain α) .softmax (fun _ => rfl) (fun _ _ => rfl) trivial hx
          ok }
  exact scores.attends query values output

theorem computes_attention {a : MultiHeadAttention α VariableId}
    (held : ∀ u ∈ a.parameters, w.Held u (f u)) (hx : w.Held v x)
    (ok : (a.map f).call arrays x = .ok y) : Computes w (a.call recording v) y :=
  attends_plain held w v x y (.refl w) hx ok

theorem computes_logits {t : Transformer α VariableId} {tokens : List Int}
    (held : ∀ u ∈ t.parameters, w.Held u (f u)) (fits : ((t.map f).map NDArray.shape).Fits)
    (takes : t.config.Takes tokens) : Computes w (logits t tokens) ((t.map f).value tokens) := by
  obtain ⟨held, head⟩ := List.forall_mem_append.1 held
  obtain ⟨held, norm⟩ := List.forall_mem_append.1 held
  obtain ⟨held, blocks⟩ := List.forall_mem_append.1 held
  obtain ⟨tokens, positions⟩ := List.forall_mem_append.1 held
  have supports : ∀ b ∈ t.blocks, (Reading.plain α).Supports w f b := by
    intro b hb
    have held : ∀ u ∈ b.parameters, w.Held u (f u) := fun u hu =>
      blocks u (List.mem_flatMap_of_mem hb hu)
    obtain ⟨held, feedForward⟩ := List.forall_mem_append.1 held
    obtain ⟨held, attention⟩ := List.forall_mem_append.1 held
    obtain ⟨norm₁, norm₂⟩ := List.forall_mem_append.1 held
    exact ⟨⟨trivial, trivial⟩, norm₁, norm₂, attends_plain attention, feedForward⟩
  have supports : (Reading.plain α).SupportsModel w f t :=
    ⟨tokens, positions, supports, trivial, norm, head⟩
  exact Reading.computes_logits supports fits takes

end Session

end DerivativeEngine
