import DerivativeEngine.Proofs.Layer.Attention
import DerivativeEngine.Proofs.Tape.Reals
import DerivativeEngine.Proofs.Workspace.Passing
import DerivativeEngine.Proofs.Workspace.Reading

/-! Layers on the way back. While a model of real numbers is recorded, it is known of each variable
what its gradient will be like: real numbers, as a rule. The gradients of scores will be level, so
those of keys will be balanced, and a bias that was added to the keys of all places gets nothing. -/

namespace DerivativeEngine

open Interpretation (arrays)
open NDArray (Additive Balanced Level Shared)
open Operation (ok_of_bind)

/-- A point of a run at which it is known what gradients will be like. -/
structure Flowing (c : ContextId) where
  space : Workspace EReal
  like : VariableId → NDArray EReal → Prop
  flows : space.Flows c like

namespace Flowing

variable {c : ContextId} {s s' s'' : Flowing c} {v : VariableId} {x y : NDArray EReal}
  {P : NDArray EReal → Prop} {f : VariableId → NDArray EReal}

structure Later (s s' : Flowing c) : Prop where
  continues : s.space.Continues s'.space
  optimizers : s'.space.optimizers = s.space.optimizers
  var : ∀ v : VariableId, v.index < s.space.vars.size → s'.space.var v = s.space.var v
  like : ∀ v : VariableId, v.index < s.space.vars.size → s'.like v = s.like v
  gradient : ∀ v : VariableId, s.space.vars.size ≤ v.index →
    ∀ g, s'.space.gradient? v = some g → s'.like v g

theorem Later.gradient_old (h : s.Later s') (known : v.index < s.space.vars.size) :
    s'.space.gradient? v = s.space.gradient? v := by
  rw [Workspace.gradient?, h.var v known]
  rfl

theorem Later.like_gradient (h : s.Later s') {g : NDArray EReal}
    (hg : s'.space.gradient? v = some g) (before : s.space.gradient? v = some g → s.like v g) :
    s'.like v g := by
  by_cases known : v.index < s.space.vars.size
  · rw [h.gradient_old known] at hg
    rw [h.like v known]
    exact before hg
  · exact h.gradient v (Nat.le_of_not_lt known) g hg

theorem Later.refl (s : Flowing c) : s.Later s where
  continues := .refl _
  optimizers := rfl
  var _ _ := rfl
  like _ _ := rfl
  gradient v new g hg := by
    obtain ⟨_, ht, -⟩ := Option.bind_eq_some_iff.1 hg
    exact absurd (Workspace.known_of_grad ht) (Nat.not_lt.2 new)

theorem Later.trans (h : s.Later s') (h' : s'.Later s'') : s.Later s'' where
  continues := h.continues.trans h'.continues
  optimizers := h'.optimizers.trans h.optimizers
  var v known :=
    (h'.var v (Nat.lt_of_lt_of_le known h.continues.grown.vars)).trans (h.var v known)
  like v known :=
    (h'.like v (Nat.lt_of_lt_of_le known h.continues.grown.vars)).trans (h.like v known)
  gradient v new g hg := h'.like_gradient hg (h.gradient v new g)

/-- The variable holds this array, and a gradient of this kind can be sent to it. -/
structure Takes (s : Flowing c) (v : VariableId) (x : NDArray EReal) (P : NDArray EReal → Prop) :
    Prop where
  held : s.space.Held v x
  asks : (s.space.var v).requiresGrad = true
  takes : ∀ g, P g → s.like v g

theorem Takes.later (h : s.Takes v x P) (later : s.Later s') : s'.Takes v x P where
  held := h.held.continue later.continues
  asks := by rw [later.var v h.held.known, h.asks]
  takes := by
    rw [later.like v h.held.known]
    exact h.takes

theorem takes_apply (s : Flowing c) (op : Operation EReal VariableId)
    (held : ∀ v ∈ op.operands, ∃ x, s.space.Held v x)
    (asks : ∃ v ∈ op.operands, (s.space.var v).requiresGrad = true)
    (ok : arrays.apply (op.map s.space.valueOf) = .ok y) (additive : Additive P)
    (sends : ∀ g, g.shape = y.shape → P g →
      ∀ p ∈ op.sent s.space.shapeOf ((op.map s.space.valueOf).saved y) s.space.valueOf g,
        s.like p.1 p.2) :
    ∃ v s', Session.outcome (Session.apply op) s.space = (.ok v, s'.space) ∧ s.Later s' ∧
      s'.Takes v y P ∧ (s'.space.var v).grad.isSome = true := by
  obtain ⟨w', t, z, rs, run, applies, flows, there⟩ :=
    Session.flows_apply s.flows held ok additive sends
  have newest : w'.var ⟨s.space.vars.size⟩ = z := applies.pushes.var_new
  have asked : z.requiresGrad = true := applies.asks.trans (List.any_eq_true.2 asks)
  have later : s.Later ⟨w', _, flows⟩ :=
    { continues := applies.pushes.continues
      optimizers := applies.pushes.optimizers
      var := fun v known => applies.pushes.var_old known
      like := fun v known =>
        Function.update_of_ne (fun same => Nat.lt_irrefl _ (same ▸ known)) _ _
      gradient := fun v new g hg => by
        obtain ⟨_, ht, -⟩ := Option.bind_eq_some_iff.1 hg
        have bound := Workspace.known_of_grad ht
        rw [applies.pushes.size_vars, List.length_singleton] at bound
        obtain rfl : v = ⟨s.space.vars.size⟩ :=
          congrArg VariableId.mk (Nat.le_antisymm (Nat.le_of_lt_succ bound) new)
        change Function.update s.like ⟨s.space.vars.size⟩ P ⟨s.space.vars.size⟩ g
        rw [Function.update_self]
        exact Session.gradient_applies applies additive hg }
  refine ⟨_, ⟨w', _, flows⟩, run, later, ⟨there, ?_, fun g hg => ?_⟩, ?_⟩
  · exact (congrArg Variable.requiresGrad newest).trans asked
  · change Function.update s.like ⟨s.space.vars.size⟩ P ⟨s.space.vars.size⟩ g
    rwa [Function.update_self]
  · exact applies.fresh.asked.trans ((congrArg Variable.requiresGrad newest).trans asked)

def Stands (s : Flowing c) (v : VariableId) (x : NDArray EReal) : Prop :=
  x.AllReal ∧ s.Takes v x NDArray.AllReal

theorem stands_apply (s : Flowing c) {op : Operation EReal VariableId} (simple : op.Simple IsReal)
    (stands : ∀ v ∈ op.operands, ∃ x, s.Stands v x)
    (ok : arrays.apply (op.map s.space.valueOf) = .ok y) :
    ∃ v s', Session.outcome (Session.apply op) s.space = (.ok v, s'.space) ∧ s.Later s' ∧
      s'.Stands v y := by
  have real : ∀ v ∈ op.operands, (s.space.valueOf v).AllReal := by
    intro v hv
    obtain ⟨x, hx, takes⟩ := stands v hv
    rwa [takes.held.valueOf]
  have held : ∀ v ∈ op.operands, ∃ x, s.space.Held v x := fun v hv =>
    (stands v hv).imp fun _ h => h.2.held
  obtain ⟨-, rfl⟩ := Session.check_held held ok
  have some : ∃ v, v ∈ op.operands := by
    cases op <;> exact ⟨_, List.mem_cons_self⟩
  obtain ⟨v, hv⟩ := some
  obtain ⟨u, s', run, later, takes, -⟩ := s.takes_apply op held
    ⟨v, hv, (stands v hv).elim fun _ h => h.2.asks⟩ ok NDArray.additive_allReal
    fun g _ hg p hp => by
      have operand := op.targets_sent.mem_iff.1 (List.mem_map_of_mem (f := Prod.fst) hp)
      obtain ⟨x, -, takes⟩ := stands p.1 operand
      exact takes.takes p.2 (Operation.allReal_of_mem_sent simple real real hg p hp)
  exact ⟨u, s', run, later, Operation.allReal_result simple real, takes⟩

def reading (c : ContextId) : Reading EReal where
  Stage := Flowing c
  space := space
  Later := Later
  Stands := Stands
  number := IsReal
  refl := .refl
  trans := .trans
  stays h later := ⟨h.1, h.2.later later⟩
  held h := h.2.held
  starts s := ⟨c, s, Session.outcome_current s.flows.sound.current, .refl s⟩
  applies {s} := s.stands_apply

def Keys (s : Flowing c) (v : VariableId) (x : NDArray EReal) : Prop :=
  ∃ n heads width, x.shape = [n, heads, width] ∧ x.AllReal ∧
    s.Takes v x (Balanced n (heads * width))

theorem ok_arrays {op : Operation EReal (NDArray EReal)} (ok : arrays.apply op = .ok y) :
    (op.map NDArray.shape).check = .ok () ∧ op.value = y := by
  obtain ⟨⟨⟩, check, computed⟩ := ok_of_bind ok
  exact ⟨check, Except.ok.inj computed⟩

theorem gives_balanced {l : Linear VariableId} {n d e : ℕ}
    (fits : ((l.map f).map NDArray.shape).Fits d e) (weight : s.Stands l.weight (f l.weight))
    (bias : s.Takes l.bias (f l.bias) fun g => ∀ i, g.get i = 0) (hx : s.Stands v x)
    (rows : x.shape = [n, d]) :
    (reading c).Gives s (l.call Session.recording v) fun s' u =>
      s'.Takes u ((l.map f).value x) (Balanced n e) := by
  have ok := Linear.call_arrays fits rows
  obtain ⟨turned, transposed, ok⟩ := ok_of_bind ok
  obtain ⟨product, multiplied, ok⟩ := ok_of_bind ok
  have shape : product.shape = [n, e] := by
    have weight : (f l.weight).shape = [e, d] := fits.weight
    obtain ⟨-, rfl⟩ := ok_arrays transposed
    obtain ⟨-, rfl⟩ := ok_arrays multiplied
    simp [Operation.value, NDArray.matmul, NDArray.transpose, NDArray.ofFn, rows, weight, Shape.dim,
      Linear.map]
  refine Reading.Gives.bind (Reading.computes_unary (R := reading c) .transpose (fun _ => rfl)
    (fun _ _ => rfl) trivial weight transposed) fun t (s₁ : Flowing c) later₁ ht => ?_
  refine Reading.Gives.bind (Reading.computes_binary (R := reading c) .matmul (fun _ _ => rfl)
    (fun _ _ _ => rfl) trivial ((reading c).stays hx later₁) ht multiplied)
    fun m (s₂ : Flowing c) later₂ (hm : s₂.Stands m product) => ?_
  have there := bias.later (later₁.trans later₂)
  obtain ⟨u, s₃, run, later, takes, -⟩ := s₂.takes_apply (.add m l.bias)
    (List.forall_mem_cons.2 ⟨⟨_, hm.2.held⟩, List.forall_mem_singleton.2 ⟨_, there.held⟩⟩)
    ⟨m, List.mem_cons_self, hm.2.asks⟩
    (by
      change arrays.apply (.add (s₂.space.valueOf m) (s₂.space.valueOf l.bias)) = _
      rw [hm.2.held.valueOf, there.held.valueOf]
      exact ok)
    (NDArray.additive_balanced n e) fun g hg balanced => by
      have row : s₂.space.shapeOf l.bias = [e] := by
        rw [← there.held.shape]
        exact fits.bias
      have nothing := balanced.addReverse (hg.trans (Linear.shape_value fits rows))
      change ∀ p ∈ [(m, NDArray.addReverse (s₂.space.shapeOf m) g),
        (l.bias, NDArray.addReverse (s₂.space.shapeOf l.bias) g)], s₂.like p.1 p.2
      rw [row]
      exact List.forall_mem_cons.2 ⟨hm.2.takes _ (balanced.real.addReverse _),
        List.forall_mem_singleton.2 (there.takes _ nothing)⟩
  exact ⟨u, s₃, run, later, takes⟩

theorem rows_of_project {a : MultiHeadAttention EReal (NDArray EReal)} {d : ℕ}
    {l : Linear (NDArray EReal)} (fits : (l.map NDArray.shape).Fits d d)
    (ok : a.project arrays (x.shape.dim 0) l x = .ok y) :
    x.shape = [x.shape.dim 0, d] ∧ 0 < x.shape.dim 0 := by
  obtain ⟨z, called, reshaped⟩ := ok_of_bind ok
  obtain ⟨turned, transposed, called⟩ := ok_of_bind called
  obtain ⟨product, multiplied, -⟩ := ok_of_bind called
  obtain ⟨-, rfl⟩ := ok_arrays transposed
  obtain ⟨m, k, n, left, right⟩ := Operation.checkMatmul_eq_ok (ok_arrays multiplied).1
  have weight : l.weight.shape = [d, d] := fits.weight
  have width : [d, d] = [k, n] := by
    rw [← right]
    change _ = [l.weight.shape.dim 1, l.weight.shape.dim 0]
    rw [weight]
    rfl
  obtain ⟨rfl, -⟩ := List.cons_eq_cons.1 width
  have left : x.shape = [m, d] := left
  have first : x.shape.dim 0 = m := by rw [left]; rfl
  obtain ⟨t, checked, -⟩ := ok_of_bind (ok_arrays reshaped).1
  obtain ⟨⟨-, -, positive⟩, -⟩ := Shape.check_eq_ok.1 checked
  have nonempty := positive _ List.mem_cons_self
  exact ⟨by rw [first, left], Int.natCast_pos.1 nonempty⟩

theorem gives_keys {a : MultiHeadAttention EReal VariableId} {d : ℕ}
    (fits : ((a.map f).map NDArray.shape).Fits d)
    (weight : s.Stands a.key.weight (f a.key.weight)) (real : (f a.key.bias).AllReal)
    (bias : s.Takes a.key.bias (f a.key.bias) fun g => ∀ i, g.get i = 0) (hx : s.Stands v x)
    (ok : (a.map f).project arrays (x.shape.dim 0) (a.key.map f) x = .ok y) :
    (reading c).Gives s (a.project Session.recording (x.shape.dim 0) a.key v) fun s' u =>
      s'.Keys u y := by
  have fitsKey : ((a.key.map f).map NDArray.shape).Fits d d := fits.key
  obtain ⟨rows, nonempty⟩ := rows_of_project fitsKey ok
  have weights : (f a.key.weight).AllReal := weight.1
  obtain ⟨z, called, reshaped⟩ := ok_of_bind ok
  obtain rfl := Except.ok.inj (called.symm.trans (Linear.call_arrays fitsKey rows))
  rw [MultiHeadAttention.project_arrays fits nonempty fitsKey rows] at ok
  obtain rfl := Except.ok.inj ok
  have split : a.heads.toNat * a.width.toNat = d := by
    have size := fits.size 1
    rw [Shape.size_three, Nat.one_mul, Nat.one_mul] at size
    exact size
  refine Reading.Gives.bind (gives_balanced fitsKey weight bias hx rows)
    fun u (s₁ : Flowing c) later hu => ?_
  obtain ⟨k, s₂, run, later', takes, -⟩ := s₁.takes_apply
    (.reshape [x.shape.dim 0, a.heads, a.width] u)
    (List.forall_mem_singleton.2 ⟨_, hu.held⟩) ⟨u, List.mem_cons_self, hu.asks⟩
    (by
      change arrays.apply (.reshape _ (s₁.space.valueOf u)) = _
      rw [hu.held.valueOf]
      exact reshaped)
    (NDArray.additive_balanced (x.shape.dim 0) d) fun g hg balanced => by
      change ∀ p ∈ [(u, g.reshape (s₁.space.shapeOf u))], s₁.like p.1 p.2
      refine List.forall_mem_singleton.2 (hu.takes _ (balanced.reshape ?_))
      rw [← hu.held.shape, Linear.shape_value fitsKey rows, NDArray.size, hg,
        MultiHeadAttention.shape_split _ _ rows, Shape.size_two]
      exact (fits.size _).symm
  refine ⟨k, s₂, run, later', x.shape.dim 0, a.heads.toNat, a.width.toNat,
    MultiHeadAttention.shape_split _ _ rows, ?_, split ▸ takes⟩
  exact ((hx.1.matmul weight.1.transpose).addBroadcast real).reshape _

def Scores (causal : Bool) (s : Flowing c) (v : VariableId) (x : NDArray EReal) : Prop :=
  ∃ heads n, x.shape = [heads, n, n] ∧ Shared causal (heads * n) n x.softmax ∧
    s.Takes v x fun g => g.AllReal ∧ Level (heads * n) n (NDArray.unmasked causal g)

theorem gives_scores {q k : VariableId} {z : NDArray EReal} {scale : EReal} (causal : Bool)
    (number : IsReal scale) (hq : s.Stands q x) (hk : s.Keys k y)
    (ok : arrays.apply (.attentionScores scale causal x y) = .ok z) :
    (reading c).Gives s (Session.apply (.attentionScores scale causal q k)) fun s' u =>
      s'.Scores causal u z := by
  obtain ⟨n, heads, width, shape', real, keys⟩ := hk
  obtain ⟨check, rfl⟩ := ok_arrays ok
  obtain ⟨_, _, _, shape, shape''⟩ := Operation.checkScores_eq_ok check
  have shape : x.shape = [n, heads, width] := shape.trans (shape''.symm.trans shape')
  have shared := NDArray.shared_softmax_scores hq.1 real number shape causal
  obtain ⟨u, s', run, later, takes, -⟩ := s.takes_apply (.attentionScores scale causal q k)
    (List.forall_mem_cons.2 ⟨⟨_, hq.2.held⟩, List.forall_mem_singleton.2 ⟨_, keys.held⟩⟩)
    ⟨q, List.mem_cons_self, hq.2.asks⟩
    (by
      change arrays.apply (.attentionScores _ _ (s.space.valueOf q) (s.space.valueOf k)) = _
      rw [hq.2.held.valueOf, keys.held.valueOf]
      exact ok)
    (NDArray.additive_level (heads * n) n causal) fun g _ ⟨_, level⟩ => by
      change ∀ p ∈ [(q, (NDArray.overKeys (NDArray.unmasked causal g) (s.space.valueOf k)).scale
        scale), (k, (NDArray.overQueries (NDArray.unmasked causal g) (s.space.valueOf q)).scale
        scale)], s.like p.1 p.2
      rw [hq.2.held.valueOf, keys.held.valueOf]
      exact List.forall_mem_cons.2 ⟨hq.2.takes _ ((level.real.overKeys real).scale number),
        List.forall_mem_singleton.2 (keys.takes _ (level.balanced hq.1 number shape))⟩
  refine ⟨u, s', run, later, heads, n, ?_, shared, takes⟩
  change [x.shape.dim 1, x.shape.dim 0, x.shape.dim 0] = _
  rw [shape]
  rfl

theorem gives_weights {causal : Bool} (hx : s.Scores causal v x)
    (ok : arrays.apply (.softmax x) = .ok y) :
    (reading c).Computes s (Session.apply (.softmax v)) y := by
  obtain ⟨heads, n, shape, shared, scores⟩ := hx
  obtain ⟨-, rfl⟩ := ok_arrays ok
  have shape' : x.softmax.shape = [heads, n, n] := shape
  have rows : Shape.rows [heads, n, n] = heads * n := by
    simp [Shape.rows, NDArray.rowShape, Shape.size]
  obtain ⟨u, s', run, later, takes, -⟩ := s.takes_apply (.softmax v)
    (List.forall_mem_singleton.2 ⟨_, scores.held⟩) ⟨v, List.mem_cons_self, scores.asks⟩
    (by
      change arrays.apply (.softmax (s.space.valueOf v)) = _
      rw [scores.held.valueOf]
      exact ok)
    NDArray.additive_allReal fun g hg real => by
      change ∀ p ∈ [(v, NDArray.softmaxReverse x.softmax g)], s.like p.1 p.2
      have level := shared.level real shape' (hg.trans shape') rows rfl
      refine List.forall_mem_singleton.2 (scores.takes _ ⟨level.real, ?_⟩)
      rwa [NDArray.unmasked_softmaxReverse shared.masked]
  exact ⟨u, s', run, later, shared.real, takes⟩

theorem attends {a : MultiHeadAttention EReal VariableId} {d : ℕ}
    (fits : ((a.map f).map NDArray.shape).Fits d) (number : IsReal a.scale)
    (query : ∀ u ∈ a.query.parameters, s.Stands u (f u))
    (weight : s.Stands a.key.weight (f a.key.weight)) (real : (f a.key.bias).AllReal)
    (bias : s.Takes a.key.bias (f a.key.bias) fun g => ∀ i, g.get i = 0)
    (values : ∀ u ∈ a.values.parameters, s.Stands u (f u))
    (output : ∀ u ∈ a.output.parameters, s.Stands u (f u)) : (reading c).Attends s f a := by
  have scores : (reading c).Scores s f a Keys (Scores a.causal) :=
    { stays := fun _ _ _ _ ⟨n, heads, width, shape, real, takes⟩ later =>
        ⟨n, heads, width, shape, real, takes.later later⟩
      key := fun s' v x y later hx ok =>
        gives_keys fits ((reading c).stays weight later) real (bias.later later) hx ok
      scores := fun s' q k x y z hq hk ok => gives_scores a.causal number hq hk ok
      weights := fun s' v x y hx ok => gives_weights hx ok }
  exact scores.attends query values output

end Flowing

end DerivativeEngine
