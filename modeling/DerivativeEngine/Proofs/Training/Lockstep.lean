import DerivativeEngine.Proofs.ModelFile.Checkpoint
import DerivativeEngine.Proofs.ModelFile.Inference
import Mathlib.Data.List.Nodup

/-! Two optimizers that go the same way. A step of the Adam rule reads the gradients, the moments,
the number of steps, the rates and the parameters, and nothing else. So where these are the same in
two workspaces, they are the same after every step, however many follow, and a step that fails in
one fails in the other. -/

namespace DerivativeEngine

variable {α : Type}

def Tensor.ofArray (x : NDArray α) : Tensor α := ⟨x.shape, some x, none⟩

variable [Scalar α]

namespace Adam

omit [Scalar α] in
theorem shape_set {xs : List (NDArray α)} {i : Nat} {x d : NDArray α}
    (shape : x.shape = (xs.getD i d).shape) :
    (xs.set i x).map NDArray.shape = xs.map NDArray.shape := by
  rw [List.map_set, shape]
  apply List.ext_getElem?
  intro j
  rw [List.getElem?_set]
  by_cases same : i = j
  · subst same
    by_cases inside : i < xs.length <;> simp [inside, List.getD]
  · rw [if_neg same]

theorem shapes_learn (a : Adam α) (i : Nat) (g : NDArray α) :
    (a.learn i g).first.map NDArray.shape = a.first.map NDArray.shape ∧
      (a.learn i g).second.map NDArray.shape = a.second.map NDArray.shape :=
  ⟨shape_set (d := .fill g.shape 0) rfl, shape_set (d := .fill g.shape 0) rfl⟩

theorem shapes_start (beta₁ beta₂ eps : α) (shapes : List Shape) :
    (start beta₁ beta₂ eps shapes).first.map NDArray.shape = shapes ∧
      (start beta₁ beta₂ eps shapes).second.map NDArray.shape = shapes := by
  have zeros : (shapes.map fun s => NDArray.fill s (0 : α)).map NDArray.shape = shapes := by
    rw [List.map_map]
    exact List.map_id shapes
  exact ⟨zeros, zeros⟩

end Adam

namespace Workspace

variable {w w' : Workspace α} {o o' : OptimizerId} {vs : List VariableId} {shapes : List Shape}
  {rate : α} {a : Adam α}

/-- The optimizer moves these variables by the Adam rule. They are on tensors of their own, and each
has a pair of moments of its shape. -/
structure Learns (w : Workspace α) (o : OptimizerId) (vs : List VariableId) (shapes : List Shape)
    (rate : α) (a : Adam α) : Prop where
  found : w.optimizer o = ⟨vs, rate, .adam a⟩
  held : ∀ v ∈ vs, w.Held v (w.valueOf v)
  distinct : (vs.map fun v => (w.var v).data).Nodup
  shaped : vs.map w.shapeOf = shapes
  first : a.first.map NDArray.shape = shapes
  second : a.second.map NDArray.shape = shapes

theorem Learns.tracks {t : Transformer α VariableId} (h : w.Learns o t.parameters shapes rate a) :
    w.Tracks o t a where
  rule := by rw [h.found]
  tracked := by rw [h.found]
  first := h.first.trans h.shaped.symm
  second := h.second.trans h.shaped.symm

theorem Learns.known (h : w.Learns o vs shapes rate a) : o.index < w.optimizers.size := by
  by_contra missing
  have none : w.optimizer o = ⟨[], 0, .none⟩ := by
    simp [optimizer, Array.getD_eq_getD_getElem?, Nat.le_of_not_lt missing]
  cases none.symm.trans h.found

theorem Learns.extend (h : w.Learns o vs shapes rate a) (grown : w.Extends w')
    (optimizers : w'.optimizers = w.optimizers)
    (held : ∀ v ∈ vs, w'.Held v (w'.valueOf v)) : w'.Learns o vs shapes rate a := by
  have same : vs.map w'.shapeOf = vs.map w.shapeOf :=
    List.map_congr_left fun v hv => grown.shapeOf (h.held v hv).known (h.held v hv).made
  have data : vs.map (fun v => (w'.var v).data) = vs.map fun v => (w.var v).data :=
    List.map_congr_left fun v hv => grown.data v (h.held v hv).known
  refine ⟨?_, held, data ▸ h.distinct, same.trans h.shaped, h.first, h.second⟩
  rw [← h.found, optimizer, optimizers]
  rfl

theorem Learns.data_inj {β : Type} {f : β → VariableId} {ys : List β}
    (h : w.Learns o (ys.map f) shapes rate a) {y z : β} (hy : y ∈ ys) (hz : z ∈ ys) :
    (w.var (f y)).data = (w.var (f z)).data ↔ y = z := by
  have distinct := h.distinct
  rw [List.map_map] at distinct
  exact ⟨fun same => List.inj_on_of_nodup_map distinct hy hz same, fun same => same ▸ rfl⟩

theorem Learns.mapAdam (h : w.Learns o vs shapes rate a) {f : Adam α → Adam α}
    (first : (f a).first.map NDArray.shape = a.first.map NDArray.shape)
    (second : (f a).second.map NDArray.shape = a.second.map NDArray.shape) :
    (w.modifyOptimizer o (Optimizer.mapAdam f)).Learns o vs shapes rate (f a) where
  found := by
    rw [w.optimizer_modifyOptimizer h.known, h.found]
    rfl
  held v hv :=
    have held := h.held v hv
    ⟨held.known, held.made, held.alive, held.value, held.shape⟩
  distinct := h.distinct
  shaped := h.shaped
  first := first.trans h.first
  second := second.trans h.second

theorem Learns.fill (h : w.Learns o vs shapes rate a) {v : VariableId} (hv : v ∈ vs) {x : NDArray α}
    (shape : x.shape = w.shapeOf v) : (w.fill v x).Learns o vs shapes rate a := by
  have filled := filled_fill (h.held v hv).made x
  have accepts : ∀ q ∈ [(v, x)], w.Accepts q.1 q.2 :=
    List.forall_mem_singleton.2 ⟨shape, (h.held v hv).alive⟩
  exact h.extend filled.grown rfl fun u hu => (h.held u hu).refill filled accepts

variable {qs : List (VariableId × VariableId)}

structure Abreast (o o' : OptimizerId) (shapes : List Shape) (rate : α)
    (qs : List (VariableId × VariableId)) (w w' : Workspace α) : Prop where
  learns : ∃ a, w.Learns o (qs.map Prod.fst) shapes rate a ∧
    w'.Learns o' (qs.map Prod.snd) shapes rate a
  values : ∀ q ∈ qs, w'.valueOf q.2 = w.valueOf q.1

structure Offered (o o' : OptimizerId) (shapes : List Shape) (rate : α)
    (qs : List (VariableId × VariableId)) (g : Nat → Option (NDArray α)) (w w' : Workspace α) :
    Prop where
  abreast : Abreast o o' shapes rate qs w w'
  gradient : ∀ p ∈ qs.zipIdx, (w.var p.1.1).grad = (g p.2).map .ofArray ∧
    (w'.var p.1.2).grad = (g p.2).map .ofArray

theorem Abreast.mapAdam (h : Abreast o o' shapes rate qs w w') {f : Adam α → Adam α}
    (same : ∀ a, (f a).first.map NDArray.shape = a.first.map NDArray.shape ∧
      (f a).second.map NDArray.shape = a.second.map NDArray.shape) :
    Abreast o o' shapes rate qs (w.modifyOptimizer o (Optimizer.mapAdam f))
      (w'.modifyOptimizer o' (Optimizer.mapAdam f)) := by
  obtain ⟨a, learns, learns'⟩ := h.learns
  exact ⟨⟨f a, learns.mapAdam (same a).1 (same a).2,
    learns'.mapAdam (same a).1 (same a).2⟩, h.values⟩

theorem Abreast.shapeOf (h : Abreast o o' shapes rate qs w w')
    {q : VariableId × VariableId} (hq : q ∈ qs) : w'.shapeOf q.2 = w.shapeOf q.1 := by
  obtain ⟨a, learns, learns'⟩ := h.learns
  have held := learns.held q.1 (List.mem_map_of_mem hq)
  have held' := learns'.held q.2 (List.mem_map_of_mem hq)
  rw [← held.shape, ← held'.shape, h.values q hq]

theorem Abreast.fill (h : Abreast o o' shapes rate qs w w')
    {q : VariableId × VariableId} (hq : q ∈ qs) {x : NDArray α} (shape : x.shape = w.shapeOf q.1) :
    Abreast o o' shapes rate qs (w.fill q.1 x) (w'.fill q.2 x) := by
  have shape' : x.shape = w'.shapeOf q.2 := shape.trans (h.shapeOf hq).symm
  obtain ⟨a, learns, learns'⟩ := h.learns
  have member : q.1 ∈ qs.map Prod.fst := List.mem_map_of_mem hq
  have member' : q.2 ∈ qs.map Prod.snd := List.mem_map_of_mem hq
  refine ⟨⟨a, learns.fill member shape, learns'.fill member' shape'⟩, fun u hu => ?_⟩
  -- The variable that is filled has the same place in both lists, and no other is on its tensor.
  have only := learns.data_inj hu hq
  have only' := learns'.data_inj hu hq
  rw [valueOf_fill (learns.held _ member).made, valueOf_fill (learns'.held _ member').made]
  simp only [only, only', h.values u hu]

end Workspace

namespace Session

open Workspace (Abreast Offered)

def Parallel {β : Type} (R : Workspace α → Workspace α → Prop) (p p' : Session α β) : Prop :=
  ∀ w w', R w w' → (outcome p w).1 = (outcome p' w').1 ∧ R (outcome p w).2 (outcome p' w').2

omit [Scalar α] in
theorem Parallel.forM {β : Type} {R : Workspace α → Workspace α → Prop}
    {f f' : β → Session α Unit} : ∀ {xs : List β}, (∀ x ∈ xs, Parallel R (f x) (f' x)) →
      Parallel R (xs.forM f) (xs.forM f')
  | [], _, _, _, related => ⟨rfl, related⟩
  | x :: xs, each, w, w', related => by
    obtain ⟨first, others⟩ := List.forall_mem_cons.1 each
    obtain ⟨same, next⟩ := first w w' related
    change (outcome (f x >>= fun _ => xs.forM f) w).1 =
        (outcome (f' x >>= fun _ => xs.forM f') w').1 ∧
      R (outcome (f x >>= fun _ => xs.forM f) w).2 (outcome (f' x >>= fun _ => xs.forM f') w').2
    rw [outcome_bind, outcome_bind]
    generalize outcome (f x) w = r, outcome (f' x) w' = r' at same next
    obtain ⟨y, w₁⟩ := r
    obtain ⟨y', w₁'⟩ := r'
    obtain rfl : y = y' := same
    cases y with
    | error e => exact ⟨rfl, next⟩
    | ok u => exact forM others w₁ w₁' next

omit [Scalar α] in
theorem forM_zipIdx_map {β γ : Type} (h : β → γ) (f : γ → Nat → Session α Unit) (xs : List β) :
    ((xs.map h).zipIdx.forM fun (y, i) => f y i) = xs.zipIdx.forM fun p => f (h p.1) p.2 := by
  rw [List.zipIdx_map, List.forM_eq_forM, List.forM_map]
  rfl

def offer (vs : List VariableId) (g : Nat → Option (NDArray α)) : Session α Unit :=
  vs.zipIdx.forM fun (v, i) => setGrad v ((g i).map .ofArray)

/-- A step after each choice of gradients. -/
def train (vs : List VariableId) (o : OptimizerId) (gs : List (Nat → Option (NDArray α))) :
    Session α Unit :=
  gs.forM fun g => do
    offer vs g
    step o

variable {w w' : Workspace α} {o o' : OptimizerId} {vs : List VariableId} {rate : α} {a : Adam α}
  {shapes : List Shape} {qs : List (VariableId × VariableId)} {g : Nat → Option (NDArray α)}

omit [Scalar α] in
theorem outcome_setGrads (g : Nat → Option (NDArray α)) : ∀ {ps : List (VariableId × Nat)}
    {w : Workspace α}, (∀ p ∈ ps, p.1.index < w.vars.size) → (ps.map Prod.fst).Nodup →
      ∃ w', outcome (ps.forM fun (v, i) => setGrad v ((g i).map .ofArray)) w = (.ok (), w') ∧
        w.Frame w' ∧ (∀ p ∈ ps, (w'.var p.1).grad = (g p.2).map .ofArray) ∧
        ∀ u, u ∉ ps.map Prod.fst → (w'.var u).grad = (w.var u).grad
  | [], w, _, _ => ⟨w, rfl, .refl w, nofun, fun _ _ => rfl⟩
  | p :: ps, w, known, distinct => by
    obtain ⟨first, others⟩ := List.forall_mem_cons.1 known
    obtain ⟨apart, distinct⟩ := List.nodup_cons.1 distinct
    have frame := w.frame_setGrad p.1 ((g p.2).map .ofArray)
    obtain ⟨w', run, frame', given, rest⟩ :=
      outcome_setGrads g (fun p' hp' => frame.size ▸ others p' hp') distinct
    refine ⟨w', run, frame.trans frame', List.forall_mem_cons.2 ⟨?_, given⟩, ?_⟩
    · rw [rest p.1 apart, Workspace.var_setVariable, if_pos ⟨rfl, first⟩]
    · intro u hu
      obtain ⟨other, later⟩ := not_or.1 (List.mem_cons.not.1 hu)
      rw [rest u later, Workspace.var_setVariable, if_neg fun same => other same.1]

theorem outcome_offer (learns : w.Learns o vs shapes rate a) (g : Nat → Option (NDArray α)) :
    ∃ w', outcome (offer vs g) w = (.ok (), w') ∧ w.Frame w' ∧ w'.Learns o vs shapes rate a ∧
      ∀ p ∈ vs.zipIdx, (w'.var p.1).grad = (g p.2).map .ofArray := by
  have known : ∀ p ∈ vs.zipIdx, p.1.index < w.vars.size := fun p hp =>
    (learns.held p.1 (List.fst_mem_of_mem_zipIdx hp)).known
  have distinct : (vs.zipIdx.map Prod.fst).Nodup := by
    rw [List.zipIdx_map_fst]
    exact learns.distinct.of_map _
  obtain ⟨w', run, frame, given, -⟩ := outcome_setGrads g known distinct
  refine ⟨w', run, frame, learns.extend frame.grown frame.optimizers fun v hv => ?_, given⟩
  have held := (learns.held v hv).continue frame.continues
  rwa [held.valueOf]

theorem outcome_offers (abreast : Abreast o o' shapes rate qs w w') (g : Nat → Option (NDArray α)) :
    ∃ w₁ w₁', outcome (offer (qs.map Prod.fst) g) w = (.ok (), w₁) ∧
      outcome (offer (qs.map Prod.snd) g) w' = (.ok (), w₁') ∧
      Offered o o' shapes rate qs g w₁ w₁' := by
  obtain ⟨a, learns, learns'⟩ := abreast.learns
  obtain ⟨w₁, run, frame, learns₁, given⟩ := outcome_offer learns g
  obtain ⟨w₁', run', frame', learns₁', given'⟩ := outcome_offer learns' g
  refine ⟨w₁, w₁', run, run', ⟨⟨a, learns₁, learns₁'⟩, fun q hq => ?_⟩, fun p hp => ⟨?_, ?_⟩⟩
  · rw [frame.valueOf, frame'.valueOf, abreast.values q hq]
  · refine given (p.1.1, p.2) ?_
    rw [List.zipIdx_map]
    exact List.mem_map_of_mem (f := Prod.map Prod.fst id) hp
  · refine given' (p.1.2, p.2) ?_
    rw [List.zipIdx_map]
    exact List.mem_map_of_mem (f := Prod.map Prod.snd id) hp

theorem outcome_adapt_none {v : VariableId} (given : (w.var v).grad = none) (c : α × α) (i : Nat) :
    outcome (adapt o c v i) w = (.ok (), w) := by
  have unread : outcome (readGrad? v) w = (.ok none, w) := by
    rw [readGrad?, outcome_bind_ok (outcome_var v), given]
    rfl
  exact outcome_bind_ok unread _

theorem outcome_adapt (learns : w.Learns o vs shapes rate a) {v : VariableId} (hv : v ∈ vs)
    {x : NDArray α} (given : (w.var v).grad = some (.ofArray x)) (c : α × α) (i : Nat) :
    outcome (adapt o c v i) w =
      (.ok (), (w.modifyOptimizer o (Optimizer.mapAdam fun b => b.learn i x)).fill v
        ((w.valueOf v).sub ((a.learn i x).displacement rate c i x.shape))) := by
  have read : outcome (readGrad? v) w = (.ok (some x), w) := by
    rw [readGrad?, outcome_bind_ok (outcome_var v), given]
    exact outcome_map_ok (outcome_read_ok (fun _ none => by cases none) rfl) some
  have learnt := learns.mapAdam (f := fun b => b.learn i x) (a.shapes_learn i x).1
    (a.shapes_learn i x).2
  generalize eq : w.modifyOptimizer o (Optimizer.mapAdam fun b => b.learn i x) = w₁ at learnt
  have held : w₁.Held v (w.valueOf v) := by
    have held := learnt.held v hv
    rwa [← eq] at held ⊢
  have state : outcome (optimizer o) w₁ = (.ok ⟨vs, rate, .adam (a.learn i x)⟩, w₁) := by
    rw [← learnt.found]
    rfl
  have value : outcome (value v) w₁ = (.ok (w.valueOf v), w₁) := by
    rw [outcome_value, Workspace.read_eq_ok.2 ⟨held.alive, held.value⟩]
    rfl
  have learning : outcome (modifyOptimizer o (Optimizer.mapAdam fun b => b.learn i x)) w =
      (.ok (), w₁) := by
    rw [← eq]
    rfl
  rw [adapt, outcome_bind_ok read]
  dsimp only
  rw [outcome_bind_ok learning, outcome_bind_ok state]
  dsimp only [Optimizer.adam?]
  rw [outcome_bind_ok value]
  exact outcome_setData_eq_ok.2 ⟨⟨held.shape, held.alive⟩, rfl⟩

theorem parallel_adapt (c : α × α) {p : (VariableId × VariableId) × Nat} (hp : p ∈ qs.zipIdx) :
    Parallel (Offered o o' shapes rate qs g) (adapt o c p.1.1 p.2) (adapt o' c p.1.2 p.2) := by
  rintro w w' ⟨abreast, gradient⟩
  obtain ⟨given, given'⟩ := gradient p hp
  have hq : p.1 ∈ qs := List.fst_mem_of_mem_zipIdx hp
  cases hg : g p.2 with
  | none =>
    rw [hg] at given given'
    rw [outcome_adapt_none given, outcome_adapt_none given']
    exact ⟨rfl, abreast, gradient⟩
  | some x =>
    rw [hg] at given given'
    obtain ⟨a, learns, learns'⟩ := abreast.learns
    rw [outcome_adapt learns (List.mem_map_of_mem hq) given,
      outcome_adapt learns' (List.mem_map_of_mem hq) given', abreast.values p.1 hq]
    have learnt := abreast.mapAdam (f := fun b => b.learn p.2 x) fun a => a.shapes_learn p.2 x
    refine ⟨rfl, learnt.fill hq ?_, gradient⟩
    exact (learns.held p.1.1 (List.mem_map_of_mem hq)).shape

theorem outcome_step (found : w.optimizer o = ⟨vs, rate, .adam a⟩) :
    outcome (step o) w = outcome (do
      let c ← ofExcept (failAs .fault a.tick.corrections)
      vs.zipIdx.forM fun (p, i) => adapt o c p i)
        (w.modifyOptimizer o (Optimizer.mapAdam Adam.tick)) := by
  have state : outcome (optimizer o) w = (.ok ⟨vs, rate, .adam a⟩, w) := by
    rw [← found]
    rfl
  rw [step, outcome_bind_ok state]
  rfl

theorem parallel_step : Parallel (Offered o o' shapes rate qs g) (step o) (step o') := by
  rintro w w' ⟨abreast, gradient⟩
  obtain ⟨a, learns, learns'⟩ := abreast.learns
  have ticked : Offered o o' shapes rate qs g (w.modifyOptimizer o (Optimizer.mapAdam Adam.tick))
      (w'.modifyOptimizer o' (Optimizer.mapAdam Adam.tick)) :=
    ⟨abreast.mapAdam fun _ => ⟨rfl, rfl⟩, gradient⟩
  rw [outcome_step learns.found, outcome_step learns'.found]
  cases a.tick.corrections with
  | error e => exact ⟨rfl, ticked⟩
  | ok c =>
    rw [failAs_ok, outcome_bind_ok (outcome_ofExcept (.ok c)),
      outcome_bind_ok (outcome_ofExcept (.ok c)), forM_zipIdx_map Prod.fst (adapt o c),
      forM_zipIdx_map Prod.snd (adapt o' c)]
    exact Parallel.forM (fun p hp => parallel_adapt c hp) _ _ ticked

theorem parallel_train (gs : List (Nat → Option (NDArray α))) :
    Parallel (Abreast o o' shapes rate qs) (train (qs.map Prod.fst) o gs)
      (train (qs.map Prod.snd) o' gs) := by
  refine .forM fun g _ w w' abreast => ?_
  obtain ⟨w₁, w₁', run, run', offered⟩ := outcome_offers abreast g
  rw [outcome_bind_ok run, outcome_bind_ok run']
  obtain ⟨same, after⟩ := parallel_step w₁ w₁' offered
  exact ⟨same, after.abreast⟩

/-- Models with the same arrays and optimizers in the same state: so they remain. -/
theorem train_alike {t t' : Transformer α VariableId}
    (learns : w.Learns o t.parameters shapes rate a)
    (learns' : w'.Learns o' t'.parameters shapes rate a) (arrays : w'.arrays t' = w.arrays t)
    (gs : List (Nat → Option (NDArray α))) :
    ∃ r w₁ w₁' a', outcome (train t.parameters o gs) w = (r, w₁) ∧
      outcome (train t'.parameters o' gs) w' = (r, w₁') ∧ w₁'.arrays t' = w₁.arrays t ∧
      w₁.optimizer o = ⟨t.parameters, rate, .adam a'⟩ ∧
      w₁'.optimizer o' = ⟨t'.parameters, rate, .adam a'⟩ := by
  have length : t'.parameters.length = t.parameters.length := by
    simpa [Workspace.arrays] using congrArg List.length arrays
  let qs := t.parameters.zip t'.parameters
  have firsts : qs.map Prod.fst = t.parameters := List.map_fst_zip (Nat.le_of_eq length.symm)
  have seconds : qs.map Prod.snd = t'.parameters := List.map_snd_zip (Nat.le_of_eq length)
  have values : ∀ q ∈ qs, w'.valueOf q.2 = w.valueOf q.1 := by
    rw [Workspace.arrays, Workspace.arrays, ← firsts, ← seconds, List.map_map, List.map_map]
      at arrays
    exact List.map_inj_left.1 arrays
  have abreast : Abreast o o' shapes rate qs w w' := by
    refine ⟨⟨a, ?_, ?_⟩, values⟩
    · rwa [firsts]
    · rwa [seconds]
  obtain ⟨same, after⟩ := parallel_train gs w w' abreast
  rw [firsts, seconds] at same after
  rcases run : outcome (train t.parameters o gs) w with ⟨r, w₁⟩
  rcases run' : outcome (train t'.parameters o' gs) w' with ⟨r', w₁'⟩
  rw [run, run'] at same after
  obtain rfl : r = r' := same
  obtain ⟨a', learns₁, learns₁'⟩ := after.learns
  rw [firsts] at learns₁
  rw [seconds] at learns₁'
  refine ⟨r, w₁, w₁', a', rfl, rfl, ?_, learns₁.found, learns₁'.found⟩
  rw [Workspace.arrays, Workspace.arrays, ← firsts, ← seconds, List.map_map, List.map_map]
  exact List.map_congr_left after.values

theorem learns_newOptimizer {t : Transformer α VariableId} {causal : Bool}
    (carried : w.Carries t causal) (asked : ∀ v ∈ t.parameters, (w.var v).requiresGrad = true)
    (beta₁ beta₂ eps rate : α) :
    ∃ o w', outcome (newOptimizer t.parameters (.adam beta₁ beta₂ eps) rate) w = (.ok o, w') ∧
      w'.Carries t causal ∧ w'.Learns o t.parameters (t.parameters.map w.shapeOf) rate
        (.start beta₁ beta₂ eps (t.parameters.map w.shapeOf)) := by
  have run := outcome_newOptimizer carried.holds asked beta₁ beta₂ eps rate
  refine ⟨_, _, run, carried.optimizers _, ?_⟩
  exact
    { found := w.optimizer_push _
      held := (carried.optimizers _).held
      distinct := carried.distinct
      shaped := rfl
      first := (Adam.shapes_start beta₁ beta₂ eps _).1
      second := (Adam.shapes_start beta₁ beta₂ eps _).2 }

end Session

end DerivativeEngine
