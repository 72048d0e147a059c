import DerivativeEngine.Proofs.Optimize.Averages
import DerivativeEngine.Proofs.Rewrite.Factoring
import DerivativeEngine.Proofs.Training.Lockstep

/-! One rule, implemented twice. The optimizer of a training loop moves arrays and keeps their
moments in arrays; the descent of an expression moves a row of numbers. Element by element both
compute the same: read as rows of their elements, the parameter and its moments go through the steps
of the descent, for every tracked variable by itself. -/

namespace DerivativeEngine

namespace NDArray

theorem toList_ofFn_eq_map {β : Type} (s : Shape) (f : ℕ → β) :
    (ofFn s f).toList = (List.range s.size).map f := by
  apply List.ext_getElem
  · simp [toList, ofFn]
  · intro i _ hi
    simp [toList, ofFn]

theorem toList_eq_map {β : Type} [Zero β] (a : NDArray β) :
    a.toList = (List.range a.size).map a.get := by
  have same : a = ofFn a.shape a.get := ext_get rfl fun i hi => (get_ofFn hi).symm
  conv_lhs => rw [same]
  exact toList_ofFn_eq_map a.shape a.get

theorem zipWith_range {β γ δ : Type} (n : ℕ) (f : β → γ → δ) (g : ℕ → β) (h : ℕ → γ) :
    ((List.range n).map g).zipWith f ((List.range n).map h) =
      (List.range n).map fun i => f (g i) (h i) := by
  rw [List.zipWith_map, List.zipWith_self]

end NDArray

namespace Adam

open NDArray (toList_eq_map toList_ofFn_eq_map zipWith_range)

variable {a : Adam ℝ} {x m v g : NDArray ℝ}

theorem toList_nextFirst (shape : g.shape = m.shape) :
    (a.nextFirst m g).toList = weigh a.beta₁ m.toList g.toList := by
  have size : g.size = m.size := congrArg Shape.size shape
  rw [toList_eq_map m, toList_eq_map g, size, weigh, zipWith_range]
  exact toList_ofFn_eq_map _ _

theorem toList_nextSecond (shape : g.shape = v.shape) :
    (a.nextSecond v g).toList = weighSquares a.beta₂ v.toList g.toList := by
  have size : g.size = v.size := congrArg Shape.size shape
  rw [toList_eq_map v, toList_eq_map g, size, weighSquares, zipWith_range]
  exact toList_ofFn_eq_map _ _

noncomputable def moved (a : Adam ℝ) (rate : ℝ) (c : ℝ × ℝ) (x m v : NDArray ℝ) : NDArray ℝ :=
  x.sub (NDArray.zipWith (fun m v => rate * m / (Scalar.sqrt v + a.eps)) (m.map (· / c.1))
    (v.map (· / c.2)))

theorem toList_moved (rate : ℝ) (c : ℝ × ℝ) (first : m.shape = x.shape)
    (second : v.shape = x.shape) : (a.moved rate c x m v).toList =
      adaptedPosition rate a.eps c.1 c.2 x.toList m.toList v.toList := by
  have size : m.size = x.size := congrArg Shape.size first
  have size' : v.size = x.size := congrArg Shape.size second
  rw [toList_eq_map x, toList_eq_map m, toList_eq_map v, size, size', adaptedPosition,
    List.zip, zipWith_range, zipWith_range]
  refine (toList_ofFn_eq_map _ _).trans (List.map_congr_left fun i hi => ?_)
  have inside : i < x.size := List.mem_range.1 hi
  have mean : (m.map (· / c.1)).get i = m.get i / c.1 :=
    NDArray.get_ofFn (inside.trans_eq size.symm)
  have square : (v.map (· / c.2)).get i = v.get i / c.2 :=
    NDArray.get_ofFn (inside.trans_eq size'.symm)
  have quotient : (NDArray.zipWith (fun m v => rate * m / (Scalar.sqrt v + a.eps))
      (m.map (· / c.1)) (v.map (· / c.2))).get i =
        rate * (m.map (· / c.1)).get i / (√((v.map (· / c.2)).get i) + a.eps) :=
    NDArray.get_ofFn (inside.trans_eq size.symm)
  dsimp only
  rw [quotient, mean, square]
  rfl

theorem powInt_natCast (β : ℝ) (t : ℕ) : powInt β t = .ok (β ^ t) := by
  have nonneg : ¬ (t : ℤ) < 0 := by omega
  have same : (Scalar.ofInt (t : ℤ) : ℝ) = Scalar.ofNat t := if_neg nonneg
  have plain : powInt β t = powNat β t := by
    rw [powInt, decide_eq_false nonneg, Bool.and_false, if_neg Bool.false_ne_true, same]
    rfl
  rw [plain, powNat_real]

theorem corrections_real {t : ℕ} (steps : a.steps = t) :
    a.corrections = .ok (1 - a.beta₁ ^ t, 1 - a.beta₂ ^ t) := by
  rw [corrections, correction, correction, steps, powInt_natCast, powInt_natCast]
  rfl

/-- The rule has these settings, and so many steps were counted. -/
structure Follows (a : Adam ℝ) (c : DescentConfig ℝ) (t : ℕ) : Prop where
  beta₁ : a.beta₁ = c.beta1
  beta₂ : a.beta₂ = c.beta2
  eps : a.eps = c.epsilon
  steps : a.steps = t

section Follows

variable {c : DescentConfig ℝ} {t : ℕ}

theorem Follows.learn (h : a.Follows c t) (i : ℕ) (g : NDArray ℝ) : (a.learn i g).Follows c t :=
  ⟨h.beta₁, h.beta₂, h.eps, h.steps⟩

theorem Follows.tick (h : a.Follows c t) : a.tick.Follows c (t + 1) := by
  refine ⟨h.beta₁, h.beta₂, h.eps, ?_⟩
  rw [Adam.tick, h.steps, Nat.cast_succ]

theorem Follows.corrections (h : a.Follows c t) :
    a.corrections = .ok (1 - c.beta1 ^ t, 1 - c.beta2 ^ t) := by
  rw [corrections_real h.steps, h.beta₁, h.beta₂]

end Follows

end Adam

namespace Workspace

variable {w w' : Workspace ℝ} {o : OptimizerId} {vs : List VariableId} {shapes : List Shape}
  {rate : ℝ} {a : Adam ℝ} {p q : VariableId × ℕ}

/-- A variable and the moments at its index, read as rows. -/
structure Reads (w : Workspace ℝ) (a : Adam ℝ) (p : VariableId × ℕ) (z : Moments ℝ × List ℝ) :
    Prop where
  value : (w.valueOf p.1).toList = z.2
  first : ∃ m, a.first[p.2]? = some m ∧ m.toList = z.1.first
  second : ∃ v, a.second[p.2]? = some v ∧ v.toList = z.1.second

theorem Learns.shape_moments (h : w.Learns o vs shapes rate a) (hp : p ∈ vs.zipIdx)
    {m : NDArray ℝ} (found : a.first[p.2]? = some m ∨ a.second[p.2]? = some m) :
    m.shape = w.shapeOf p.1 := by
  have listed := List.mem_zipIdx_iff_getElem?.1 hp
  have shape : shapes[p.2]? = some (w.shapeOf p.1) := by
    rw [← h.shaped, List.getElem?_map, listed, Option.map_some]
  rcases found with found | found
  · rw [← h.first, List.getElem?_map, found] at shape
    exact Option.some.inj shape
  · rw [← h.second, List.getElem?_map, found] at shape
    exact Option.some.inj shape

theorem Learns.data_inj_zipIdx (h : w.Learns o vs shapes rate a) (hp : p ∈ vs.zipIdx)
    (hq : q ∈ vs.zipIdx) : (w.var q.1).data = (w.var p.1).data ↔ q = p := by
  have listed : w.Learns o (vs.zipIdx.map Prod.fst) shapes rate a := by
    rwa [List.zipIdx_map_fst]
  exact listed.data_inj hq hp

end Workspace

namespace Adam

variable {a : Adam ℝ} {i : ℕ} {m v g : NDArray ℝ}

theorem first_learn (found : a.first[i]? = some m) :
    (a.learn i g).first[i]? = some (a.nextFirst m g) := by
  obtain ⟨inside, rfl⟩ := List.getElem?_eq_some_iff.1 found
  have known : a.first.getD i (.fill g.shape 0) = a.first[i] := List.getD_eq_getElem _ _ inside
  change (a.first.set i (a.nextFirst (a.first.getD i (.fill g.shape 0)) g))[i]? = _
  rw [known, List.getElem?_set_self inside]

theorem second_learn (found : a.second[i]? = some v) :
    (a.learn i g).second[i]? = some (a.nextSecond v g) := by
  obtain ⟨inside, rfl⟩ := List.getElem?_eq_some_iff.1 found
  have known : a.second.getD i (.fill g.shape 0) = a.second[i] := List.getD_eq_getElem _ _ inside
  change (a.second.set i (a.nextSecond (a.second.getD i (.fill g.shape 0)) g))[i]? = _
  rw [known, List.getElem?_set_self inside]

theorem sub_displacement (first : a.first[i]? = some m) (second : a.second[i]? = some v) (rate : ℝ)
    (c : ℝ × ℝ) (shape : Shape) (x : NDArray ℝ) :
    x.sub (a.displacement rate c i shape) = a.moved rate c x m v := by
  have mean : a.first.getD i (.fill shape 0) = m := by simp [List.getD, first]
  have square : a.second.getD i (.fill shape 0) = v := by simp [List.getD, second]
  rw [displacement, mean, square]
  rfl

end Adam

namespace Session

open Workspace (Reads)

variable {w : Workspace ℝ} {o : OptimizerId} {vs : List VariableId} {shapes : List Shape}
  {c : DescentConfig ℝ} {a : Adam ℝ} {t : ℕ} {p : VariableId × ℕ} {g : NDArray ℝ}

theorem reads_adapt (learns : w.Learns o vs shapes c.learningRate a) (follows : a.Follows c t)
    (hp : p ∈ vs.zipIdx) (given : (w.var p.1).grad = some (.ofArray g))
    (shape : g.shape = w.shapeOf p.1) :
    ∃ w', outcome (adapt o (1 - c.beta1 ^ t, 1 - c.beta2 ^ t) p.1 p.2) w = (.ok (), w') ∧
      w'.Learns o vs shapes c.learningRate (a.learn p.2 g) ∧
      (∀ u, (w'.var u).grad = (w.var u).grad) ∧
      (∀ z, w.Reads a p z → w'.Reads (a.learn p.2 g) p (c.adapted t z.1 g.toList z.2)) ∧
      ∀ q ∈ vs.zipIdx, q ≠ p → ∀ z, w.Reads a q z → w'.Reads (a.learn p.2 g) q z := by
  have hv : p.1 ∈ vs := List.fst_mem_of_mem_zipIdx hp
  have held := learns.held p.1 hv
  have learning := learns.mapAdam (f := fun b => b.learn p.2 g) (a.shapes_learn p.2 g).1
    (a.shapes_learn p.2 g).2
  refine ⟨_, outcome_adapt learns hv given _ p.2, learning.fill hv held.shape, fun _ => rfl, ?_, ?_⟩
  · rintro ⟨⟨_, _⟩, _⟩ ⟨rfl, ⟨m, first, rfl⟩, v, second, rfl⟩
    have shape₁ := learns.shape_moments hp (.inl first)
    have shape₂ := learns.shape_moments hp (.inr second)
    have fits₁ : (a.nextFirst m g).shape = (w.valueOf p.1).shape := shape₁.trans held.shape.symm
    have fits₂ : (a.nextSecond v g).shape = (w.valueOf p.1).shape := shape₂.trans held.shape.symm
    have first' := Adam.first_learn (g := g) first
    have second' := Adam.second_learn (g := g) second
    have next₁ := Adam.toList_nextFirst (a := a) (shape.trans shape₁.symm)
    have next₂ := Adam.toList_nextSecond (a := a) (shape.trans shape₂.symm)
    rw [follows.beta₁] at next₁
    rw [follows.beta₂] at next₂
    refine ⟨?_, ⟨_, first', next₁⟩, ⟨_, second', next₂⟩⟩
    rw [Workspace.valueOf_fill (learning.held p.1 hv).made, if_pos rfl,
      Adam.sub_displacement first' second', Adam.toList_moved _ _ fits₁ fits₂, next₁, next₂,
      (follows.learn p.2 g).eps]
    rfl
  · -- Another variable is on another tensor, and its moments are at another index.
    rintro q hq other ⟨s, x⟩ ⟨value, ⟨m, first, mean⟩, v, second, square⟩
    have apart : (w.var q.1).data ≠ (w.var p.1).data := (learns.data_inj_zipIdx hp hq).not.2 other
    have places : p.2 ≠ q.2 := fun same => other (Prod.ext (Option.some.inj
      ((List.mem_zipIdx_iff_getElem?.1 hq).symm.trans (same ▸ List.mem_zipIdx_iff_getElem?.1 hp)))
      same.symm)
    refine ⟨?_, ⟨m, (List.getElem?_set_ne places).trans first, mean⟩,
      ⟨v, (List.getElem?_set_ne places).trans second, square⟩⟩
    rw [Workspace.valueOf_fill (learning.held p.1 hv).made]
    exact (congrArg NDArray.toList (if_neg apart)).trans value

theorem reads_adapts (gs : ℕ → NDArray ℝ) : ∀ {ps : List (VariableId × ℕ)} {w : Workspace ℝ}
    {a : Adam ℝ}, w.Learns o vs shapes c.learningRate a → a.Follows c t → ps.Nodup →
    (∀ p ∈ ps, p ∈ vs.zipIdx ∧ (w.var p.1).grad = some (.ofArray (gs p.2)) ∧
      (gs p.2).shape = w.shapeOf p.1) →
    ∃ w' a', outcome (ps.forM fun (v, i) => adapt o (1 - c.beta1 ^ t, 1 - c.beta2 ^ t) v i) w =
        (.ok (), w') ∧ w'.Learns o vs shapes c.learningRate a' ∧ a'.Follows c t ∧
      (∀ p ∈ ps, ∀ z, w.Reads a p z → w'.Reads a' p (c.adapted t z.1 (gs p.2).toList z.2)) ∧
      ∀ q ∈ vs.zipIdx, q ∉ ps → ∀ z, w.Reads a q z → w'.Reads a' q z
  | [], w, a, learns, follows, _, _ => ⟨w, a, rfl, learns, follows, nofun, fun _ _ _ _ h => h⟩
  | p :: ps, w, a, learns, follows, distinct, all => by
    obtain ⟨⟨hp, given, shape⟩, others⟩ := List.forall_mem_cons.1 all
    obtain ⟨apart, distinct⟩ := List.nodup_cons.1 distinct
    obtain ⟨w₁, run, learns₁, grads, moved, stay⟩ := reads_adapt learns follows hp given shape
    have shapes₁ := List.map_inj_left.1 (learns₁.shaped.trans learns.shaped.symm)
    have others₁ : ∀ q ∈ ps, q ∈ vs.zipIdx ∧ (w₁.var q.1).grad = some (.ofArray (gs q.2)) ∧
        (gs q.2).shape = w₁.shapeOf q.1 := fun q hq =>
      have ⟨listed, given, shape⟩ := others q hq
      ⟨listed, (grads q.1).trans given,
        shape.trans (shapes₁ q.1 (List.fst_mem_of_mem_zipIdx listed)).symm⟩
    obtain ⟨w', a', rest, learns', follows', moved', stay'⟩ :=
      reads_adapts gs learns₁ (follows.learn p.2 (gs p.2)) distinct others₁
    -- The first variable moves now and stays later; the others stay now and move later.
    refine ⟨w', a', (outcome_bind_ok run _).trans rest, learns', follows',
      List.forall_mem_cons.2 ⟨fun z reads => stay' p hp apart _ (moved z reads), ?_⟩, ?_⟩
    · exact fun q hq z reads => moved' q hq z
        (stay q (others q hq).1 (fun same => apart (same ▸ hq)) z reads)
    · intro q hq new z reads
      obtain ⟨other, later⟩ := not_or.1 (List.mem_cons.not.1 new)
      exact stay' q hq later z (stay q hq other z reads)

theorem reads_step (learns : w.Learns o vs shapes c.learningRate a) (follows : a.Follows c t)
    (gs : ℕ → NDArray ℝ) (shape : ∀ p ∈ vs.zipIdx, (gs p.2).shape = w.shapeOf p.1) :
    ∃ w' a', outcome (do offer vs fun i => some (gs i); step o) w = (.ok (), w') ∧
      w'.Learns o vs shapes c.learningRate a' ∧ a'.Follows c (t + 1) ∧
      ∀ p ∈ vs.zipIdx, ∀ z, w.Reads a p z →
        w'.Reads a' p (c.adapted (t + 1) z.1 (gs p.2).toList z.2) := by
  obtain ⟨w₁, offered, frame, learns₁, given⟩ := outcome_offer learns fun i => some (gs i)
  have learns₂ := learns₁.mapAdam (f := Adam.tick) rfl rfl
  have distinct : vs.zipIdx.Nodup := (List.nodup_zipIdx_map_snd vs).of_map _
  have all : ∀ p ∈ vs.zipIdx, p ∈ vs.zipIdx ∧
      ((w₁.modifyOptimizer o (Optimizer.mapAdam Adam.tick)).var p.1).grad =
        some (.ofArray (gs p.2)) ∧
      (gs p.2).shape = (w₁.modifyOptimizer o (Optimizer.mapAdam Adam.tick)).shapeOf p.1 :=
    fun p hp => ⟨hp, given p hp,
      (shape p hp).trans (congrFun frame.shapeOf p.1).symm⟩
  obtain ⟨w', a', run, learns', follows', moved, -⟩ :=
    reads_adapts gs learns₂ follows.tick distinct all
  refine ⟨w', a', ?_, learns', follows', fun p hp z reads => moved p hp z ?_⟩
  · rw [outcome_bind_ok offered, outcome_step learns₁.found, follows.tick.corrections, failAs_ok,
      outcome_bind_ok (outcome_ofExcept (.ok _))]
    exact run
  · exact ⟨(congrArg NDArray.toList (congrFun frame.valueOf p.1)).trans reads.value, reads.first,
      reads.second⟩

theorem reads_train (tempered : c.Tempered) : ∀ {gs : List (ℕ → NDArray ℝ)} {w : Workspace ℝ}
    {a : Adam ℝ} {t : ℕ}, w.Learns o vs shapes c.learningRate a → a.Follows c t →
    (∀ g ∈ gs, ∀ p ∈ vs.zipIdx, (g p.2).shape = w.shapeOf p.1) →
    ∃ w' a', outcome (train vs o (gs.map fun g i => some (g i))) w = (.ok (), w') ∧
      w'.Learns o vs shapes c.learningRate a' ∧ a'.Follows c (t + gs.length) ∧
      ∀ p ∈ vs.zipIdx, ∀ z, w.Reads a p z → (∀ y ∈ z.1.second, 0 ≤ y) →
        ∃ z', DescentMethod.adam.follow c t z.1 z.2 (gs.map fun g => (g p.2).toList) = .ok z' ∧
          w'.Reads a' p z'
  | [], w, a, _, learns, follows, _ =>
    ⟨w, a, rfl, learns, follows, fun _ _ z reads _ => ⟨z, rfl, reads⟩⟩
  | g :: gs, w, a, t, learns, follows, shape => by
    obtain ⟨here, later⟩ := List.forall_mem_cons.1 shape
    obtain ⟨w₁, a₁, run, learns₁, follows₁, stepped⟩ := reads_step learns follows g here
    have shapes₁ := List.map_inj_left.1 (learns₁.shaped.trans learns.shaped.symm)
    have later₁ : ∀ g ∈ gs, ∀ p ∈ vs.zipIdx, (g p.2).shape = w₁.shapeOf p.1 := fun g hg p hp =>
      (later g hg p hp).trans (shapes₁ p.1 (List.fst_mem_of_mem_zipIdx hp)).symm
    obtain ⟨w', a', rest, learns', follows', led⟩ := reads_train tempered learns₁ follows₁ later₁
    refine ⟨w', a', (outcome_bind_ok run _).trans rest, learns', ?_, fun p hp z reads squares => ?_⟩
    · rwa [List.length_cons, Nat.add_comm gs.length, ← Nat.add_assoc]
    · obtain ⟨z', ends, reads'⟩ := led p hp _ (stepped p hp z reads)
        (weighSquares_nonneg (g := (g p.2).toList) tempered.beta2 squares)
      refine ⟨z', ?_, reads'⟩
      rw [List.map_cons, DescentMethod.follow_cons (step_adam tempered squares t _ _)]
      exact ends

theorem reads_start (learns : w.Learns o vs shapes c.learningRate
    (.start c.beta1 c.beta2 c.epsilon shapes)) (hp : p ∈ vs.zipIdx) :
    w.Reads (.start c.beta1 c.beta2 c.epsilon shapes) p
      (.zero (w.shapeOf p.1).size, (w.valueOf p.1).toList) := by
  have listed := List.mem_zipIdx_iff_getElem?.1 hp
  have zeros : (shapes.map fun s => NDArray.fill s (0 : ℝ))[p.2]? =
      some (.fill (w.shapeOf p.1) 0) := by
    rw [List.getElem?_map, ← learns.shaped, List.getElem?_map, listed]
    rfl
  have row : (NDArray.fill (w.shapeOf p.1) (0 : ℝ)).toList =
      List.replicate (w.shapeOf p.1).size 0 := by
    rw [NDArray.fill, NDArray.toList_ofFn_eq_map, List.map_const', List.length_range]
  exact ⟨rfl, ⟨_, zeros, row⟩, ⟨_, zeros, row⟩⟩

/-- Tensors and expressions, one descent. Each variable that a new optimizer moves goes, on whatever
gradients, where the steps of the descent go from the row of its elements; and minimising an
expression takes these steps on the gradients along its way. After every one of them the means,
divided by their corrections, are averages of the gradients and of their squares. -/
theorem train_follows_descent [NumberText ℝ] {configure : DescentMethod → DescentConfig ℝ}
    (tempered : (configure .adam).Tempered) :
    let c := configure .adam
    (∀ (w : Workspace ℝ) (o : OptimizerId) (vs : List VariableId) (shapes : List Shape)
      (gs : List (ℕ → NDArray ℝ)), w.Learns o vs shapes c.learningRate
        (.start c.beta1 c.beta2 c.epsilon shapes) →
      (∀ g ∈ gs, ∀ p ∈ vs.zipIdx, (g p.2).shape = w.shapeOf p.1) →
      ∃ w' a, outcome (train vs o (gs.map fun g i => some (g i))) w = (.ok (), w') ∧
        w'.Learns o vs shapes c.learningRate a ∧ a.Follows c gs.length ∧
        a.corrections = .ok (1 - c.beta1 ^ gs.length, 1 - c.beta2 ^ gs.length) ∧
        ∀ p ∈ vs.zipIdx,
          let n := (w.shapeOf p.1).size
          let x := (w.valueOf p.1).toList
          let rows := gs.map fun g => (g p.2).toList
          c.Averages n x rows ∧
            ∃ z, DescentMethod.adam.follow c 0 (.zero n) x rows = .ok z ∧ w'.Reads a p z) ∧
      ∀ (objective : Objective ℝ) (e : Expr ℝ) (names : List String) (initial : List ℝ)
        (s : Engine), (objective.read s).1 = .ok e → names.length = initial.length → names ≠ [] →
        let b := startPosition names initial
        let n := b.values.length
        (minimize objective names initial "adam" configure).Gives fun result => ∃ r gs,
          result = .ok r ∧ r.iterations = gs.length ∧ c.Averages n b.values gs ∧
            (DescentProblem.ofNames e names).Goes .adam c 0 (.zero n) b gs r.solution := by
  intro c
  refine ⟨fun w o vs shapes gs learns shape => ?_, fun objective e names initial s reads paired
    named => ?_⟩
  · have follows : (Adam.start c.beta1 c.beta2 c.epsilon shapes).Follows c 0 :=
      ⟨rfl, rfl, rfl, rfl⟩
    obtain ⟨w', a, run, learns', follows', led⟩ := reads_train tempered learns follows shape
    rw [Nat.zero_add] at follows'
    refine ⟨w', a, run, learns', follows', follows'.corrections, fun p hp => ⟨?_, ?_⟩⟩
    · refine averages tempered (List.forall_mem_map.2 fun g hg => ?_) _
      rw [← shape g hg p hp, NDArray.toList_eq_map, List.length_map, List.length_range]
      exact le_refl _
    · exact led p hp _ (reads_start learns hp) (zero_nonneg _)
  · intro b n engine
    obtain ⟨r, gs, ends, iterations, goes⟩ :=
      gives_minimize_adam reads tempered paired named engine
    refine ⟨r, gs, ends, iterations, averages tempered (fun g hg => ?_) _, goes⟩
    rw [goes.length g hg]
    exact length_startPosition_le paired

noncomputable def onesWorkspace (c : DescentConfig ℝ) : Workspace ℝ :=
  { Workspace.empty (fun _ => 0) with
    tensors := #[⟨[2], some (.fill [2] 1), none⟩]
    vars := #[⟨⟨0⟩, none, true, true, ""⟩]
    optimizers := #[⟨[⟨0⟩], c.learningRate, .adam (.start c.beta1 c.beta2 c.epsilon [[2]])⟩] }

theorem learns_onesWorkspace (c : DescentConfig ℝ) : (onesWorkspace c).Learns ⟨0⟩ [⟨0⟩] [[2]]
    c.learningRate (.start c.beta1 c.beta2 c.epsilon [[2]]) where
  found := rfl
  held := List.forall_mem_singleton.2 ⟨Nat.one_pos, Nat.one_pos, nofun, rfl, rfl⟩
  distinct := List.nodup_singleton _
  shaped := rfl
  first := rfl
  second := rfl

theorem tempered_default : (DescentConfig.default .adam : DescentConfig ℝ).Tempered where
  beta1 := by
    change (0 : ℝ) ≤ 0.9 ∧ (0.9 : ℝ) < 1
    norm_num
  beta2 := by
    change (0 : ℝ) ≤ 0.999 ∧ (0.999 : ℝ) < 1
    norm_num
  epsilon := by
    change (0 : ℝ) < 1e-8
    norm_num

theorem train_follows_descent_default :
    let c : DescentConfig ℝ := .default .adam
    let w := onesWorkspace c
    let gs : List (ℕ → NDArray ℝ) := [fun _ => .fill [2] 3, fun _ => .fill [2] (-1)]
    let e : Expr ℝ := .bin .mul (.var "X") (.var "X")
    c.Tempered ∧ w.Learns ⟨0⟩ [⟨0⟩] [[2]] c.learningRate (.start c.beta1 c.beta2 c.epsilon [[2]]) ∧
      (∃ w' a z, outcome (train [⟨0⟩] ⟨0⟩ (gs.map fun g i => some (g i))) w = (.ok (), w') ∧
        a.corrections = .ok (1 - c.beta1 ^ 2, 1 - c.beta2 ^ 2) ∧
        DescentMethod.adam.follow c 0 (.zero 2) [1, 1] [[3, 3], [-1, -1]] = .ok z ∧
        w'.Reads a (⟨0⟩, 0) z ∧ c.Averages 2 [1, 1] [[3, 3], [-1, -1]]) ∧
      ((Objective.tree e).read Engine.start).1 = .ok e ∧
      ∃ r gs, (minimize (.tree e) ["x"] [1] "adam" .default Engine.start).1 = .ok r ∧
        (DescentProblem.ofNames e ["x"]).Goes .adam c 0
          (.zero (startPosition ["x"] [(1 : ℝ)]).values.length) (startPosition ["x"] [1]) gs
          r.solution := by
  intro c w gs e
  have learns := learns_onesWorkspace c
  have row (x : ℝ) : (NDArray.fill [2] x).toList = [x, x] := NDArray.toList_ofFn_eq_map _ _
  have shape : ∀ g ∈ gs, ∀ p ∈ [(⟨0⟩ : VariableId)].zipIdx, (g p.2).shape = w.shapeOf p.1 := by
    intro g hg p hp
    obtain rfl := List.mem_singleton.1 hp
    rcases List.mem_pair.1 hg with rfl | rfl <;> rfl
  have reads : ((Objective.tree e).read Engine.start).1 = .ok e := rfl
  obtain ⟨tensors, expressions⟩ := train_follows_descent tempered_default
  obtain ⟨w', a, run, -, -, corrections, led⟩ := tensors w ⟨0⟩ [⟨0⟩] [[2]] gs learns shape
  obtain ⟨means, z, ends, read⟩ := led (⟨0⟩, 0) (List.mem_singleton_self _)
  have start : (w.valueOf ⟨0⟩).toList = [1, 1] := row 1
  have rows : (gs.map fun g => (g 0).toList) = [[3, 3], [-1, -1]] := by
    simp only [gs, List.map_cons, List.map_nil, row]
  rw [start, rows] at means ends
  obtain ⟨r, gs', result, -, -, goes⟩ :=
    expressions (.tree e) e ["x"] [1] Engine.start reads rfl (List.cons_ne_nil _ _) Engine.start
  exact ⟨tempered_default, learns, ⟨w', a, z, run, corrections, ends, read, means⟩, reads, r, gs',
    result, goes⟩

end Session

end DerivativeEngine
