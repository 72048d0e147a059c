import Mathlib.Algebra.Order.Ring.GeomSum
import Mathlib.Data.List.GetD
import DerivativeEngine.Proofs.Optimize.Iteration
import DerivativeEngine.Proofs.Scalar.Exact

/-! The Adam rule over the real numbers. A running mean that started at zero is a sum of what it was
given, with weights that fall off geometrically; divided by its correction it is an average, since
the correction is the sum of the weights. So a mean of squares stays where it has a root, nothing is
ever divided by zero, and every iteration leads to a next position. -/

namespace DerivativeEngine

open Finset (range)

/-- The weight of what was given as number `k` of `t`, in a corrected mean. -/
noncomputable def averageWeight (β : ℝ) (t k : ℕ) : ℝ := (1 - β) * β ^ (t - 1 - k) / (1 - β ^ t)

noncomputable def runningMean (β : ℝ) (m : ℝ) (zs : List ℝ) : ℝ :=
  zs.foldl (fun m z => β * m + (1 - β) * z) m

section Means

variable {β : ℝ} {t : ℕ}

theorem runningMean_eq_sum (β : ℝ) (zs : List ℝ) : runningMean β 0 zs =
    ∑ k ∈ range zs.length, (1 - β) * β ^ (zs.length - 1 - k) * zs.getD k 0 := by
  -- From the last number backwards: each further number multiplies the earlier weights once more.
  induction zs using List.reverseRecOn with
  | nil => rfl
  | append_singleton zs z ih =>
    have earlier : ∀ k ∈ range zs.length,
        (1 - β) * β ^ (zs.length + 1 - 1 - k) * (zs ++ [z]).getD k 0 =
          β * ((1 - β) * β ^ (zs.length - 1 - k) * zs.getD k 0) := by
      intro k hk
      have inside : k < zs.length := Finset.mem_range.1 hk
      have exponent : zs.length + 1 - 1 - k = zs.length - 1 - k + 1 := by omega
      rw [List.getD_append _ _ _ _ inside, exponent, pow_succ]
      ring
    have last : (zs ++ [z]).getD zs.length 0 = z := by simp
    rw [List.length_append, List.length_singleton, Finset.sum_range_succ,
      Finset.sum_congr rfl earlier, ← Finset.mul_sum, ← ih, last, Nat.add_sub_cancel, Nat.sub_self,
      pow_zero, mul_one, runningMean, List.foldl_append]
    rfl

theorem correction_pos (small : 0 ≤ β) (below : β < 1) (begun : t ≠ 0) : 0 < 1 - β ^ t :=
  sub_pos.2 (pow_lt_one₀ small below begun)

theorem averageWeight_nonneg (small : 0 ≤ β) (below : β < 1) (begun : t ≠ 0) (k : ℕ) :
    0 ≤ averageWeight β t k :=
  div_nonneg (mul_nonneg (sub_nonneg.2 below.le) (pow_nonneg small _))
    (correction_pos small below begun).le

theorem sum_averageWeight (small : 0 ≤ β) (below : β < 1) (begun : t ≠ 0) :
    ∑ k ∈ range t, averageWeight β t k = 1 := by
  have total : ∑ k ∈ range t, (1 - β) * β ^ (t - 1 - k) = 1 - β ^ t := by
    rw [Finset.sum_range_reflect (fun k => (1 - β) * β ^ k), ← Finset.mul_sum, mul_neg_geom_sum]
  simp only [averageWeight]
  rw [← Finset.sum_div, total, div_self (correction_pos small below begun).ne']

theorem runningMean_div (β : ℝ) (zs : List ℝ) : runningMean β 0 zs / (1 - β ^ zs.length) =
    ∑ k ∈ range zs.length, averageWeight β zs.length k * zs.getD k 0 := by
  rw [runningMean_eq_sum, Finset.sum_div]
  exact Finset.sum_congr rfl fun k _ => by rw [averageWeight, div_mul_eq_mul_div]

end Means

/-- Both weights are below one and not negative, and what is added to a root is positive. -/
structure DescentConfig.Tempered (c : DescentConfig ℝ) : Prop where
  beta1 : 0 ≤ c.beta1 ∧ c.beta1 < 1
  beta2 : 0 ≤ c.beta2 ∧ c.beta2 < 1
  epsilon : 0 < c.epsilon

theorem powNat_real (β : ℝ) (t : ℕ) : powNat β t = .ok (β ^ t) := by
  have power : (Scalar.pow β (Scalar.ofNat t) : ℝ) = β ^ t := Real.rpow_natCast β t
  rw [powNat, DerivativeEngine.power, power]
  rfl

theorem biasCorrection_real (β : ℝ) (t : ℕ) : biasCorrection β t = .ok (1 - β ^ t) := by
  rw [biasCorrection, powNat_real]
  rfl

noncomputable def adaptedCoordinate (rate epsilon bias₁ bias₂ x m v : ℝ) : ℝ :=
  x - rate * (m / bias₁) / (√(v / bias₂) + epsilon)

noncomputable def adaptedPosition (rate epsilon bias₁ bias₂ : ℝ) (x m v : List ℝ) : List ℝ :=
  x.zipWith (fun x p => adaptedCoordinate rate epsilon bias₁ bias₂ x p.1 p.2) (m.zip v)

section Steps

variable {epsilon bias₁ bias₂ : ℝ}

theorem adamCoordinate_eq_ok (rate : ℝ) (added : 0 < epsilon) (first : 0 < bias₁)
    (second : 0 < bias₂) {v : ℝ} (square : 0 ≤ v) (x m : ℝ) :
    adamCoordinate rate epsilon bias₁ bias₂ x m v =
      .ok (adaptedCoordinate rate epsilon bias₁ bias₂ x m v) := by
  have share {y z : ℝ} (apart : z ≠ 0) : divide y z = .ok (y / z) := if_neg (by simpa using apart)
  have rooted : root (v / bias₂) = .ok √(v / bias₂) :=
    if_neg (div_nonneg square second.le).not_gt
  have divisor : √(v / bias₂) + epsilon ≠ 0 :=
    (add_pos_of_nonneg_of_pos (Real.sqrt_nonneg _) added).ne'
  rw [adamCoordinate, share first.ne', share second.ne']
  change (do return x - (← divide (rate * (m / bias₁)) ((← root (v / bias₂)) + epsilon))) = _
  rw [rooted]
  change (do return x - (← divide (rate * (m / bias₁)) (√(v / bias₂) + epsilon))) = _
  rw [share divisor]
  rfl

theorem adamPosition_eq_ok (rate : ℝ) (added : 0 < epsilon) (first : 0 < bias₁)
    (second : 0 < bias₂) : ∀ (x m : List ℝ) {v : List ℝ}, (∀ z ∈ v, 0 ≤ z) →
      adamPosition rate epsilon bias₁ bias₂ x m v =
        .ok (adaptedPosition rate epsilon bias₁ bias₂ x m v)
  | [], _, _, _ => by simp [adamPosition, adaptedPosition]; rfl
  | _ :: _, [], _, _ => by simp [adamPosition, adaptedPosition]; rfl
  | _ :: _, _ :: _, [], _ => by simp [adamPosition, adaptedPosition]; rfl
  | x :: xs, m :: ms, z :: zs, squares => by
    obtain ⟨square, others⟩ := List.forall_mem_cons.1 squares
    rw [adamPosition, adamCoordinate_eq_ok rate added first second square,
      adamPosition_eq_ok rate added first second xs ms others]
    rfl

end Steps

section Follow

variable {c : DescentConfig ℝ} {s : Moments ℝ} {x g : List ℝ} {gs : List (List ℝ)}

theorem weighSquares_nonneg {β : ℝ} {v g : List ℝ} (between : 0 ≤ β ∧ β < 1)
    (squares : ∀ z ∈ v, 0 ≤ z) : ∀ z ∈ weighSquares β v g, 0 ≤ z := by
  intro z hz
  obtain ⟨i, hi, rfl⟩ := List.mem_iff_getElem.1 hz
  simp only [weighSquares, List.getElem_zipWith, mul_assoc]
  have kept := squares _ (List.getElem_mem (List.lt_length_left_of_zipWith hi))
  exact add_nonneg (mul_nonneg between.1 kept)
    (mul_nonneg (sub_nonneg.2 between.2.le) (mul_self_nonneg _))

noncomputable def DescentConfig.adapted (c : DescentConfig ℝ) (t : ℕ) (s : Moments ℝ)
    (g x : List ℝ) : Moments ℝ × List ℝ :=
  let first := weigh c.beta1 s.first g
  let second := weighSquares c.beta2 s.second g
  ({ s with first, second },
    adaptedPosition c.learningRate c.epsilon (1 - c.beta1 ^ t) (1 - c.beta2 ^ t) x first second)

theorem step_adam (tempered : c.Tempered) (squares : ∀ z ∈ s.second, 0 ≤ z) (t : ℕ)
    (g x : List ℝ) : DescentMethod.adam.step c (t + 1) s g x = .ok (c.adapted (t + 1) s g x) := by
  have begun := Nat.succ_ne_zero t
  have position := adamPosition_eq_ok c.learningRate tempered.epsilon
    (correction_pos tempered.beta1.1 tempered.beta1.2 begun)
    (correction_pos tempered.beta2.1 tempered.beta2.2 begun) x (weigh c.beta1 s.first g)
    (weighSquares_nonneg (g := g) tempered.beta2 squares)
  rw [DescentMethod.step, biasCorrection_real, biasCorrection_real]
  change (do return (_, ← adamPosition _ _ _ _ x (weigh c.beta1 s.first g)
    (weighSquares c.beta2 s.second g))) = _
  rw [position]
  rfl

end Follow

/-- The steps of a first-order method on these gradients, `done` of which came before. -/
def DescentMethod.follow {α : Type} [Scalar α] (method : DescentMethod) (c : DescentConfig α) :
    ℕ → Moments α → List α → List (List α) → Except ArithmeticFault (Moments α × List α)
  | _, s, x, [] => .ok (s, x)
  | done, s, x, g :: gs => do
    let (s, x) ← method.step c (done + 1) s g x
    method.follow c (done + 1) s x gs

section Follow

variable {α : Type} [Scalar α] {method : DescentMethod} {c : DescentConfig α} {done : ℕ}
  {s s' : Moments α} {g x x' : List α}

theorem DescentMethod.follow_cons (h : method.step c (done + 1) s g x = .ok (s', x'))
    (gs : List (List α)) :
    method.follow c done s x (g :: gs) = method.follow c (done + 1) s' x' gs := by
  rw [follow, h]
  rfl

end Follow

section Averages

variable {c : DescentConfig ℝ} {β : ℝ} {m g : List ℝ} {gs : List (List ℝ)} {j n : ℕ}

theorem length_weigh (long : m.length ≤ g.length) : (weigh β m g).length = m.length :=
  length_zipWith_of_le long

theorem getD_weigh (long : m.length ≤ g.length) (hj : j < m.length) :
    (weigh β m g).getD j 0 = β * m.getD j 0 + (1 - β) * g.getD j 0 := by
  have inside : j < (weigh β m g).length := length_weigh long ▸ hj
  rw [List.getD_eq_getElem _ _ inside, List.getD_eq_getElem _ _ hj,
    List.getD_eq_getElem _ _ (hj.trans_le long)]
  exact List.getElem_zipWith

theorem length_foldl_weigh : ∀ {gs : List (List ℝ)} {m : List ℝ},
    (∀ g ∈ gs, m.length ≤ g.length) → (gs.foldl (weigh β) m).length = m.length
  | [], _, _ => rfl
  | g :: gs, m, long => by
    obtain ⟨first, others⟩ := List.forall_mem_cons.1 long
    rw [List.foldl_cons, length_foldl_weigh fun g hg => (length_weigh first).trans_le (others g hg),
      length_weigh first]

theorem getD_foldl_weigh : ∀ {gs : List (List ℝ)} {m : List ℝ},
    (∀ g ∈ gs, m.length ≤ g.length) → j < m.length → (gs.foldl (weigh β) m).getD j 0 =
      runningMean β (m.getD j 0) (gs.map fun g => g.getD j 0)
  | [], _, _, _ => rfl
  | g :: gs, m, long, hj => by
    obtain ⟨first, others⟩ := List.forall_mem_cons.1 long
    have same := length_weigh (β := β) first
    rw [List.foldl_cons,
      getD_foldl_weigh (fun g hg => same.trans_le (others g hg)) (same.symm ▸ hj),
      getD_weigh first hj]
    rfl

theorem weighSquares_eq_weigh (β : ℝ) (v g : List ℝ) :
    weighSquares β v g = weigh β v (g.map fun z => z ^ 2) := by
  rw [weigh, weighSquares, List.zipWith_map_right]
  congr 1
  funext m z
  ring

theorem foldl_weighSquares (β : ℝ) (v : List ℝ) (gs : List (List ℝ)) :
    gs.foldl (weighSquares β) v = (gs.map (List.map fun z => z ^ 2)).foldl (weigh β) v := by
  rw [List.foldl_map]
  congr 1
  funext v g
  exact weighSquares_eq_weigh β v g

/-- The means of so many coordinates after these gradients. Divided by their corrections they are
averages of the gradients and of their squares; nothing there is divided by zero, and no root is
taken of a negative number. -/
structure Moments.Average (c : DescentConfig ℝ) (n : ℕ) (gs : List (List ℝ)) (s : Moments ℝ) :
    Prop where
  length : s.first.length = n ∧ s.second.length = n
  bias₁ : 0 < 1 - c.beta1 ^ gs.length
  bias₂ : 0 < 1 - c.beta2 ^ gs.length
  weights₁ : (∀ k < gs.length, 0 ≤ averageWeight c.beta1 gs.length k) ∧
    ∑ k ∈ range gs.length, averageWeight c.beta1 gs.length k = 1
  weights₂ : (∀ k < gs.length, 0 ≤ averageWeight c.beta2 gs.length k) ∧
    ∑ k ∈ range gs.length, averageWeight c.beta2 gs.length k = 1
  first : ∀ j < n, s.first.getD j 0 / (1 - c.beta1 ^ gs.length) =
    ∑ k ∈ range gs.length, averageWeight c.beta1 gs.length k * (gs.getD k []).getD j 0
  second : ∀ j < n, s.second.getD j 0 / (1 - c.beta2 ^ gs.length) =
    ∑ k ∈ range gs.length, averageWeight c.beta2 gs.length k * (gs.getD k []).getD j 0 ^ 2
  root : ∀ j < n, 0 ≤ s.second.getD j 0 / (1 - c.beta2 ^ gs.length)
  divisor : ∀ j < n, 0 < √(s.second.getD j 0 / (1 - c.beta2 ^ gs.length)) + c.epsilon

theorem follow_adam (tempered : c.Tempered) : ∀ (gs : List (List ℝ)) (done : ℕ) {s : Moments ℝ}
    (x : List ℝ), (∀ z ∈ s.second, 0 ≤ z) → ∃ x', DescentMethod.adam.follow c done s x gs =
      .ok ({ s with
        first := gs.foldl (weigh c.beta1) s.first
        second := gs.foldl (weighSquares c.beta2) s.second }, x')
  | [], _, _, x, _ => ⟨x, rfl⟩
  | g :: gs, done, s, x, squares => by
    have step := step_adam tempered squares done g x
    rw [DescentMethod.follow_cons step]
    exact follow_adam tempered gs (done + 1) _ (weighSquares_nonneg tempered.beta2 squares)

theorem zero_nonneg (n : ℕ) : ∀ z ∈ (Moments.zero n : Moments ℝ).second, 0 ≤ z :=
  fun _ hz => (List.eq_of_mem_replicate hz).ge

theorem corrected_mean (long : ∀ g ∈ gs, n ≤ g.length) (hj : j < n) :
    (gs.foldl (weigh β) (List.replicate n 0)).getD j 0 / (1 - β ^ gs.length) =
      ∑ k ∈ range gs.length, averageWeight β gs.length k * (gs.getD k []).getD j 0 := by
  have zeros : ∀ g ∈ gs, (List.replicate n (0 : ℝ)).length ≤ g.length := by simpa using long
  have inside : j < (List.replicate n (0 : ℝ)).length := by simpa using hj
  have start : (List.replicate n (0 : ℝ)).getD j 0 = 0 := by simp [hj]
  have mean := runningMean_div β (gs.map fun g => g.getD j 0)
  rw [List.length_map] at mean
  rw [getD_foldl_weigh zeros inside, start, mean]
  refine Finset.sum_congr rfl fun k _ => ?_
  rw [← List.getD_map (f := fun g : List ℝ => g.getD j 0)]
  rfl

theorem average_foldl (tempered : c.Tempered) (begun : gs ≠ [])
    (long : ∀ g ∈ gs, n ≤ g.length) :
    Moments.Average c n gs { Moments.zero n with
      first := gs.foldl (weigh c.beta1) (List.replicate n 0)
      second := gs.foldl (weighSquares c.beta2) (List.replicate n 0) } := by
  have some : gs.length ≠ 0 := List.length_eq_zero_iff.not.2 begun
  have bias₁ := correction_pos tempered.beta1.1 tempered.beta1.2 some
  have bias₂ := correction_pos tempered.beta2.1 tempered.beta2.2 some
  have nonneg₁ := averageWeight_nonneg tempered.beta1.1 tempered.beta1.2 some
  have nonneg₂ := averageWeight_nonneg tempered.beta2.1 tempered.beta2.2 some
  let squared := gs.map (List.map fun z : ℝ => z ^ 2)
  have long' : ∀ g ∈ squared, n ≤ g.length := by simpa [squared] using long
  have second : ∀ j < n, (gs.foldl (weighSquares c.beta2) (List.replicate n 0)).getD j 0 /
      (1 - c.beta2 ^ gs.length) = ∑ k ∈ range gs.length,
        averageWeight c.beta2 gs.length k * (gs.getD k []).getD j 0 ^ 2 := by
    intro j hj
    have mean := corrected_mean (β := c.beta2) long' hj
    rw [List.length_map] at mean
    rw [foldl_weighSquares, mean]
    refine Finset.sum_congr rfl fun k _ => ?_
    have row : squared.getD k [] = (gs.getD k []).map fun z => z ^ 2 :=
      List.getD_map gs [] (List.map fun z => z ^ 2)
    have entry := List.getD_map (gs.getD k []) (0 : ℝ) (n := j) fun z => z ^ 2
    rw [zero_pow two_ne_zero] at entry
    rw [row, entry]
  have zeros : ∀ g ∈ gs, (List.replicate n (0 : ℝ)).length ≤ g.length := by simpa using long
  have zeros' : ∀ g ∈ squared, (List.replicate n (0 : ℝ)).length ≤ g.length := by
    simpa using long'
  have root : ∀ j < n, 0 ≤ (gs.foldl (weighSquares c.beta2) (List.replicate n 0)).getD j 0 /
      (1 - c.beta2 ^ gs.length) := by
    intro j hj
    rw [second j hj]
    exact Finset.sum_nonneg fun k _ => mul_nonneg (nonneg₂ k) (sq_nonneg _)
  exact
    { length := by
        dsimp only
        rw [foldl_weighSquares, length_foldl_weigh zeros, length_foldl_weigh zeros',
          List.length_replicate]
        exact ⟨rfl, rfl⟩
      bias₁
      bias₂
      weights₁ := ⟨fun k _ => nonneg₁ k, sum_averageWeight tempered.beta1.1 tempered.beta1.2 some⟩
      weights₂ := ⟨fun k _ => nonneg₂ k, sum_averageWeight tempered.beta2.1 tempered.beta2.2 some⟩
      first := fun j hj => corrected_mean long hj
      second
      root
      divisor := fun j _ => add_pos_of_nonneg_of_pos (Real.sqrt_nonneg _) tempered.epsilon }

/-- From zero means and this position, the descent on these gradients has averages after each of its
steps. -/
def DescentConfig.Averages (c : DescentConfig ℝ) (n : ℕ) (x : List ℝ) (gs : List (List ℝ)) : Prop :=
  ∀ k, k ≠ 0 → k ≤ gs.length → ∃ s y,
    DescentMethod.adam.follow c 0 (.zero n) x (gs.take k) = .ok (s, y) ∧ s.Average c n (gs.take k)

theorem averages (tempered : c.Tempered) (long : ∀ g ∈ gs, n ≤ g.length) (x : List ℝ) :
    c.Averages n x gs := by
  intro k begun inside
  have some : gs.take k ≠ [] := by
    rw [← List.length_pos_iff, List.length_take_of_le inside]
    exact Nat.pos_of_ne_zero begun
  obtain ⟨y, led⟩ := follow_adam tempered (gs.take k) 0 x (zero_nonneg n)
  exact ⟨_, y, led, average_foldl tempered some fun g hg => long g (List.mem_of_mem_take hg)⟩

end Averages

/-- From a position, the method arrives at another on these gradients, and each of them is taken at
the position to which those before it lead. -/
structure DescentProblem.Goes {α : Type} [Scalar α] [NumberText α] (p : DescentProblem α)
    (method : DescentMethod) (c : DescentConfig α) (done : ℕ) (s : Moments α) (b : Bindings α)
    (gs : List (List α)) (last : List α) : Prop where
  last : ∃ s', method.follow c done s b.values gs = .ok (s', last)
  gradients : ∀ k (h : k < gs.length), ∃ s' x σ,
    method.follow c done s b.values (gs.take k) = .ok (s', x) ∧
      gs[k] = (p.gradient.run { b with values := x } σ).1

namespace DescentProblem

section Goes

variable {α : Type} [Scalar α] [NumberText α] {p : DescentProblem α} {method : DescentMethod}
  {c : DescentConfig α} {done : ℕ} {s s' : Moments α} {b : Bindings α}

theorem Goes.here : p.Goes method c done s b [] b.values := ⟨⟨s, rfl⟩, nofun⟩

theorem Goes.cons {x last : List α} {gs : List (List α)} (σ : Engine)
    (step : method.step c (done + 1) s (p.gradient.run b σ).1 b.values = .ok (s', x))
    (h : p.Goes method c (done + 1) s' { b with values := x } gs last) :
    p.Goes method c done s b ((p.gradient.run b σ).1 :: gs) last where
  last := by
    rw [DescentMethod.follow_cons step]
    exact h.last
  gradients
    | 0, _ => ⟨s, b.values, σ, rfl, rfl⟩
    | k + 1, hk => by
      obtain ⟨s'', y, σ', led, here⟩ := h.gradients k (Nat.lt_of_succ_lt_succ hk)
      refine ⟨s'', y, σ', ?_, here⟩
      rw [List.take_succ_cons, DescentMethod.follow_cons step]
      exact led

theorem Goes.length {last : List α} {gs : List (List α)}
    (h : p.Goes method c done s b gs last) : ∀ g ∈ gs, g.length = p.gradient.components.length := by
  intro g hg
  obtain ⟨k, hk, rfl⟩ := List.mem_iff_getElem.1 hg
  obtain ⟨-, x, σ, -, here⟩ := h.gradients k hk
  rw [here]
  exact (gives_run p.gradient _ σ).1

end Goes

variable [NumberText ℝ] {p : DescentProblem ℝ} {c : DescentConfig ℝ}

theorem gives_firstOrder_adam (tempered : c.Tempered) (left : ℕ) :
    ∀ (done : ℕ) (s : Moments ℝ) (b : Bindings ℝ) (seen : List ℝ), (∀ z ∈ s.second, 0 ≤ z) →
      (p.firstOrder .adam c left done s b seen).Gives fun result => ∃ d gs, result = .ok d ∧
        d.iterations = done + gs.length ∧ p.Goes .adam c done s b gs d.position.values := by
  induction left with
  | zero =>
    intro done s b seen _
    exact .pure ⟨⟨b, done, _, _⟩, [], rfl, rfl, .here⟩
  | succ left ih =>
    intro done s b seen squares
    have derived : (p.gradient.run b).Gives fun g => ∃ σ, g = (p.gradient.run b σ).1 :=
      fun σ => ⟨σ, rfl⟩
    rw [firstOrder]
    refine derived.bind fun g hg => .after fun _ => ?_
    obtain ⟨σ, rfl⟩ := hg
    dsimp only
    cases exitAt c (norm (p.gradient.run b σ).1) with
    | some exit => exact .pure ⟨⟨b, done, exit, _⟩, [], rfl, rfl, .here⟩
    | none =>
      have step := step_adam tempered squares done (p.gradient.run b σ).1 b.values
      dsimp only
      rw [step]
      refine .after fun seen e => ?_
      have kept := weighSquares_nonneg (g := (p.gradient.run b σ).1) tempered.beta2 squares
      obtain ⟨d, gs, ends, iterations, goes⟩ := ih (done + 1)
        (c.adapted (done + 1) s (p.gradient.run b σ).1 b.values).1 ⟨_, b.names⟩ seen kept e
      refine ⟨d, (p.gradient.run b σ).1 :: gs, ends, ?_, goes.cons σ step⟩
      rw [iterations, List.length_cons, Nat.add_right_comm, Nat.add_assoc]

theorem gives_descent_adam (tempered : c.Tempered) (b : Bindings ℝ) :
    (p.descent .adam c b).Gives fun result => ∃ d gs, result = .ok d ∧ d.iterations = gs.length ∧
      p.Goes .adam c 0 (.zero b.values.length) b gs d.position.values := by
  have run := gives_firstOrder_adam (p := p) tempered c.maxIterations.toNat 0
    (.zero b.values.length) b [] (zero_nonneg _)
  intro e
  obtain ⟨d, gs, ends, iterations, goes⟩ := run e
  exact ⟨d, gs, ends, by rw [iterations, Nat.zero_add], goes⟩

end DescentProblem

section Minimize

variable [NumberText ℝ] {c : DescentConfig ℝ} {e : Expr ℝ} {names : List String} {initial : List ℝ}

theorem gives_minimizeTree_adam (tempered : c.Tempered) (paired : names.length = initial.length)
    (named : names ≠ []) : (minimizeTree e names initial .adam c).Gives fun result =>
      ∃ r gs, result = .ok r ∧ r.iterations = gs.length ∧
        (DescentProblem.ofNames e names).Goes .adam c 0
          (.zero (startPosition names initial).values.length) (startPosition names initial) gs
          r.solution := by
  have start : Bindings.ofPairs (lastValues ((Gradient.ofExpr e names).value.names.zip initial)) =
      startPosition names initial := by
    rw [Gradient.ofExpr_value, startPosition, startValues]
  unfold minimizeTree
  rw [if_neg (by simpa using paired), if_neg (by simpa using named)]
  rw [← start]
  refine (DescentProblem.gives_descent_adam tempered _).bind ?_
  rintro - ⟨d, gs, rfl, iterations, goes⟩
  refine .after fun value => ?_
  dsimp only
  split
  · exact .pure ⟨_, gs, rfl, iterations, goes⟩
  · exact .after fun _ => .pure ⟨_, gs, rfl, iterations, goes⟩

theorem gives_minimize_adam {objective : Objective ℝ} {s : Engine}
    (reads : (objective.read s).1 = .ok e) {configure : DescentMethod → DescentConfig ℝ}
    (tempered : (configure .adam).Tempered) (paired : names.length = initial.length)
    (named : names ≠ []) : (minimize objective names initial "adam" configure).Gives fun result =>
      ∃ r gs, result = .ok r ∧ r.iterations = gs.length ∧
        (DescentProblem.ofNames e names).Goes .adam (configure .adam) 0
          (.zero (startPosition names initial).values.length) (startPosition names initial) gs
          r.solution := by
  have known : DescentMethod.ofName? "adam" = some .adam := by decide +kernel
  have result : .ok e = objective.read.result := reads.symm.trans (objective.steady_read s)
  unfold minimize
  rw [known]
  refine Run.Gives.bind objective.steady_read fun read hread => ?_
  rw [hread, ← result]
  exact gives_minimizeTree_adam tempered paired named

omit [NumberText ℝ] in
theorem length_startPosition_le (paired : names.length = initial.length) :
    (startPosition names initial).values.length ≤
      (DescentProblem.ofNames e names).gradient.components.length := by
  rw [DescentProblem.ofNames, Gradient.ofExpr_value, List.length_map]
  exact length_start_le paired

end Minimize

end DerivativeEngine
