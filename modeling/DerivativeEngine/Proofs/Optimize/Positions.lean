import DerivativeEngine.Optimize.Descent
import DerivativeEngine.Proofs.Engine.Results
import DerivativeEngine.Proofs.Expr.Bindings
import DerivativeEngine.Proofs.Tape.Operands
import DerivativeEngine.Scalar.Double

/-! The positions of a descent. A position, a gradient and the names that were given are rows, and
entries at the same place are taken to belong together. The gradient has an entry for each name that
was given; a position has one for each name in canonical form, since names that agree share an
entry. So the rows are aligned, from the start to the solution, exactly if no two names agree, and
gradient descent then moves each variable against its own partial derivative. Otherwise it moves the
entries by the derivatives of other variables. -/

namespace DerivativeEngine

def Trail {β : Type} (Step : β → β → Prop) (n : Nat) (first last : β) : Prop :=
  ∃ path : Nat → β, path 0 = first ∧ path n = last ∧ ∀ t < n, Step (path t) (path (t + 1))

namespace Trail

variable {β : Type} {Step : β → β → Prop} {x y z : β} {n : Nat}

def prepend (x : β) (path : Nat → β) : Nat → β
  | 0 => x
  | t + 1 => path t

theorem refl : Trail Step 0 x x := ⟨fun _ => x, rfl, rfl, nofun⟩

theorem cons (step : Step x y) (h : Trail Step n y z) : Trail Step (n + 1) x z := by
  obtain ⟨path, rfl, rfl, steps⟩ := h
  refine ⟨prepend x path, rfl, rfl, fun t within => ?_⟩
  cases t with
  | zero => exact step
  | succ t => exact steps t (Nat.lt_of_succ_lt_succ within)

theorem same {γ : Type} {f : β → γ} (step : ∀ x y, Step x y → f y = f x)
    (h : Trail Step n x y) : f y = f x := by
  obtain ⟨path, rfl, rfl, steps⟩ := h
  have each (t : Nat) : t ≤ n → f (path t) = f (path 0) := by
    induction t with
    | zero => exact fun _ => rfl
    | succ t ih =>
      intro within
      exact (step _ _ (steps t within)).trans (ih (Nat.le_of_succ_le within))
  exact each n (Nat.le_refl n)

end Trail

section Steps

open Operation (ok_of_bind)

variable {α : Type} [Scalar α]

structure Moments.Covers (m : Moments α) (n : Nat) : Prop where
  velocity : n ≤ m.velocity.length
  first : n ≤ m.first.length
  second : n ≤ m.second.length

theorem covers_zero (n : Nat) : (Moments.zero n : Moments α).Covers n := by
  constructor <;> simp [Moments.zero]

theorem le_length_zipWith {β γ δ : Type} {f : β → γ → δ} {xs : List β} {ys : List γ} {n : Nat}
    (hx : n ≤ xs.length) (hy : n ≤ ys.length) : n ≤ (xs.zipWith f ys).length := by
  rw [List.length_zipWith]
  exact Nat.le_min.2 ⟨hx, hy⟩

theorem length_zipWith_of_le {β γ δ : Type} {f : β → γ → δ} {xs : List β} {ys : List γ}
    (h : xs.length ≤ ys.length) : (xs.zipWith f ys).length = xs.length := by
  rw [List.length_zipWith, Nat.min_eq_left h]

theorem length_adamPosition {rate epsilon bias₁ bias₂ : α} :
    ∀ {x m v x' : List α}, adamPosition rate epsilon bias₁ bias₂ x m v = .ok x' →
      x.length ≤ m.length → x.length ≤ v.length → x'.length = x.length
  | [], _, _, _, h, _, _ => by
    rw [adamPosition] at h
    · cases h
      rfl
    · simp
  | a :: x, b :: m, d :: v, x', h, hm, hv => by
    rw [adamPosition] at h
    obtain ⟨y, -, h⟩ := ok_of_bind h
    obtain ⟨ys, rest, h⟩ := ok_of_bind h
    cases h
    rw [List.length_cons, List.length_cons, length_adamPosition rest
      (Nat.le_of_succ_le_succ hm) (Nat.le_of_succ_le_succ hv)]

theorem step_covers {method : DescentMethod} {c : DescentConfig α} {t : Nat} {m m' : Moments α}
    {g x x' : List α} (covered : m.Covers x.length) (enough : x.length ≤ g.length)
    (stepped : method.step c t m g x = .ok (m', x')) :
    m'.Covers x.length ∧ x'.length = x.length := by
  obtain ⟨velocity, first, second⟩ := covered
  cases method with
  | gradientDescent | conjugateGradient =>
    cases stepped
    exact ⟨⟨velocity, first, second⟩, length_zipWith_of_le enough⟩
  | momentum =>
    cases stepped
    have kept : x.length ≤ (m.velocity.zipWith
        (fun v d => c.momentum * v + c.learningRate * d) g).length :=
      le_length_zipWith velocity enough
    exact ⟨⟨kept, first, second⟩, length_zipWith_of_le kept⟩
  | adam =>
    obtain ⟨bias₁, -, stepped⟩ := ok_of_bind stepped
    obtain ⟨bias₂, -, stepped⟩ := ok_of_bind stepped
    obtain ⟨moved, position, stepped⟩ := ok_of_bind stepped
    cases stepped
    have mean : x.length ≤ (weigh c.beta1 m.first g).length := le_length_zipWith first enough
    have squares : x.length ≤ (weighSquares c.beta2 m.second g).length :=
      le_length_zipWith second enough
    exact ⟨⟨velocity, mean, squares⟩, length_adamPosition position mean squares⟩

end Steps

namespace DescentProblem

variable {α : Type} [Scalar α] [NumberText α]

structure Moves (p : DescentProblem α) (method : DescentMethod) (rate : α) (b b' : Bindings α) :
    Prop where
  names : b'.names = b.names
  length : b'.values.length = b.values.length
  downhill : method = .gradientDescent → ∃ s,
    b'.values = b.values.zipWith (fun a d => a - rate * d) (p.gradient.run b s).1

def Arrives (p : DescentProblem α) (method : DescentMethod) (rate : α) (done : Nat)
    (b : Bindings α) (d : Descent α) : Prop :=
  ∃ n, d.iterations = done + n ∧ Trail (p.Moves method rate) n b d.position

variable {p : DescentProblem α} {method : DescentMethod} {rate : α} {b b' : Bindings α}

theorem Arrives.here (exit : DescentExit) (done : Nat) (seen : List α) :
    p.Arrives method rate done b ⟨b, done, exit, seen⟩ := ⟨0, rfl, .refl⟩

theorem Arrives.cons {done : Nat} {d : Descent α} (move : p.Moves method rate b b')
    (h : p.Arrives method rate (done + 1) b' d) : p.Arrives method rate done b d := by
  obtain ⟨n, iterations, path⟩ := h
  exact ⟨n + 1, by omega, path.cons move⟩

theorem gives_run (g : Gradient α) (b : Bindings α) :
    (g.run b).Gives fun x => x.length = g.components.length ∧ ∃ s, x = (g.run b s).1 := by
  intro s
  have each : ∀ e : Expr α, (e.run (some b)).Gives fun _ => True := fun _ _ => trivial
  exact ⟨(Run.Gives.mapM each g.components s).length_eq.symm, s, rfl⟩

theorem gives_firstOrder (c : DescentConfig α) (left : Nat) :
    ∀ (done : Nat) (m : Moments α) (b : Bindings α) (seen : List α),
      b.values.length ≤ p.gradient.components.length → m.Covers b.values.length →
      (p.firstOrder method c left done m b seen).Gives fun result =>
        ∀ d, result = .ok d → p.Arrives method c.learningRate done b d := by
  -- The gradient and the moments reach at least as far as the position, and no step makes the
  -- position shorter; so nothing is cut off where rows are taken together.
  induction left with
  | zero =>
    intro done m b seen _ _
    refine .pure fun d h => ?_
    cases h
    exact .here _ done _
  | succ left ih =>
    intro done m b seen enough covered
    rw [firstOrder]
    refine (gives_run p.gradient b).bind fun g hg => .after fun _ => ?_
    obtain ⟨length, s, value⟩ := hg
    dsimp only
    cases exitAt c (norm g) with
    | some exit =>
      refine .pure fun d h => ?_
      cases h
      exact .here exit done _
    | none =>
      dsimp only
      cases stepped : method.step c (done + 1) m g b.values with
      | error e => exact .pure nofun
      | ok next =>
        obtain ⟨m', values⟩ := next
        obtain ⟨covered, moved⟩ := step_covers covered (length ▸ enough) stepped
        have move : p.Moves method c.learningRate b { b with values } := by
          refine ⟨rfl, moved, fun own => ⟨s, ?_⟩⟩
          subst own
          cases stepped
          rw [value]
        refine .after fun seen => ?_
        have rest := ih (done + 1) m' { b with values } seen
          (Nat.le_trans (Nat.le_of_eq moved) enough) (moved ▸ covered)
        exact fun s d h => .cons move (rest s d h)

omit [NumberText α] in
theorem le_length_nextDirection {g : List α} {last : Option (List α × List α)} {n : Nat}
    (enough : n ≤ g.length) (recent : ∀ l ∈ last, n ≤ l.2.length) :
    n ≤ (nextDirection g last).1.length := by
  have steepest : n ≤ (g.map (- ·)).length := by rwa [List.length_map]
  cases last with
  | none => exact steepest
  | some l => exact le_length_zipWith steepest (recent l rfl)

theorem gives_descend (b : Bindings α) {g : List α} {last : Option (List α × List α)} {n : Nat}
    (enough : n ≤ g.length) (recent : ∀ l ∈ last, n ≤ l.2.length) :
    (p.descend b g last).Gives fun way => ∀ w ∈ way, n ≤ w.1.length := by
  have steepest : n ≤ (g.map (- ·)).length := by rwa [List.length_map]
  unfold descend
  dsimp only
  refine .after fun step => ?_
  cases step with
  | some step =>
    refine .pure fun w h => ?_
    cases h
    exact le_length_nextDirection enough recent
  | none =>
    dsimp only
    split
    · exact .pure nofun
    · refine .after fun step => .pure fun w h => ?_
      obtain ⟨step, -, rfl⟩ := Option.map_eq_some_iff.1 h
      exact steepest

theorem gives_conjugateGradient (c : DescentConfig α) (period left : Nat) :
    ∀ (done : Nat) (last : Option (List α × List α)) (b : Bindings α) (seen : List α),
      b.values.length ≤ p.gradient.components.length →
      (∀ l ∈ last, b.values.length ≤ l.2.length) →
      (p.conjugateGradient c period left done last b seen).Gives
        (p.Arrives .conjugateGradient c.learningRate done b) := by
  -- The last direction is part of the next one, so it has to reach as far as the position too.
  induction left with
  | zero => exact fun done _ _ _ _ _ => .pure (.here _ done _)
  | succ left ih =>
    intro done last b seen enough recent
    rw [conjugateGradient]
    refine (gives_run p.gradient b).bind fun g hg => .after fun _ => ?_
    have enough' : b.values.length ≤ g.length := hg.1 ▸ enough
    dsimp only
    cases exitAt c (norm g) with
    | some exit => exact .pure (.here exit done _)
    | none =>
      have recent' : ∀ l ∈ (if done % period == 0 then none else last),
          b.values.length ≤ l.2.length := by
        split
        · nofun
        · exact recent
      refine (gives_descend b enough' recent').bind fun way long => ?_
      cases way with
      | none => exact .pure (.here _ done _)
      | some w =>
        have long : b.values.length ≤ w.1.length := long w rfl
        have moved : (advanced b.values w.1 w.2).length = b.values.length :=
          length_zipWith_of_le long
        have move : p.Moves .conjugateGradient c.learningRate b
            { b with values := advanced b.values w.1 w.2 } := ⟨rfl, moved, nofun⟩
        refine .after fun seen s => .cons move (ih _ _ _ seen ?_ ?_ s)
        · exact Nat.le_trans (Nat.le_of_eq moved) enough
        · rintro l h
          cases h
          exact Nat.le_trans (Nat.le_of_eq moved) long

theorem gives_descent (p : DescentProblem α) (method : DescentMethod) (c : DescentConfig α)
    (b : Bindings α) (enough : b.values.length ≤ p.gradient.components.length) :
    (p.descent method c b).Gives fun result =>
      ∀ d, result = .ok d → p.Arrives method c.learningRate 0 b d := by
  unfold descent
  dsimp only
  split
  · next conjugate =>
    obtain rfl := beq_iff_eq.1 conjugate
    refine (gives_conjugateGradient c _ _ 0 none b [] enough nofun).bind fun d arrives => ?_
    refine .pure fun d' h => ?_
    cases h
    exact arrives
  · exact gives_firstOrder c _ 0 _ b [] enough (covers_zero _)

end DescentProblem

section Gradients

variable {α : Type} [Scalar α]

theorem Expr.partialDerivative_canonicalName (e : Expr α) (x : String) :
    e.partialDerivative (canonicalName x) = e.partialDerivative x := by
  rw [partialDerivative, partialDerivative, differentiate, differentiate,
    canonicalName_canonicalName]

theorem Gradient.derivatives_value (e : Expr α) (names : List String) :
    (derivatives e names).value = names.map fun x => (e.partialDerivative x).value := by
  induction names with
  | nil => rfl
  | cons x xs ih =>
    rw [derivatives, Retaining.bind_value, Retaining.bind_value, Retaining.pure_value, ih]
    rfl

theorem Gradient.ofExpr_value (e : Expr α) (names : List String) :
    (ofExpr e names).value =
      ⟨names.map fun x => (e.partialDerivative x).value, names.map canonicalName⟩ := by
  rw [ofExpr, Retaining.bind_value, Retaining.pure_value, derivatives_value, List.map_map]
  simp only [Function.comp_def, e.partialDerivative_canonicalName]

variable [NumberText α]

theorem Gradient.entry_run {g : Gradient α} {b : Bindings α} {s : Engine} {i : Nat} {e : Expr α}
    (h : g.components[i]? = some e) :
    ∃ σ, (g.run b s).1[i]? = some (e.evaluate (some b) σ).1 := by
  have each := Run.Gives.mapM (fun e => e.gives_run (some b)) g.components s
  obtain ⟨within, rfl⟩ := List.getElem?_eq_some_iff.1 h
  have reached : i < (g.run b s).1.length := each.length_eq ▸ within
  obtain ⟨σ, value⟩ := each.get within reached
  exact ⟨σ, (List.getElem?_eq_getElem reached).trans (congrArg some value)⟩

end Gradients

section Start

variable {α : Type} {names : List String} {initial : List α}

def startValues (names : List String) (initial : List α) : List (String × α) :=
  lastValues ((names.map canonicalName).zip initial)

theorem keys_zip (length : names.length = initial.length) :
    ((names.map canonicalName).zip initial).map Prod.fst = names.map canonicalName :=
  List.map_fst_zip (by simp [length])

theorem length_zip (length : names.length = initial.length) :
    ((names.map canonicalName).zip initial).length = names.length := by
  rw [List.length_zip, List.length_map, length, Nat.min_self]

theorem length_startValues (length : names.length = initial.length) :
    (startValues names initial).length = names.length ↔ (names.map canonicalName).Nodup := by
  have kept := length_lastValues_eq ((names.map canonicalName).zip initial)
  rwa [length_zip length, keys_zip length] at kept

theorem values_start (length : names.length = initial.length) :
    (Bindings.ofPairs (startValues names initial)).values =
      (startValues names initial).map Prod.snd := by
  obtain ⟨once, same⟩ := keys_lastValues ((names.map canonicalName).zip initial)
  rw [startValues, Bindings.ofPairs_eq once]
  intro x mem
  rw [same, keys_zip length] at mem
  obtain ⟨y, -, rfl⟩ := List.mem_map.1 mem
  exact canonicalName_canonicalName y

theorem length_start_le (length : names.length = initial.length) :
    (Bindings.ofPairs (startValues names initial)).values.length ≤ names.length := by
  rw [values_start length, List.length_map, ← length_zip length]
  exact length_lastValues_le _

theorem startValues_of_nodup (length : names.length = initial.length)
    (distinct : (names.map canonicalName).Nodup) :
    startValues names initial = (names.map canonicalName).zip initial :=
  lastValues_of_nodup (by rwa [keys_zip length])

theorem values_start_eq (length : names.length = initial.length) :
    (startValues names initial).map Prod.snd = initial ↔ (names.map canonicalName).Nodup := by
  constructor
  · intro h
    rw [← length_startValues length, ← List.length_map Prod.snd, h, length]
  · intro distinct
    rw [startValues_of_nodup length distinct]
    exact List.map_snd_zip (by simp [length])

theorem lists_start (length : names.length = initial.length) :
    (Bindings.ofPairs (startValues names initial)).Lists names ↔
      (names.map canonicalName).Nodup := by
  constructor
  · intro h
    have kept := h.1
    rw [values_start length, List.length_map] at kept
    exact (length_startValues length).1 kept
  · intro distinct
    rw [startValues_of_nodup length distinct]
    exact Bindings.lists_ofPairs (keys_zip length) distinct

end Start

section Minimize

variable {α : Type} [Scalar α] [NumberText α]

/-- Each entry is taken against the partial derivative by the name at its place. -/
def Downhill (e : Expr α) (names : List String) (rate : α) (b b' : Bindings α) : Prop :=
  ∀ (i : Nat) (x : String) (v : α), names[i]? = some x → b.values[i]? = some v → ∃ σ,
    b'.values[i]? = some (v - rate * ((e.partialDerivative x).value.evaluate (some b) σ).1)

def DescentProblem.ofNames (e : Expr α) (names : List String) : DescentProblem α :=
  ⟨e, (Gradient.ofExpr e names).value⟩

theorem downhill_of_moves {e : Expr α} {names : List String} {rate : α} {b b' : Bindings α}
    (h : (DescentProblem.ofNames e names).Moves .gradientDescent rate b b') :
    Downhill e names rate b b' := by
  intro i x v listed entry
  obtain ⟨s, moved⟩ := h.downhill rfl
  have component : (DescentProblem.ofNames e names).gradient.components[i]? =
      some (e.partialDerivative x).value := by
    rw [DescentProblem.ofNames, Gradient.ofExpr_value, List.getElem?_map, listed, Option.map_some]
  obtain ⟨σ, derivative⟩ := Gradient.entry_run (b := b) (s := s) component
  refine ⟨σ, ?_⟩
  rw [moved]
  exact List.getElem?_zipWith_eq_some.2 ⟨_, _, entry, derivative, rfl⟩

structure Descended (e : Expr α) (names : List String) (initial : List α) (method : DescentMethod)
    (rate : α) (r : DescentResult α) : Prop where
  paired : names.length = initial.length
  canonical : r.names = names.map canonicalName
  path : ∃ b : Bindings α, b.values = r.solution ∧
    Trail ((DescentProblem.ofNames e names).Moves method rate) r.iterations
      (.ofPairs (startValues names initial)) b

theorem Descended.length_solution {e : Expr α} {names : List String} {initial : List α}
    {method : DescentMethod} {rate : α} {r : DescentResult α}
    (h : Descended e names initial method rate r) :
    r.solution.length = (startValues names initial).length := by
  obtain ⟨b, solution, path⟩ := h.path
  rw [← solution, path.same fun _ _ move => move.length, values_start h.paired, List.length_map]

theorem gives_minimizeTree (e : Expr α) (names : List String) (initial : List α)
    (method : DescentMethod) (c : DescentConfig α) :
    (minimizeTree e names initial method c).Gives fun result =>
      ∀ r, result = .ok r → Descended e names initial method c.learningRate r := by
  unfold minimizeTree
  split
  · exact .pure nofun
  · next same =>
    have length : names.length = initial.length := by simpa using same
    have enough : (Bindings.ofPairs (startValues names initial)).values.length ≤
        (DescentProblem.ofNames e names).gradient.components.length := by
      rw [DescentProblem.ofNames, Gradient.ofExpr_value, List.length_map]
      exact length_start_le length
    split
    · exact .pure nofun
    · have descent := (DescentProblem.ofNames e names).gives_descent method c _ enough
      refine descent.bind fun result arrives => ?_
      cases result with
      | error fault => exact .pure nofun
      | ok d =>
        obtain ⟨n, iterations, path⟩ := arrives d rfl
        rw [Nat.zero_add] at iterations
        subst iterations
        refine .after fun value => ?_
        have descended : Descended e names initial method c.learningRate
            ⟨d.position.values, value, d.iterations, d.exit, d.history, names.map canonicalName⟩ :=
          ⟨length, rfl, d.position, rfl, path⟩
        have told : ∀ r, .ok ⟨d.position.values, value, d.iterations, d.exit, d.history,
            names.map canonicalName⟩ = (.ok r : Except MinimizeError (DescentResult α)) →
            Descended e names initial method c.learningRate r := by
          rintro r ⟨⟩
          exact descended
        dsimp only
        split
        · exact .pure told
        · exact .after fun _ => .pure told

theorem descended_of_minimize {objective : Objective α} {names : List String} {initial : List α}
    {method : String} {configure : DescentMethod → DescentConfig α} {s : Engine}
    {r : DescentResult α}
    (ends : (minimize objective names initial method configure s).1 = .ok r) :
    ∃ m e, DescentMethod.ofName? method = some m ∧ (objective.read s).1 = .ok e ∧
      Descended e names initial m (configure m).learningRate r := by
  unfold minimize at ends
  cases known : DescentMethod.ofName? method with
  | none =>
    rw [known] at ends
    cases ends
  | some m =>
    rw [known] at ends
    dsimp only at ends
    cases read : (objective.read s).1 with
    | error e =>
      rw [Run.bind_eq, read] at ends
      cases ends
    | ok e =>
      rw [Run.bind_eq, read] at ends
      exact ⟨m, e, rfl, rfl, gives_minimizeTree e names initial m (configure m) _ r ends⟩

/-- A descent that ends went from position to position, from the initial values to the solution. All
positions have an entry for each listed name, at its place, and the first one has the values that
were given, if and only if no two names agree. Gradient descent takes each entry against the partial
derivative by the name that is listed at its place. -/
theorem exists_positions_of_minimize {objective : Objective α} {names : List String}
    {initial : List α} {method : String} {configure : DescentMethod → DescentConfig α}
    {s : Engine} {r : DescentResult α}
    (ends : (minimize objective names initial method configure s).1 = .ok r) :
    ∃ (m : DescentMethod) (e : Expr α) (position : Nat → Bindings α),
      DescentMethod.ofName? method = some m ∧ (objective.read s).1 = .ok e ∧
      r.names = names.map canonicalName ∧
      (position 0).values = (startValues names initial).map Prod.snd ∧
      (position r.iterations).values = r.solution ∧
      (m = .gradientDescent → ∀ t < r.iterations,
        Downhill e names (configure m).learningRate (position t) (position (t + 1))) ∧
      (r.solution.length = names.length ↔ (names.map canonicalName).Nodup) ∧
      ((position 0).values = initial ↔ (names.map canonicalName).Nodup) ∧
      ∀ t ≤ r.iterations, (position t).Lists names ↔ (names.map canonicalName).Nodup := by
  obtain ⟨m, e, known, read, paired, canonical, b, solution, position, first, last, moves⟩ :=
    descended_of_minimize ends
  have start : (position 0).values = (startValues names initial).map Prod.snd := by
    rw [first, values_start paired]
  have kept : ∀ t ≤ r.iterations, (position t).names = (position 0).names ∧
      (position t).values.length = (position 0).values.length := by
    intro t
    induction t with
    | zero => exact fun _ => ⟨rfl, rfl⟩
    | succ t ih =>
      intro within
      obtain ⟨map, length⟩ := ih (Nat.le_of_succ_le within)
      have move := moves t within
      exact ⟨move.names.trans map, move.length.trans length⟩
  have length : r.solution.length = (startValues names initial).length := by
    rw [← solution, ← last, (kept _ (Nat.le_refl _)).2, start, List.length_map]
  refine ⟨m, e, position, known, read, canonical, start, by rw [last, solution], ?_, ?_, ?_, ?_⟩
  · rintro rfl t within
    exact downhill_of_moves (moves t within)
  · rw [length, length_startValues paired]
  · rw [start, values_start_eq paired]
  · intro t within
    obtain ⟨map, length⟩ := kept t within
    rw [Bindings.lists_congr map length, first, lists_start paired]

end Minimize

def halfStep (_ : DescentMethod) : DescentConfig Float :=
  { DescentConfig.standard with learningRate := 0.5, maxIterations := 1 }

theorem ok_of_map {ε β γ : Type} {p : Except ε β} {f : β → γ} {y : γ}
    (h : p.map f = .ok y) : ∃ x, p = .ok x ∧ f x = y := by
  cases p with
  | error e => cases h
  | ok x => exact ⟨x, rfl, Except.ok.inj h⟩

theorem exists_positions_of_minimize_distinct :
    ∃ (r : DescentResult Float) (position : Nat → Bindings Float),
      (minimize (.tree (.var "X")) ["x", "Y"] [1, 5] "gradient_descent" halfStep
        Engine.start).1 = .ok r ∧
      (r.iterations, r.solution.map Float.toBits) = (1, [0.5, 5.0].map Float.toBits) ∧
      (position 0).values = [1, 5] ∧ (position 0).Lists ["x", "Y"] ∧
      Downhill (.var "X") ["x", "Y"] 0.5 (position 0) (position 1) ∧
      (position 1).values = r.solution ∧ (position 1).Lists ["x", "Y"] := by
  have run : (minimize (.tree (.var "X")) ["x", "Y"] [(1 : Float), 5] "gradient_descent" halfStep
      Engine.start).1.map (fun r => (r.iterations, r.solution.map Float.toBits)) =
      .ok (1, [0.5, 5.0].map Float.toBits) := by decide +kernel
  have distinct : (["x", "Y"].map canonicalName).Nodup := by decide +kernel
  obtain ⟨r, ends, values⟩ := ok_of_map run
  obtain ⟨m, e, position, known, read, -, -, last, downhill, -, first, aligned⟩ :=
    exists_positions_of_minimize ends
  have method : DescentMethod.ofName? "gradient_descent" = some .gradientDescent := by
    decide +kernel
  obtain rfl : .gradientDescent = m := Option.some.inj (method.symm.trans known)
  obtain rfl : .var "X" = e := Except.ok.inj read
  have one : r.iterations = 1 := congrArg Prod.fst values
  rw [one] at last downhill aligned
  exact ⟨r, position, ends, values, first.2 distinct, (aligned 0 (Nat.zero_le 1)).2 distinct,
    downhill rfl 0 Nat.zero_lt_one, last, (aligned 1 (Nat.le_refl 1)).2 distinct⟩

/-- With a name given twice there are two entries for three names. The second entry, that of `Y`, is
taken against the derivative by the second name, which is `X` again. -/
theorem minimize_repeated :
    ∃ r : DescentResult Float,
      (minimize (.tree (.var "X")) ["X", "x", "Y"] [1, 1, 5] "gradient_descent" halfStep
        Engine.start).1 = .ok r ∧
      r.solution.map Float.toBits = [0.5, 4.5].map Float.toBits ∧
      ¬ r.solution.length = ["X", "x", "Y"].length := by
  have run : (minimize (.tree (.var "X")) ["X", "x", "Y"] [(1 : Float), 1, 5] "gradient_descent"
      halfStep Engine.start).1.map (fun r => r.solution.map Float.toBits) =
      .ok ([0.5, 4.5].map Float.toBits) := by decide +kernel
  obtain ⟨r, ends, values⟩ := ok_of_map run
  have length : r.solution.length = 2 := by simpa using congrArg List.length values
  refine ⟨r, ends, values, ?_⟩
  rw [length]
  decide

end DerivativeEngine
