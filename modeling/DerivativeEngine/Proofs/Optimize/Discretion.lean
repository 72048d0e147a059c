import DerivativeEngine.Optimize.Descent
import DerivativeEngine.Proofs.Engine.Discretion
import DerivativeEngine.Proofs.Expr.Draws
import DerivativeEngine.Scalar.Double

/-! Descent on engines with different debug levels. Everything else that is said of a computation
was computed for it anyway, but an iteration is shown with the value of the objective, which is
evaluated for that. The message is a mere remark if the objective draws no random numbers; if it
draws some, two engines stay alike as long as both show the iterations or neither does. -/

namespace DerivativeEngine

open Run (Discreet Remarks)

variable {α : Type} [Scalar α] [NumberText α] {watched : Prop}

theorem Expr.kept_run (e : Expr α) (b : Option (Bindings α)) (s : Engine) :
    (e.run b s).2.level = s.level ∧ (e.run b s).2.stream = (e.evaluate b s.stream).2 := by
  have said : Remarks (Run.debug .eval fun _ =>
      e.kindName ++ " -> " ++ NumberText.general 17 (e.evaluate b s.stream).1) := .debug _ _ _
  exact ⟨said.level { s with stream := (e.evaluate b s.stream).2 },
    said.stream { s with stream := (e.evaluate b s.stream).2 }⟩

theorem Expr.remarks_run {e : Expr α} (drawless : e.EveryNode DrawsNothing)
    (b : Option (Bindings α)) {f : α → Run Unit} (said : ∀ x, Remarks (f x)) :
    Remarks (e.run b >>= f) where
  level s := ((said _).level _).trans (e.kept_run b s).1
  stream s := by
    have still : (e.evaluate b s.stream).2 = s.stream := by rw [evaluate_eq_value b e drawless]
    exact ((said _).stream _).trans ((e.kept_run b s).2.trans still)

namespace DescentProblem

variable {p : DescentProblem α}

theorem discreet_sayIteration (drawless : watched ∨ p.objective.EveryNode Expr.DrawsNothing)
    (method : DescentMethod) (iteration : Nat) (b : Bindings α) (size : α) :
    Discreet watched (p.sayIteration method iteration b size) := by
  unfold sayIteration
  rcases drawless with watch | drawless
  · exact .ifShown watch ((p.objective.discreet_run _).bind fun f _ _ =>
      .of_remarks (.debug _ _ _))
  · exact .of_remarks ((Expr.remarks_run drawless (some b) fun f => .debug _ _ _).ifShown _ _)

theorem discreet_noted (c : DescentConfig α) (b : Bindings α) (seen : List α) :
    Discreet watched (p.noted c b seen) := by
  unfold noted
  split
  · exact (p.objective.discreet_run (some b)).bind fun x _ _ => .pure _
  · exact .pure seen

theorem discreet_firstOrder (drawless : watched ∨ p.objective.EveryNode Expr.DrawsNothing)
    (method : DescentMethod) (c : DescentConfig α) (left : Nat) :
    ∀ (done : Nat) (s : Moments α) (b : Bindings α) (seen : List α),
      Discreet watched (p.firstOrder method c left done s b seen) := by
  induction left with
  | zero => exact fun _ _ _ _ => .pure _
  | succ left ih =>
    intro done s b seen
    rw [firstOrder]
    refine (Discreet.mapM (fun e => e.discreet_run (some b)) _).bind fun g _ _ => ?_
    refine (discreet_sayIteration drawless method done b _).bind fun _ _ _ => ?_
    dsimp only
    cases exitAt c (norm g) with
    | some exit => exact .pure _
    | none =>
      dsimp only
      cases method.step c (done + 1) s g b.values with
      | error e => exact .pure _
      | ok next => exact (discreet_noted c _ seen).bind fun seen _ _ => ih _ _ _ seen

theorem discreet_searchFrom (b : Bindings α) (d : List α) (bound : α) (n : Nat) :
    ∀ step : α, Discreet watched (p.searchFrom b d bound n step) := by
  induction n with
  | zero => exact fun _ => .pure none
  | succ n ih =>
    intro step
    rw [searchFrom]
    refine (p.objective.discreet_run _).bind fun x _ _ => ?_
    split
    · exact .pure _
    · exact ih _

theorem discreet_lineSearch (b : Bindings α) (d : List α) :
    Discreet watched (p.lineSearch b d) :=
  (p.objective.discreet_run _).bind fun fx _ _ => discreet_searchFrom b d fx halvings 1

theorem discreet_descend (b : Bindings α) (g : List α) (last : Option (List α × List α)) :
    Discreet watched (p.descend b g last) := by
  unfold descend
  dsimp only
  refine (discreet_lineSearch b _).bind fun step _ _ => ?_
  cases step with
  | some step => exact .pure _
  | none =>
    dsimp only
    split
    · exact .pure _
    · exact (discreet_lineSearch b _).bind fun step _ _ => .pure _

theorem discreet_conjugateGradient
    (drawless : watched ∨ p.objective.EveryNode Expr.DrawsNothing) (c : DescentConfig α)
    (period left : Nat) :
    ∀ (done : Nat) (last : Option (List α × List α)) (b : Bindings α) (seen : List α),
      Discreet watched (p.conjugateGradient c period left done last b seen) := by
  induction left with
  | zero => exact fun _ _ _ _ => .pure _
  | succ left ih =>
    intro done last b seen
    rw [conjugateGradient]
    refine (Discreet.mapM (fun e => e.discreet_run (some b)) _).bind fun g _ _ => ?_
    refine (discreet_sayIteration drawless _ done b _).bind fun _ _ _ => ?_
    dsimp only
    cases exitAt c (norm g) with
    | some exit => exact .pure _
    | none =>
      refine (discreet_descend b g _).bind fun way _ _ => ?_
      cases way with
      | none => exact .pure _
      | some way => exact (discreet_noted c _ seen).bind fun seen _ _ => ih _ _ _ seen

theorem discreet_descent (drawless : watched ∨ p.objective.EveryNode Expr.DrawsNothing)
    (method : DescentMethod) (c : DescentConfig α) (b : Bindings α) :
    Discreet watched (p.descent method c b) := by
  unfold descent
  dsimp only
  split
  · exact (discreet_conjugateGradient drawless c _ _ 0 none b []).bind fun d _ _ => .pure _
  · exact discreet_firstOrder drawless method c _ 0 _ b []

end DescentProblem

def Objective.DrawsNothing (objective : Objective α) : Prop :=
  ∀ (s : Engine) (e : Expr α), (objective.read s).1 = .ok e → e.EveryNode Expr.DrawsNothing

theorem Objective.discreet_read (objective : Objective α) : Discreet watched objective.read := by
  cases objective with
  | tree e => exact .pure _
  | source s => exact (Source.discreet_parse s none {}).bind fun read _ _ => .pure _

theorem discreet_minimizeTree {e : Expr α} (drawless : watched ∨ e.EveryNode Expr.DrawsNothing)
    (names : List String) (initial : List α) (method : DescentMethod) (c : DescentConfig α) :
    Discreet watched (minimizeTree e names initial method c) := by
  unfold minimizeTree
  split
  · exact .pure _
  · split
    · exact .pure _
    · dsimp only
      refine (DescentProblem.discreet_descent drawless method c _).bind fun d _ _ => ?_
      cases d with
      | error fault => exact .pure _
      | ok d =>
        refine (e.discreet_run _).bind fun value _ _ => ?_
        split
        · exact .pure _
        · exact (Discreet.of_remarks (.record _ _ _)).bind fun _ _ _ => .pure _

theorem discreet_minimize {objective : Objective α}
    (drawless : watched ∨ objective.DrawsNothing) (names : List String) (initial : List α)
    (method : String) (configure : DescentMethod → DescentConfig α) :
    Discreet watched (minimize objective names initial method configure) := by
  unfold minimize
  cases DescentMethod.ofName? method with
  | none => exact .pure _
  | some m =>
    refine objective.discreet_read.bind fun read s given => ?_
    cases read with
    | error e => exact .pure _
    | ok e => exact discreet_minimizeTree (drawless.imp_right fun quiet => quiet s e given) _ _ m _

theorem discreet_maximize {objective : Objective α}
    (drawless : watched ∨ objective.DrawsNothing) (names : List String) (initial : List α)
    (method : String) (configure : DescentMethod → DescentConfig α) :
    Discreet watched (maximize objective names initial method configure) := by
  unfold maximize
  refine objective.discreet_read.bind fun read s given => ?_
  cases read with
  | error e => exact .pure _
  | ok e =>
    have negated : watched ∨ (Objective.tree (.un .neg e)).DrawsNothing := by
      refine drawless.imp_right fun quiet s' e' given' => ?_
      obtain rfl : .un .neg e = e' := Except.ok.inj given'
      exact ⟨trivial, quiet s e given⟩
    exact (discreet_minimize negated names initial method configure).bind fun r _ _ => .pure _

/-- Both runs have the same result, and go on with the same random numbers. -/
def Engine.Agree {β : Type} (s s' : Engine) (p p' : Run β) : Prop :=
  (p s).1 = (p' s').1 ∧ (p s).2.stream = (p' s').2.stream

theorem agree_of_discreet {β : Type} {p : Run β} (h : Discreet watched p) {s s' : Engine}
    (alike : s.Alike watched s') : s.Agree s' p p := by
  obtain ⟨result, after⟩ := h s s' alike
  exact ⟨result, after.stream⟩

/-- What agrees under one clock agrees under two, if there is no timeout or they are the same. -/
theorem agree_of_clock {β : Type} {s s' : Engine} {config : TimedConfig} {clock : Nat → Bool}
    {p : TimedConfig → Run β} (clocks : ¬ 0.0 < config.timeoutMs ∨ clock = config.clock)
    (untimed : ¬ 0.0 < config.timeoutMs → p { config with clock } = p config)
    (agree : s.Agree s' (p config) (p config)) :
    s.Agree s' (p config) (p { config with clock }) := by
  rcases clocks with none | rfl
  · rwa [untimed none]
  · exact agree

/-- Engines with the same random numbers to come agree on what is read, evaluated and compiled,
whatever their debug levels and listeners are. Messages take their time too: a source that is read
under a timeout is read alike where the clock says the same at each check. The engines agree on a
descent, if both show its iterations or neither does, or if its objective draws nothing. -/
theorem agree_of_stream {s s' : Engine} (same : s.stream = s'.stream) :
    (∀ source bindings (config : TimedConfig) (clock : Nat → Bool),
      ¬ 0.0 < config.timeoutMs ∨ clock = config.clock →
        s.Agree s' (Source.parse (α := α) source bindings config)
            (Source.parse source bindings { config with clock }) ∧
          ∀ source free, s.Agree s' (Source.parseValue (α := α) source bindings config free)
            (Source.parseValue source bindings { config with clock } free)) ∧
    (∀ (e : Expr α) bindings, s.Agree s' (e.run bindings) (e.run bindings)) ∧
    (∀ (cache : CompileCache α) source,
      s.Agree s' (cache.compile source) (cache.compile source)) ∧
    (∀ (c : Compiled α) bindings, s.Agree s' (c.run bindings) (c.run bindings)) ∧
    ∀ (objective : Objective α) names initial method configure,
      s.level.meets .optimize = s'.level.meets .optimize ∨ objective.DrawsNothing →
        s.Agree s' (minimize objective names initial method configure)
            (minimize objective names initial method configure) ∧
          s.Agree s' (maximize objective names initial method configure)
            (maximize objective names initial method configure) := by
  have blind : s.Alike False s' := ⟨same, False.elim⟩
  refine ⟨fun source b config clock clocks => ⟨?_, fun source free => ?_⟩,
    fun e b => agree_of_discreet (e.discreet_run b) blind,
    fun cache source => agree_of_discreet (cache.discreet_compile source) blind,
    fun c b => agree_of_discreet (c.discreet_run b) blind,
    fun objective names initial method configure allowed => ?_⟩
  · exact agree_of_clock clocks (fun none => Source.parse_clock none clock source b)
      (agree_of_discreet (Source.discreet_parse source b config) blind)
  · exact agree_of_clock (p := fun config => Source.parseValue source b config free) clocks
      (fun none => Source.parseValue_clock none clock source b free)
      (agree_of_discreet (Source.discreet_parseValue source b config free) blind)
  · obtain ⟨watched, drawless, alike⟩ :
        ∃ watched : Prop, (watched ∨ objective.DrawsNothing) ∧ s.Alike watched s' := by
      rcases allowed with shows | drawless
      · exact ⟨True, .inl trivial, same, fun _ => shows⟩
      · exact ⟨False, .inr drawless, blind⟩
    exact ⟨agree_of_discreet (discreet_minimize drawless names initial method configure) alike,
      agree_of_discreet (discreet_maximize drawless names initial method configure) alike⟩

theorem agree_of_stream_square :
    let loud : Engine := { Engine.start with level := .all, listening := true }
    let square : Expr Float := .bin .mul (.var "X") (.var "X")
    Engine.start.stream = loud.stream ∧ (Objective.tree square).DrawsNothing ∧
      Engine.start.Agree loud
        (minimize (.tree square) ["X"] [3] "gradient_descent" DescentConfig.default)
        (minimize (.tree square) ["X"] [3] "gradient_descent" DescentConfig.default) := by
  intro loud square
  have drawless : (Objective.tree square).DrawsNothing := by
    intro s e read
    obtain rfl : square = e := Except.ok.inj read
    exact ⟨trivial, trivial, trivial⟩
  have same : Engine.start.stream = loud.stream := rfl
  obtain ⟨-, -, -, -, descents⟩ := agree_of_stream (α := Float) same
  exact ⟨same, drawless, (descents _ _ _ _ _ (.inr drawless)).1⟩

/-- An objective that draws is drawn from once more where an iteration is shown. -/
theorem not_agree_of_shown :
    let loud : Engine := { Engine.start with level := .optimize }
    let draws : Objective Float := .tree (.call "RND" [])
    Engine.start.stream = loud.stream ∧ ¬ Engine.start.Agree loud
      (minimize draws ["X"] [0] "gradient_descent" DescentConfig.default)
      (minimize draws ["X"] [0] "gradient_descent" DescentConfig.default) := by
  intro loud draws
  have silent : (minimize draws ["X"] [0] "gradient_descent" DescentConfig.default
      Engine.start).2.stream.used = 2 := by decide +kernel
  have shown : (minimize draws ["X"] [0] "gradient_descent" DescentConfig.default
      loud).2.stream.used = 4 := by decide +kernel
  have same : Engine.start.stream = loud.stream := rfl
  refine ⟨same, fun agree => ?_⟩
  have used := congrArg RandomStream.used agree.2
  rw [silent, shown] at used
  exact absurd used (by decide)

end DerivativeEngine
