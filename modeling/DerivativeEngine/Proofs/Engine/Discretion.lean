import DerivativeEngine.Program.Compiled
import DerivativeEngine.Proofs.Source.Parallel

/-! What is said does not change what is done. Two engines may differ in their debug levels, in
their listeners and in all that was said so far; a run is discreet when it gives the same on both as
long as they have the same random numbers to come, and leaves both with the same again. Remarks are
discreet, whatever they say, and so is everything that only takes from the stream. Where a run looks
at the level itself, the two engines are taken to agree on the flag it asks for. -/

namespace DerivativeEngine

/-- The same random numbers are to come on both engines, and where iterations are watched, both
engines show them or neither does. -/
structure Engine.Alike (watched : Prop) (s s' : Engine) : Prop where
  stream : s.stream = s'.stream
  shows : watched → s.level.meets .optimize = s'.level.meets .optimize

/-- On engines that are alike the run gives the same, and leaves them alike. -/
def Run.Discreet {β : Type} (watched : Prop) (p : Run β) : Prop :=
  ∀ s s' : Engine, s.Alike watched s' → (p s).1 = (p s').1 ∧ (p s).2.Alike watched (p s').2

structure Run.Remarks (p : Run Unit) : Prop where
  level : ∀ s, (p s).2.level = s.level
  stream : ∀ s, (p s).2.stream = s.stream

namespace Run

variable {β γ ν : Type} {watched : Prop}

namespace Remarks

theorem record (channel : LogChannel) (severity : Severity) (text : String) :
    Remarks (record channel severity text) := ⟨fun _ => rfl, fun _ => rfl⟩

theorem reportError (e : ErrorInfo) (source : String) : Remarks (reportError e source) :=
  ⟨fun _ => rfl, fun _ => rfl⟩

theorem nothing : Remarks (pure ()) := ⟨fun _ => rfl, fun _ => rfl⟩

theorem andThen {p q : Run Unit} (first : Remarks p) (second : Remarks q) :
    Remarks (p >>= fun _ => q) where
  level s := (second.level _).trans (first.level s)
  stream s := (second.stream _).trans (first.stream s)

theorem hear (flag : DebugFlags) (text : String) : Remarks (modify fun s : Engine =>
    if s.listening then { s with heard := s.heard.push (flag, text) } else s) where
  level s := by
    change (if s.listening then _ else s : Engine).level = _
    split <;> rfl
  stream s := by
    change (if s.listening then _ else s : Engine).stream = _
    split <;> rfl

theorem ifShown {p : Run Unit} (h : Remarks p) (flag : DebugFlags) (threadSafe : Bool) :
    Remarks (debugEnabled flag threadSafe >>= fun shown => if shown then p else pure ()) := by
  have either : ∀ shown : Bool, Remarks (if shown then p else pure ()) := fun shown => by
    cases shown with
    | true => exact h
    | false => exact nothing
  exact ⟨fun s => (either (debugEnabled flag threadSafe s).1).level s,
    fun s => (either (debugEnabled flag threadSafe s).1).stream s⟩

theorem debug (flag : DebugFlags) (message : Unit → String) (threadSafe : Bool) :
    Remarks (debug flag message threadSafe) :=
  ((record _ _ _).andThen (hear flag (message ()))).ifShown flag threadSafe

end Remarks

namespace Discreet

theorem pure (x : β) : Discreet watched (pure x) := fun _ _ alike => ⟨rfl, alike⟩

theorem bind {p : Run β} {f : β → Run γ} (first : Discreet watched p)
    (second : ∀ x s, (p s).1 = x → Discreet watched (f x)) : Discreet watched (p >>= f) := by
  intro s s' alike
  obtain ⟨same, alike⟩ := first s s' alike
  have next := second _ s rfl _ _ alike
  change (f (p s).1 (p s).2).1 = (f (p s').1 (p s').2).1 ∧
    (f (p s).1 (p s).2).2.Alike watched (f (p s').1 (p s').2).2
  rwa [← same]

theorem of_remarks {p : Run Unit} (h : Remarks p) : Discreet watched p := by
  intro s s' alike
  refine ⟨rfl, ?_, fun watch => ?_⟩
  · rw [h.stream, h.stream, alike.stream]
  · rw [h.level, h.level, alike.shows watch]

theorem ifShown {p : Run Unit} (watch : watched) (h : Discreet watched p) :
    Discreet watched
      (debugEnabled .optimize false >>= fun shown => if shown then p else Pure.pure ()) := by
  let line (shown : Bool) : Run Unit := if shown then p else Pure.pure ()
  have either : ∀ shown, Discreet watched (line shown) := fun shown => by
    cases shown with
    | true => exact h
    | false => exact pure ()
  have run : ∀ s : Engine,
      (debugEnabled .optimize false >>= line) s = line (s.level.meets .optimize) s := fun _ => rfl
  suffices whole : Discreet watched (debugEnabled .optimize false >>= line) from whole
  intro s s' alike
  rw [run, run, ← alike.shows watch]
  exact either _ s s' alike

theorem draws (f : RandomStream → β × RandomStream) : Discreet watched (modifyGet fun s : Engine =>
    let (x, stream) := f s.stream
    (x, { s with stream })) := by
  intro s s' alike
  have same : f s.stream = f s'.stream := congrArg f alike.stream
  have results : (f s.stream).1 = (f s'.stream).1 := congrArg Prod.fst same
  have streams : (f s.stream).2 = (f s'.stream).2 := congrArg Prod.snd same
  exact ⟨results, streams, alike.shows⟩

theorem forIn {f : ν → PUnit → Run (ForInStep PUnit)} (each : ∀ x r, Discreet watched (f x r)) :
    ∀ (xs : List ν) (r : PUnit), Discreet watched (forIn xs r f)
  | [], r => pure r
  | x :: xs, r => by
    rw [List.forIn_cons]
    refine (each x r).bind fun step _ _ => ?_
    cases step with
    | done r => exact pure r
    | yield r => exact forIn each xs r

theorem mapM {f : ν → Run β} (each : ∀ x, Discreet watched (f x)) :
    ∀ xs : List ν, Discreet watched (xs.mapM f)
  | [] => pure []
  | x :: xs => by
    rw [List.mapM_cons]
    exact (each x).bind fun y _ _ => (mapM each xs).bind fun ys _ _ => pure (y :: ys)

end Discreet

end Run

open Run (Discreet Remarks)

variable {α : Type} [Scalar α] [NumberText α] {watched : Prop}

theorem Expr.discreet_run (e : Expr α) (b : Option (Bindings α)) :
    Discreet watched (e.run b) := by
  have evaluated : Discreet watched (modifyGet fun s : Engine =>
      let (x, stream) := e.evaluate b s.stream
      (x, { s with stream })) := .draws fun stream => e.evaluate b stream
  have said : ∀ x : α, Discreet watched (Run.debug .eval fun _ =>
      e.kindName ++ " -> " ++ NumberText.general 17 x) := fun x => .of_remarks (.debug _ _ _)
  exact evaluated.bind fun x _ _ => (said x).bind fun _ _ _ => .pure x

namespace Source

omit [Scalar α] in
theorem remarks_tell (source : String) (threadSafe : Bool) (e : Parser.Event α) :
    Remarks (tell source threadSafe e) := by
  cases e with
  | error e => exact .reportError e.info source
  | bound name x =>
    rw [tell]
    exact .debug _ _ _
  | called name argc =>
    rw [tell]
    exact .debug _ _ _
  | outOfDomain message position => exact .record _ _ _

theorem discreet_readTree (source : String) (bindings : Option (Bindings α))
    (config : TimedConfig) (strict : Bool) :
    Discreet watched (readTree source bindings config strict) := by
  unfold readTree
  dsimp only
  generalize ParseRun.ofTokens config bindings strict _ _ = r
  refine (Discreet.forIn (fun tok _ => ?_) _ _).bind fun _ _ _ => ?_
  · exact (Discreet.of_remarks (.debug _ _ _)).bind fun _ _ _ => .pure _
  rw [← Array.forIn_toList]
  refine (Discreet.forIn (fun e _ => ?_) _ _).bind fun _ _ _ => ?_
  · exact (Discreet.of_remarks (remarks_tell source _ e)).bind fun _ _ _ => .pure _
  have timed : ∀ message : Unit → String,
      Discreet watched (Run.debug .timing message config.threadSafe >>= fun _ => pure r) :=
    fun message => (Discreet.of_remarks (.debug _ message _)).bind fun _ _ _ => .pure r
  rcases r.tree with (_ | _ | _) | e
  · exact timed _
  · exact .pure r
  · exact timed _
  · exact (Discreet.of_remarks (.debug _ _ _)).bind fun _ _ _ => timed _

theorem discreet_parse (source : String) (bindings : Option (Bindings α)) (config : TimedConfig) :
    Discreet watched (parse source bindings config) := by
  unfold parse
  cases refusal? (some source) config with
  | some e => exact (Discreet.of_remarks (.reportError _ _)).bind fun _ _ _ => .pure _
  | none =>
    refine (discreet_readTree source bindings config false).bind fun r _ _ => ?_
    rcases r.tree with (_ | _ | _) | e <;> rcases r.errors with _ | ⟨first, others⟩ <;>
      exact .pure _

theorem discreet_parseValue (source : Option String) (bindings : Option (Bindings α))
    (config : TimedConfig) (free : Bool) :
    Discreet watched (parseValue source bindings config free) := by
  unfold parseValue
  cases refusal? source config with
  | some e => exact (Discreet.of_remarks (.reportError _ _)).bind fun _ _ _ => .pure _
  | none =>
    refine (discreet_readTree _ bindings config (!free)).bind fun r _ _ => ?_
    rcases r.tree with (_ | _ | _) | e <;> rcases r.errors with _ | ⟨first, others⟩
    any_goals exact .pure _
    exact (e.discreet_run bindings).bind fun x _ _ => .pure _

theorem readTree_clock {config : TimedConfig} (untimed : ¬ 0.0 < config.timeoutMs)
    (clock : Nat → Bool) (source : String) (bindings : Option (Bindings α)) (strict : Bool) :
    readTree source bindings { config with clock } strict =
      readTree source bindings config strict := by
  unfold readTree
  dsimp only
  rw [ParseRun.ofTokens_clock untimed]

theorem parse_clock {config : TimedConfig} (untimed : ¬ 0.0 < config.timeoutMs)
    (clock : Nat → Bool) (source : String) (bindings : Option (Bindings α)) :
    parse source bindings { config with clock } = parse source bindings config := by
  unfold parse
  rw [readTree_clock untimed]
  rfl

theorem parseValue_clock {config : TimedConfig} (untimed : ¬ 0.0 < config.timeoutMs)
    (clock : Nat → Bool) (source : Option String) (bindings : Option (Bindings α)) (free : Bool) :
    parseValue source bindings { config with clock } free =
      parseValue source bindings config free := by
  unfold parseValue
  dsimp only
  rw [readTree_clock untimed]
  rfl

end Source

theorem Compiled.discreet_run (c : Compiled α) (b : Option (Bindings α)) :
    Discreet watched (c.run b) :=
  (Discreet.draws fun stream => c.program.execute b stream).bind fun x _ _ =>
    (Discreet.of_remarks (.debug _ _ _)).bind fun _ _ _ => .pure x

namespace CompileCache

theorem discreet_fresh (source : String) : Discreet watched (fresh (α := α) source) := by
  refine (Source.discreet_parse source none {}).bind fun read _ _ => ?_
  cases read with
  | error e => exact .pure _
  | ok tree =>
    dsimp only
    cases Compiled.ofTree tree (some source) with
    | error e => exact .pure _
    | ok compiled => exact (Discreet.of_remarks (.debug _ _ _)).bind fun _ _ _ => .pure _

theorem discreet_compile (c : CompileCache α) (source : String) :
    Discreet watched (c.compile source) := by
  unfold compile
  cases c.entries.lookup source with
  | some compiled => exact .pure _
  | none =>
    refine (discreet_fresh source).bind fun compiled _ _ => ?_
    cases compiled <;> exact .pure _

end CompileCache

end DerivativeEngine
