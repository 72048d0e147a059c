import DerivativeEngine.Proofs.Engine.Results
import DerivativeEngine.Proofs.Source.Spans
import DerivativeEngine.Proofs.Source.Totality

/-! What a reader is told of a source. The answer to a source holds its errors as they were handed
to the listener, each of them once and in order, and those of the parser lie within the source. The
parser that goes on after an error finds one exactly if the parser that stops finds one, and then
its first is the only one of the other. -/

namespace DerivativeEngine

namespace Run

variable {β γ ν : Type} {xs ys : List (ErrorInfo × String)}

def Hands (p : Run β) (xs : List (ErrorInfo × String)) : Prop :=
  ∀ s, (p s).2.reported.toList = s.reported.toList ++ xs

namespace Hands

theorem nothing (x : β) : Hands (pure x) [] := fun s => (List.append_nil s.reported.toList).symm

theorem bind {p : Run β} {f : β → Run γ} (first : p.Hands xs) (second : ∀ x, (f x).Hands ys) :
    (p >>= f).Hands (xs ++ ys) := by
  intro s
  calc (f (p s).1 (p s).2).2.reported.toList
      = (p s).2.reported.toList ++ ys := second _ _
    _ = s.reported.toList ++ (xs ++ ys) := by rw [first, List.append_assoc]

theorem andThen {p : Run β} {f : β → Run γ} (first : p.Hands xs) (second : ∀ x, (f x).Hands []) :
    (p >>= f).Hands xs := by
  have both := first.bind second
  rwa [List.append_nil] at both

theorem after {p : Run β} {f : β → Run γ} (first : p.Hands []) (second : ∀ x, (f x).Hands ys) :
    (p >>= f).Hands ys := first.bind second

theorem reportError (e : ErrorInfo) (source : String) :
    Hands (Run.reportError e source) [(e, source)] := fun _ => Array.toList_push

theorem record (channel : LogChannel) (severity : Severity) (text : String) :
    Hands (Run.record channel severity text) [] := fun s => (List.append_nil s.reported.toList).symm

theorem hear (flag : DebugFlags) (text : String) : Hands (modify fun s : Engine =>
    if s.listening then { s with heard := s.heard.push (flag, text) } else s) [] := by
  intro s
  rw [List.append_nil]
  change (if s.listening then _ else s : Engine).reported.toList = _
  split <;> rfl

theorem debug (flag : DebugFlags) (message : Unit → String) (threadSafe : Bool) :
    Hands (Run.debug flag message threadSafe) [] := by
  have asked : Hands (debugEnabled flag threadSafe) [] :=
    fun s => (List.append_nil s.reported.toList).symm
  have told := (record .debug .debug ("[" ++ flag.name ++ "] " ++ message ())).after
    fun _ => hear flag (message ())
  refine asked.after fun shown => ?_
  cases shown with
  | true => exact told
  | false => exact nothing ()

theorem forIn {f : ν → PUnit → Run (ForInStep PUnit)} {items : ν → List (ErrorInfo × String)}
    (each : ∀ x r, (f x r).Hands (items x))
    (goes : ∀ x r s, (f x r s).1 = .yield PUnit.unit) :
    ∀ (xs : List ν) (r : PUnit), Hands (forIn xs r f) (xs.flatMap items)
  | [], r => nothing r
  | x :: xs, r => by
    intro s
    rw [List.forIn_cons, List.flatMap_cons, Run.bind_eq, goes]
    calc (ForIn.forIn xs PUnit.unit f (f x r s).2).2.reported.toList
        = (f x r s).2.reported.toList ++ xs.flatMap items := forIn each goes xs PUnit.unit _
      _ = s.reported.toList ++ (items x ++ xs.flatMap items) := by
        rw [each x r s, List.append_assoc]

theorem forIn_nothing {f : ν → PUnit → Run (ForInStep PUnit)} (each : ∀ x r, (f x r).Hands [])
    (goes : ∀ x r s, (f x r s).1 = .yield PUnit.unit) (xs : List ν) (r : PUnit) :
    Hands (ForIn.forIn xs r f) [] := by
  have all := forIn each goes xs r
  rwa [List.flatMap_eq_nil_iff.2 fun _ _ => rfl] at all

end Hands

end Run

namespace Source

variable {α : Type} [NumberText α]

def heardOf (source : String) : Parser.Event α → List (ErrorInfo × String)
  | .error e => [(e.info, source)]
  | _ => []

theorem hands_tell (source : String) (threadSafe : Bool) (e : Parser.Event α) :
    (tell source threadSafe e).Hands (heardOf source e) := by
  cases e with
  | error e => exact .reportError _ _
  | bound name x =>
    rw [tell]
    exact .debug _ _ _
  | called name argc =>
    rw [tell]
    exact .debug _ _ _
  | outOfDomain message position => exact .record _ _ _

omit [NumberText α] in
theorem flatMap_heardOf (source : String) (r : ParseRun α) :
    r.trace.toList.flatMap (heardOf source) = r.errors.map fun e => (e.info, source) := by
  unfold ParseRun.errors
  rw [List.filterMap_eq_flatMap_toList, List.map_flatMap]
  refine congrArg (r.trace.toList.flatMap ·) (funext fun e => ?_)
  cases e <;> rfl

variable [Scalar α]

theorem hands_readTree (source : String) (bindings : Option (Bindings α)) (config : TimedConfig)
    (strict : Bool) :
    (readTree source bindings config strict).Hands
      ((ParseRun.ofTokens config bindings strict (Token.lexemes source)
        (Token.endAt source.length)).errors.map fun e => (e.info, source)) := by
  unfold readTree
  dsimp only
  generalize ParseRun.ofTokens config bindings strict _ _ = r
  refine Run.Hands.after (.forIn_nothing (fun tok _ => ?_) (fun _ _ _ => rfl) _ _) fun _ => ?_
  · exact (Run.Hands.debug _ _ _).andThen fun _ => .nothing _
  rw [← Array.forIn_toList, ← flatMap_heardOf]
  refine Run.Hands.andThen (.forIn (fun e _ => ?_) (fun _ _ _ => rfl) _ _) fun _ => ?_
  · exact (hands_tell source _ e).andThen fun _ => .nothing _
  have timed : ∀ message : Unit → String,
      (Run.debug .timing message config.threadSafe >>= fun _ => pure r).Hands [] :=
    fun message => (Run.Hands.debug _ message _).andThen fun _ => .nothing r
  rcases r.tree with (_ | _ | _) | e
  · exact timed _
  · exact .nothing r
  · exact timed _
  · exact (Run.Hands.debug _ _ _).andThen fun _ => timed _

theorem hands_run (e : Expr α) (b : Option (Bindings α)) : (e.run b).Hands [] := by
  have evaluated : Run.Hands (modifyGet fun s : Engine =>
      ((e.evaluate b s.stream).1, { s with stream := (e.evaluate b s.stream).2 })) [] :=
    fun s => (List.append_nil s.reported.toList).symm
  have said : ∀ x : α, Run.Hands (Run.debug .eval fun _ =>
      e.kindName ++ " -> " ++ NumberText.general 17 x) [] := fun x => .debug _ _ _
  exact evaluated.after fun x => (said x).andThen fun _ => .nothing x

theorem hands_parseValue (source : Option String) (bindings : Option (Bindings α))
    (config : TimedConfig) (free : Bool) :
    (parseValue source bindings config free).Hands
      (match refusal? source config with
        | some e => [(e, source.getD "")]
        | none => (ParseRun.ofTokens config bindings (!free) (Token.lexemes (source.getD ""))
            (Token.endAt (source.getD "").length)).errors.map
              fun e => (e.info, source.getD "")) := by
  unfold parseValue
  cases refusal? source config with
  | some e => exact (Run.Hands.reportError _ _).andThen fun _ => .nothing _
  | none =>
    refine (hands_readTree _ bindings config (!free)).andThen fun r => ?_
    rcases r.tree with (_ | _ | _) | e <;> rcases r.errors with _ | ⟨first, others⟩
    any_goals exact .nothing _
    exact (hands_run e bindings).andThen fun x => .nothing _

end Source

namespace ParseResult

variable {α : Type} [Zero α]

/-- An answer says that it has an error if it lists one, counts those it lists and names the first
of them, or none; with an error its value is zero. -/
structure Consistent (r : ParseResult α) : Prop where
  hasError : r.hasError = true ↔ r.errors ≠ []
  errorCount : r.errorCount = r.errors.length
  first : ∀ e es, r.errors = e :: es → r.error = e
  none : r.errors = [] → r.error.code = .ok
  value : r.hasError = true → r.value = 0

theorem Consistent.success (value : α) (tree : Expr α) : (success value tree).Consistent where
  hasError := by simp [ParseResult.success]
  errorCount := rfl
  first _ _ listed := by cases listed
  none _ := rfl
  value failed := by cases failed

theorem Consistent.failure (tree : Option (Expr α)) (first : ErrorInfo)
    (others : List ErrorInfo) : (failure tree first others).Consistent where
  hasError := by simp [ParseResult.failure]
  errorCount := rfl
  first _ _ listed := (List.cons.inj listed).1
  none listed := by cases listed
  value _ := rfl

end ParseResult

structure Token.Within (n : Nat) (tok : Token) : Prop where
  ordered : tok.start ≤ tok.stop
  bounded : tok.stop ≤ n

structure ParseError.Within (n : Nat) (e : ParseError) : Prop where
  inside : 0 ≤ e.start
  ordered : e.start ≤ e.stop
  bounded : e.stop ≤ n

namespace Parser

variable {α β γ : Type} {n : Nat}

theorem within_errorAt {tok : Token} (h : tok.Within n) (code : ErrorCode) (message : String)
    (expected : List String) : (errorAt tok code message expected).Within n where
  inside := Int.natCast_nonneg _
  ordered := Int.ofNat_le.2 h.ordered
  bounded := Int.ofNat_le.2 h.bounded

structure State.Within (n : Nat) (s : State α) : Prop where
  rest : ∀ tok ∈ s.rest, tok.Within n
  errors : ∀ e ∈ s.errors, e.Within n

namespace State.Within

variable {s : State α}

theorem head {env : Setting α} (h : s.Within n) (final : env.final.Within n) :
    (s.head env).Within n := by
  rcases hr : s.rest with _ | ⟨tok, rest⟩
  · rwa [State.head, hr]
  · rw [State.head, hr]
    exact h.rest tok (by rw [hr]; exact List.mem_cons_self)

theorem drop (h : s.Within n) : s.drop.Within n :=
  ⟨fun tok mem => h.rest tok (List.mem_of_mem_tail mem), h.errors⟩

theorem logError (h : s.Within n) {e : ParseError} (inside : e.Within n) :
    (s.log (.error e)).Within n where
  rest := h.rest
  errors e' mem := by
    rw [State.errors_log_error, List.mem_append, List.mem_singleton] at mem
    rcases mem with old | rfl
    · exact h.errors e' old
    · exact inside

end State.Within

def Stays (n : Nat) (p : Parser α β) : Prop :=
  ∀ s, s.Within n → (outcome p s).2.Within n

namespace Stays

theorem of_still {p : Parser α β} (rest : ∀ s, (outcome p s).2.rest = s.rest)
    (errors : ∀ s, (outcome p s).2.errors = s.errors) : Stays n p :=
  fun s h => ⟨rest s ▸ h.rest, errors s ▸ h.errors⟩

theorem bind {p : Parser α β} {f : β → Parser α γ} (h : Stays n p) (k : ∀ x, Stays n (f x)) :
    Stays n (p >>= f) := by
  intro s inside
  have first := h s inside
  rw [outcome_bind]
  generalize outcome p s = r at first ⊢
  rcases r with ⟨_ | x, s₁⟩
  · exact first
  · exact k x s₁ first

theorem pure (x : β) : Stays n (pure x : Parser α β) := of_still (fun _ => rfl) fun _ => rfl

theorem enter {env : Setting α} (final : env.final.Within n) : Stays n (enter env) := by
  intro s inside
  rw [outcome_enter]
  split
  · exact ⟨inside.rest, inside.errors⟩
  · have down : State.Within n { s with depth := s.depth + 1 } := ⟨inside.rest, inside.errors⟩
    exact down.logError (within_errorAt (inside.head final) _ _ _)

variable [Scalar α]

theorem parallel {env : Setting α} (final : env.final.Within n) :
    Parallel env env (fun tok tok' => tok' = tok ∧ tok.Within n) fun p _ => Stays n p where
  bindings := rfl
  strict := rfl
  maxArgs := rfl
  alike same := same.1 ▸ .refl _
  pure := pure
  exhausted := of_still (fun _ => rfl) fun _ => rfl
  bind := bind
  bindPeek next s inside := next _ _ ⟨rfl, inside.head final⟩ s inside
  bindAdvance next s inside := next _ _ ⟨rfl, inside.head final⟩ s.drop inside.drop
  isLate := of_still (fun _ => rfl) fun _ => rfl
  note quiet := of_still (fun _ => rfl) fun s => s.errors_log quiet
  abort code message same s inside := inside.logError (within_errorAt same.2 code message [])
  fail code message expected same s inside := by
    rw [outcome_fail]
    exact inside.logError (within_errorAt same.2 code message expected)
  nested h := (enter final).bind fun _ => h.bind fun x =>
    bind (p := leave) (of_still (fun _ => rfl) fun _ => rfl) fun _ => pure x
  numberOf _ := by
    unfold Parser.numberOf
    split
    · exact pure _
    · exact of_still (fun _ => rfl) fun _ => rfl

end Stays

end Parser

theorem ParseRun.errors_within {α : Type} [Scalar α] {config : TimedConfig}
    {bindings : Option (Bindings α)} {strict : Bool} {tokens : List Token} {final : Token} {n : Nat}
    (inner : ∀ tok ∈ tokens, tok.Within n) (last : final.Within n) :
    ∀ e ∈ (ofTokens config bindings strict tokens final).errors, e.Within n := by
  rw [ofTokens_eq, errors_ofOutcome]
  refine ((Parser.Stays.parallel ?_).whole _ _ ?_).errors
  · exact last
  · exact ⟨inner, by simp [Parser.State.errors]⟩

namespace Source

variable {α : Type} [Scalar α] [NumberText α] {source : Option String}
  {bindings : Option (Bindings α)} {config : TimedConfig} {free : Bool}

theorem lexemes_within (source : String) : ∀ tok ∈ Token.lexemes source,
    tok.Within source.length := by
  intro tok mem
  obtain ⟨-, some, within⟩ := (Token.lexed_ofChars 0 source.toList).bounds tok mem
  rw [Nat.zero_add, String.length_toList] at within
  exact ⟨some.le, within⟩

theorem answers_of_returned {s : Engine} {r : ParseResult α}
    (returned : (parseValue source bindings config free s).1 = .ok r) :
    Answers source bindings config free r := by
  rcases parseValue_answers source bindings config free s with ⟨r', equal, answers⟩ | ⟨stopped, -⟩
  · obtain rfl : r = r' := Except.ok.inj (returned.symm.trans equal)
    exact answers
  · rw [returned] at stopped
    cases stopped

omit [NumberText α] in
theorem Answers.consistent {r : ParseResult α} (answer : Answers source bindings config free r) :
    r.Consistent := by
  unfold Answers at answer
  split at answer
  · exact answer ▸ .failure none _ []
  · obtain ⟨-, t, _, -, rfl⟩ | ⟨e, es, -, rfl⟩ := answer
    · exact .success _ t
    · exact .failure _ _ _

omit [NumberText α] in
theorem Answers.errors {r : ParseResult α} (answer : Answers source bindings config free r)
    (accepted : refusal? source config = none) :
    r.errors = (ParseRun.ofTokens config bindings (!free) (Token.lexemes (source.getD ""))
      (Token.endAt (source.getD "").length)).errors.map ParseError.info := by
  unfold Answers at answer
  rw [accepted] at answer
  obtain ⟨clean, t, stream, -, rfl⟩ | ⟨e, es, errors, rfl⟩ := answer
  · rw [clean]
    rfl
  · rw [errors]
    rfl

/-- The answer to a source is consistent. The listener has been handed just its errors, each once
and in order, with the source; and what the parser reports lies within the source. -/
theorem parseValue_reports {s s' : Engine} {r : ParseResult α}
    (returned : parseValue source bindings config free s = (.ok r, s')) :
    r.Consistent ∧
      s'.reported.toList = s.reported.toList ++ r.errors.map (fun e => (e, source.getD "")) ∧
      (refusal? source config = none → ∀ e ∈ r.errors, ∃ stop : Int, e.stop = some stop ∧
        0 ≤ e.position ∧ e.position ≤ stop ∧ stop ≤ (source.getD "").length) := by
  have answer := answers_of_returned (congrArg Prod.fst returned)
  have heard := hands_parseValue source bindings config free s
  rw [returned] at heard
  refine ⟨answer.consistent, heard.trans (congrArg _ ?_), fun accepted info mem => ?_⟩
  · cases refused : refusal? source config with
    | some e =>
      rw [Answers, refused] at answer
      rw [answer]
      rfl
    | none =>
      rw [answer.errors refused, List.map_map]
      rfl
  · rw [answer.errors accepted, List.mem_map] at mem
    obtain ⟨e, mem, rfl⟩ := mem
    have own := ParseRun.errors_within (lexemes_within (source.getD ""))
      ⟨Nat.le_refl _, Nat.le_refl _⟩ e mem
    exact ⟨e.stop, rfl, own.inside, own.ordered, own.bounded⟩

theorem parseValue_reports_bracket :
    let unbound : ErrorInfo := ⟨.unknownVar, 1, "Unknown variable 'X'", some 2⟩
    let unclosed : ErrorInfo := ⟨.unmatchedParen, 2, "Expected closing parenthesis", some 2⟩
    let r : ParseResult Float := .failure (some (.num 0)) unbound [unclosed]
    ∃ s, parseValue (some "(X") none { continueOnError := true } false .start = (.ok r, s) ∧
      r.Consistent ∧ s.reported.toList = [(unbound, "(X"), (unclosed, "(X")] := by
  intro unbound unclosed r
  have returned : (parseValue (some "(X") none { continueOnError := true } false .start).1 =
      .ok r := by with_unfolding_all rfl
  obtain ⟨consistent, heard, -⟩ := parseValue_reports (Prod.ext returned rfl)
  exact ⟨_, Prod.ext returned rfl, consistent, heard⟩

end Source

/-- The parse that goes on is the one that stops, or has the only error of that one as its first. -/
theorem ParseRun.ofTokens_modes {α : Type} [Scalar α] (config : TimedConfig)
    (bindings : Option (Bindings α)) (strict : Bool) (tokens : List Token) (final : Token)
    {going stopping : ParseRun α}
    (goes : ofTokens { config with continueOnError := true } bindings strict tokens final = going)
    (stops : ofTokens { config with continueOnError := false } bindings strict tokens final =
      stopping) :
    going = stopping ∧ (stopping.errors = [] ∨ ∃ e, stopping.errors = [e]) ∨
      ∃ e es, stopping.errors = [e] ∧ going.errors = e :: es := by
  let env : Parser.Setting α :=
    ⟨{ config with continueOnError := true }, bindings, strict, final⟩
  let start : Parser.State α := ⟨tokens, 0, 0, #[], 0⟩
  have recovers := Parser.whole_recovers env (8 * (tokens.length + 2))
  have one := recovers.stops start
  have follows := recovers.follows start
  rw [ofTokens_eq] at goes stops
  subst goes stops
  rcases follows with equal | ⟨failed, more⟩
  · refine .inl ⟨congrArg ofOutcome equal, ?_⟩
    unfold Parser.OneError at one
    split at one
    · exact .inr one
    · exact .inl one
  · rw [Parser.OneError, failed] at one
    obtain ⟨e, only⟩ := one
    obtain ⟨es, more⟩ := more
    rw [only] at more
    exact .inr ⟨e, es, only, more.symm⟩

namespace Source

variable {α : Type} [Scalar α] [NumberText α] {source : Option String}
  {bindings : Option (Bindings α)} {config : TimedConfig} {free : Bool}

theorem parseValue_congr
    (same : ParseRun.ofTokens { config with continueOnError := true } bindings (!free)
        (Token.lexemes (source.getD "")) (Token.endAt (source.getD "").length) =
      ParseRun.ofTokens { config with continueOnError := false } bindings (!free)
        (Token.lexemes (source.getD "")) (Token.endAt (source.getD "").length)) :
    parseValue source bindings { config with continueOnError := true } free =
      parseValue source bindings { config with continueOnError := false } free := by
  have read : readTree (source.getD "") bindings { config with continueOnError := true } (!free) =
      readTree (source.getD "") bindings { config with continueOnError := false } (!free) := by
    unfold readTree
    dsimp only
    rw [same]
  unfold parseValue
  dsimp only
  rw [read]
  rfl

theorem modes_of_returned {s : Engine} {r r' : ParseResult α}
    (going : (parseValue source bindings { config with continueOnError := true } free s).1 = .ok r)
    (stopping : (parseValue source bindings { config with continueOnError := false } free s).1 =
      .ok r') :
    r = r' ∧ (r'.errors = [] ∨ ∃ e, r'.errors = [e]) ∨
      ∃ e es, r'.errors = [e] ∧ r.errors = e :: es := by
  have answer := answers_of_returned going
  have answer' := answers_of_returned stopping
  cases refused : refusal? source config with
  | some e =>
    have refused' : ∀ b, refusal? source { config with continueOnError := b } = some e :=
      fun _ => refused
    rw [Answers, refused'] at answer answer'
    exact .inr ⟨e, [], by rw [answer']; rfl, by rw [answer]; rfl⟩
  | none =>
    have listed := answer.errors refused
    have listed' := answer'.errors refused
    rcases ParseRun.ofTokens_modes config bindings (!free) (Token.lexemes (source.getD ""))
      (Token.endAt (source.getD "").length) rfl rfl with ⟨same, few⟩ | ⟨e, es, one, more⟩
    · have equal : r = r' := Except.ok.inj (by rw [← going, ← stopping, parseValue_congr same])
      rw [listed']
      rcases few with none | ⟨e, one⟩
      · exact .inl ⟨equal, .inl (by rw [none]; rfl)⟩
      · exact .inl ⟨equal, .inr ⟨e.info, by rw [one]; rfl⟩⟩
    · exact .inr ⟨e.info, es.map ParseError.info, by rw [listed', one]; rfl,
        by rw [listed, more]; rfl⟩

/-- A source has an error in one mode exactly if it has one in the other. Where the parser stops it
is the only one, and the first of those the other mode finds; without one the answers agree. -/
theorem parseValue_modes {s : Engine} {r r' : ParseResult α}
    (going : (parseValue source bindings { config with continueOnError := true } free s).1 = .ok r)
    (stopping : (parseValue source bindings { config with continueOnError := false } free s).1 =
      .ok r') :
    r'.hasError = r.hasError ∧
      (r'.hasError = true → ∃ e es, r'.errors = [e] ∧ r.errors = e :: es) ∧
      (r.hasError = false → r'.value = r.value ∧ r'.tree = r.tree) := by
  have failed := (answers_of_returned going).consistent.hasError
  have failed' := (answers_of_returned stopping).consistent.hasError
  rcases modes_of_returned going stopping with ⟨rfl, none | ⟨e, one⟩⟩ | ⟨e, es, one, more⟩
  · exact ⟨rfl, fun error => absurd none (failed.1 error), fun _ => ⟨rfl, rfl⟩⟩
  · exact ⟨rfl, fun _ => ⟨e, [], one, one⟩, fun _ => ⟨rfl, rfl⟩⟩
  · have error : r.hasError = true := failed.2 (by simp [more])
    have error' : r'.hasError = true := failed'.2 (by simp [one])
    exact ⟨error'.trans error.symm, fun _ => ⟨e, es, one, more⟩,
      fun clean => by simp [error] at clean⟩

theorem parseValue_modes_bracket :
    let unbound : ErrorInfo := ⟨.unknownVar, 1, "Unknown variable 'X'", some 2⟩
    let unclosed : ErrorInfo := ⟨.unmatchedParen, 2, "Expected closing parenthesis", some 2⟩
    let r : ParseResult Float := .failure (some (.num 0)) unbound [unclosed]
    let r' : ParseResult Float := .failure none unbound []
    (parseValue (some "(X") none { continueOnError := true } false .start).1 = .ok r ∧
      (parseValue (some "(X") none { continueOnError := false } false .start).1 = .ok r' ∧
      r'.hasError = r.hasError ∧ ∃ e es, r'.errors = [e] ∧ r.errors = e :: es := by
  intro unbound unclosed r r'
  have going : (parseValue (some "(X") none { ({} : TimedConfig) with continueOnError := true }
    false .start).1 = .ok r := by with_unfolding_all rfl
  have stopping : (parseValue (some "(X") none { ({} : TimedConfig) with continueOnError := false }
    false .start).1 = .ok r' := by with_unfolding_all rfl
  obtain ⟨same, first, -⟩ := parseValue_modes going stopping
  exact ⟨going, stopping, same, first rfl⟩

end Source

end DerivativeEngine
