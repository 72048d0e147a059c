import DerivativeEngine.Proofs.Source.Completeness
import DerivativeEngine.Proofs.Source.Lexing
import DerivativeEngine.Proofs.Source.Recovery
import DerivativeEngine.Proofs.Source.Soundness
import DerivativeEngine.Scalar.Double
import DerivativeEngine.Source.Reading

/-! Which sources have a tree. The tokens of a source hold no end token, so the parser that came to
the end has taken them all; a parse that went on after an error has noticed one; and what the
engine is told on the way does not change what is read. So a source that is not too long, and is
read in time, has a tree exactly when its tokens are a phrase of the grammar that does not nest too
deeply, and then it has the tree of that phrase. -/

namespace DerivativeEngine

open Grammar

variable {α : Type}

variable [Scalar α]

namespace Parser

theorem phrase_of_whole {env : Setting α} (final : env.final.kind = .eof) {tokens : List Token}
    (inner : ∀ tok ∈ tokens, tok.kind ≠ .eof) {n : Nat} {e : Expr α} {s' : State α}
    (read : outcome (whole env n) ⟨tokens, 0, 0, #[], 0⟩ = (.ok e, s')) (clean : s'.errors = []) :
    Phrase env.dialect .or s'.deepest tokens e ∧
      (s'.deepest = 0 ∨ (s'.deepest : Int) ≤ env.config.maxDepth) := by
  have recovers := whole_recovers env n
  rcases recovers.follows ⟨tokens, 0, 0, #[], 0⟩ with equal | ⟨failed, first⟩
  · rw [read] at equal
    obtain ⟨_, s₁, hb, h₁⟩ := outcome_bind_ok_iff.1 equal.symm
    have ends : env.stopping.final.kind = .eof := final
    obtain ⟨d, ts, took, phrase, -⟩ := (sound ends rfl _).binary (Nat.zero_le 11) hb
    rw [outcome_bind_of_ok (outcome_peek _ s₁)] at h₁
    split_ifs at h₁ with wrong other
    · obtain ⟨_, _, failed, _⟩ := outcome_bind_ok_iff.1 h₁
      exact absurd failed (fail_ne_ok rfl)
    · obtain ⟨_, _, failed, _⟩ := outcome_bind_ok_iff.1 h₁
      exact absurd failed (fail_ne_ok rfl)
    · simp only [outcome_pure, Prod.mk.injEq, Except.ok.injEq] at h₁
      obtain ⟨rfl, rfl⟩ := h₁
      have taken : tokens = ts ++ s₁.rest := took.rest
      have ended : s₁.rest = [] := by
        rcases hr : s₁.rest with _ | ⟨tok, more⟩
        · rfl
        · refine absurd ?_ other
          have mem : tok ∈ tokens := by simp [taken, hr]
          simpa [State.head, hr] using inner tok mem
      rw [ended, List.append_nil] at taken
      have deepest : s₁.deepest = d := by
        rw [took.deepest]
        simp only [reach]
        split_ifs <;> omega
      have fits : d = 0 ∨ ((0 + d : Nat) : Int) ≤ env.config.maxDepth := took.fits
      rw [Nat.zero_add] at fits
      subst taken
      rw [deepest]
      exact ⟨phrase, fits⟩
  · have stops := recovers.stops ⟨tokens, 0, 0, #[], 0⟩
    rw [OneError, failed] at stops
    obtain ⟨e', one⟩ := stops
    rw [read, one, clean] at first
    simp at first

theorem whole_of_phrase {env : Setting α} (live : env.config.InTime)
    (final : env.final.kind = .eof) {tokens : List Token} {e : Expr α} {d : Nat}
    (phrase : Phrase env.dialect .or d tokens e) (fits : d = 0 ∨ (d : Int) ≤ env.config.maxDepth) :
    ∃ s', outcome (whole env (8 * (tokens.length + 2))) ⟨tokens, 0, 0, #[], 0⟩ = (.ok e, s') ∧
      s'.errors = [] := by
  have split : (⟨tokens, 0, 0, #[], 0⟩ : State α).rest = tokens ++ [] := (List.append_nil _).symm
  obtain ⟨s', took, read⟩ := (reads_of_phrase live phrase).chain.closed
    (n := 8 * (tokens.length + 2)) split (by simp [final, closings]) (by simpa using fits)
    (by simp only; omega)
  have ended : s'.rest = [] := took.remains split
  have head : s'.head env = env.final := by rw [State.head, ended, List.headD_nil]
  refine ⟨s', ?_, took.errors⟩
  rw [whole, outcome_bind_of_ok read, outcome_bind_of_ok (outcome_peek env s'), head, final]
  rfl

end Parser

namespace ParseRun

variable {config : TimedConfig} {bindings : Option (Bindings α)} {strict : Bool}
  {tokens : List Token} {final : Token} {e : Expr α} {d : Nat}

theorem phrase_of_ofTokens (inner : ∀ tok ∈ tokens, tok.kind ≠ .eof) (last : final.kind = .eof)
    (tree : (ofTokens config bindings strict tokens final).tree = .ok e)
    (clean : (ofTokens config bindings strict tokens final).errors = []) :
    ∃ d, (ofTokens config bindings strict tokens final).deepest = d ∧
      Phrase ⟨bindings, strict, config.maxArgs⟩ .or d tokens e ∧
      (d = 0 ∨ (d : Int) ≤ config.maxDepth) := by
  let env : Parser.Setting α := ⟨config, bindings, strict, final⟩
  have ends : env.final.kind = .eof := last
  have read : Parser.outcome (Parser.whole env (8 * (tokens.length + 2))) ⟨tokens, 0, 0, #[], 0⟩ =
      (.ok e, _) := Prod.ext tree rfl
  exact ⟨_, rfl, Parser.phrase_of_whole ends inner read clean⟩

theorem ofTokens_of_phrase (live : config.InTime) (last : final.kind = .eof)
    (phrase : Phrase ⟨bindings, strict, config.maxArgs⟩ .or d tokens e)
    (fits : d = 0 ∨ (d : Int) ≤ config.maxDepth) :
    (ofTokens config bindings strict tokens final).tree = .ok e ∧
      (ofTokens config bindings strict tokens final).errors = [] := by
  let env : Parser.Setting α := ⟨config, bindings, strict, final⟩
  have timely : env.config.InTime := live
  have ends : env.final.kind = .eof := last
  obtain ⟨s', read, clean⟩ := Parser.whole_of_phrase timely ends phrase fits
  have run : Parser.whole ⟨config, bindings, strict, final⟩ (8 * (tokens.length + 2))
      ⟨tokens, 0, 0, #[], 0⟩ = (.ok e, s') := read
  rw [ofTokens, run]
  exact ⟨rfl, clean⟩

theorem reads_iff_phrase (live : config.InTime) (inner : ∀ tok ∈ tokens, tok.kind ≠ .eof)
    (last : final.kind = .eof) :
    ((ofTokens config bindings strict tokens final).tree = .ok e ∧
        (ofTokens config bindings strict tokens final).errors = []) ↔
      ∃ d, Phrase ⟨bindings, strict, config.maxArgs⟩ .or d tokens e ∧
        (d = 0 ∨ (d : Int) ≤ config.maxDepth) := by
  constructor
  · rintro ⟨tree, clean⟩
    obtain ⟨d, -, phrase⟩ := phrase_of_ofTokens inner last tree clean
    exact ⟨d, phrase⟩
  · rintro ⟨d, phrase, fits⟩
    exact ofTokens_of_phrase live last phrase fits

end ParseRun

namespace Source

variable [NumberText α]

theorem value_bind {β γ : Type} (p : Run β) (f : β → Run γ) (s : Engine) :
    ((p >>= f) s).1 = (f (p s).1 (p s).2).1 := rfl

theorem readTree_value (source : String) (bindings : Option (Bindings α)) (config : TimedConfig)
    (strict : Bool) (s : Engine) :
    (readTree source bindings config strict s).1 =
      ParseRun.ofTokens config bindings strict (Token.lexemes source)
        (Token.endAt source.length) := by
  unfold readTree
  dsimp only
  rw [value_bind, value_bind]
  generalize ParseRun.ofTokens config bindings strict _ _ = r
  rcases r.tree with (_ | _ | _) | e <;> rfl

def verdict (source : String) (r : ParseRun α) : Except ReadFailure (Expr α) :=
  match r.tree, r.errors with
  | .error .numberTooLarge, _ => .error .numberTooLarge
  | _, e :: _ => .error (.parse e)
  | .ok tree, [] => .ok tree
  | .error _, [] => .error (.parse (noTree source))

theorem parse_value {source : String} {config : TimedConfig}
    (accepted : refusal? (some source) config = none) (bindings : Option (Bindings α))
    (s : Engine) :
    (parse source bindings config s).1 = verdict source
      (ParseRun.ofTokens config bindings false (Token.lexemes source)
        (Token.endAt source.length)) := by
  unfold parse verdict
  rw [accepted]
  dsimp only
  rw [value_bind, readTree_value]
  generalize ParseRun.ofTokens config bindings false _ _ = r
  rcases r.tree with (_ | _ | _) | e <;> rcases r.errors with _ | ⟨first, others⟩ <;> rfl

omit [Scalar α] [NumberText α] in
theorem verdict_eq_ok_iff {source : String} {r : ParseRun α} {t : Expr α} :
    verdict source r = .ok t ↔ r.tree = .ok t ∧ r.errors = [] := by
  unfold verdict
  rcases r.tree with (_ | _ | _) | e <;> rcases r.errors with _ | ⟨first, others⟩ <;> simp

theorem parse_ok_iff {source : String} {bindings : Option (Bindings α)} {config : TimedConfig}
    (accepted : refusal? (some source) config = none) {t : Expr α} (s : Engine) :
    (parse source bindings config s).1 = .ok t ↔
      ∃ r, r = ParseRun.ofTokens config bindings false (Token.lexemes source)
        (Token.endAt source.length) ∧ r.tree = .ok t ∧ r.errors = [] := by
  rw [parse_value accepted, verdict_eq_ok_iff, exists_eq_left]

theorem refusal?_of_parse {source : String} {bindings : Option (Bindings α)}
    {config : TimedConfig} {t : Expr α} {s : Engine}
    (h : (parse source bindings config s).1 = .ok t) : refusal? (some source) config = none := by
  cases refused : refusal? (some source) config with
  | none => rfl
  | some e =>
    unfold parse at h
    rw [refused] at h
    have failed : Except.error (ReadFailure.parse (.ofInfo e)) = Except.ok t := h
    exact absurd failed (by simp)

theorem parse_ok_iff_phrase {source : String} {bindings : Option (Bindings α)}
    {config : TimedConfig} (live : config.InTime) (accepted : refusal? (some source) config = none)
    {t : Expr α} (s : Engine) :
    (parse source bindings config s).1 = .ok t ↔
      ∃ d, Phrase ⟨bindings, false, config.maxArgs⟩ .or d (Token.lexemes source) t ∧
        (d = 0 ∨ (d : Int) ≤ config.maxDepth) := by
  rw [parse_ok_iff accepted, exists_eq_left]
  exact ParseRun.reads_iff_phrase live (fun tok mem => Token.kind_of_mem_ofChars mem) rfl

theorem phrase_of_parse {source : String} {bindings : Option (Bindings α)} {config : TimedConfig}
    {t : Expr α} {s : Engine} (h : (parse source bindings config s).1 = .ok t) :
    ∃ d, Phrase ⟨bindings, false, config.maxArgs⟩ .or d (Token.lexemes source) t ∧
      (d = 0 ∨ (d : Int) ≤ config.maxDepth) := by
  obtain ⟨_, rfl, tree, clean⟩ := (parse_ok_iff (refusal?_of_parse h) s).1 h
  obtain ⟨d, -, phrase⟩ := ParseRun.phrase_of_ofTokens
    (fun tok mem => Token.kind_of_mem_ofChars mem) rfl tree clean
  exact ⟨d, phrase⟩

theorem parse_of_phrase {config : TimedConfig} (live : config.InTime) {source : String}
    (short : (source.utf8ByteSize : Int) ≤ config.maxLength) {bindings : Option (Bindings α)}
    {t : Expr α} (s : Engine) {d : Nat}
    (phrase : Phrase ⟨bindings, false, config.maxArgs⟩ .or d (Token.lexemes source) t)
    (fits : d = 0 ∨ (d : Int) ≤ config.maxDepth) : (parse source bindings config s).1 = .ok t := by
  have visible : ¬ source.toList.all Text.isBlank = true := by
    intro blank
    obtain ⟨tok, ts, cons, -⟩ := phrase.opens
    rw [Token.lexemes, Token.ofChars_of_blank blank] at cons
    simp at cons
  have accepted : refusal? (some source) config = none := by
    unfold refusal?
    dsimp only
    rw [if_neg visible, if_neg (by omega)]
  exact (parse_ok_iff_phrase live accepted s).2 ⟨d, phrase, fits⟩

/-- Without bindings, in either mode, a source within the limits has a tree exactly when its tokens
are an expression of the grammar, and then it has the tree of that expression. -/
theorem parse_eq_ok_iff_phrase {config : TimedConfig} (live : config.InTime)
    {source : String} (short : (source.utf8ByteSize : Int) ≤ config.maxLength) {t : Expr α}
    (s : Engine) :
    (parse source none config s).1 = .ok t ↔
      ∃ d, Phrase ⟨none, false, config.maxArgs⟩ .or d (Token.lexemes source) t ∧
        (d = 0 ∨ (d : Int) ≤ config.maxDepth) := by
  constructor
  · exact phrase_of_parse
  · rintro ⟨d, phrase, fits⟩
    exact parse_of_phrase live short s phrase fits

theorem parse_sign_power :
    (({} : TimedConfig).InTime ∧ (("A > -B ^ C".utf8ByteSize : Int) ≤ 10000)) ∧
      (parse (α := Float) "A > -B ^ C" none {} .start).1 =
        .ok (.bin .gt (.var "A") (.bin .pow (.un .neg (.var "B")) (.var "C"))) := by
  have live : ({} : TimedConfig).InTime := TimedConfig.inTime_of_untimed (by decide)
  have short : (("A > -B ^ C".utf8ByteSize : Int) ≤ 10000) := by decide
  have tokens : Token.lexemes "A > -B ^ C" =
      [⟨.ident, "A", 0, 1⟩, ⟨.gt, ">", 2, 3⟩, ⟨.minus, "-", 4, 5⟩, ⟨.ident, "B", 5, 6⟩,
        ⟨.caret, "^", 7, 8⟩, ⟨.ident, "C", 9, 10⟩] := by decide +kernel
  have name : ∀ tok : Token, tok.kind = .ident → Text.upper tok.text = tok.text →
      tok.text ≠ "PI" ∧ tok.text ≠ "E" →
      Phrase (α := Float) ⟨none, false, 10⟩ .primary 0 [tok] (.var tok.text) := by
    intro tok kind upper free
    have known : Free (α := Float) ⟨none, false, 10⟩ (Text.upper tok.text) := by
      rw [upper]
      exact ⟨notConstant_iff.2 free, rfl⟩
    have phrase := Phrase.name kind known rfl
    rwa [upper] at phrase
  have a := name ⟨.ident, "A", 0, 1⟩ rfl (by decide +kernel) (by decide)
  have b := name ⟨.ident, "B", 5, 6⟩ rfl (by decide +kernel) (by decide)
  have c := name ⟨.ident, "C", 9, 10⟩ rfl (by decide +kernel) (by decide)
  have minus : Phrase (α := Float) ⟨none, false, 10⟩ .unary 1 _ (.un .neg (.var "B")) :=
    @Phrase.negate _ _ _ ⟨.minus, "-", 4, 5⟩ _ _ _ rfl (by simp) (.tighter (by decide) b)
  have power :=
    @Phrase.binary _ _ _ _ ⟨.caret, "^", 7, 8⟩ _ _ _ _ _ _ rfl minus (.tighter (by decide) c)
  have above := @Phrase.binary _ _ _ _ ⟨.gt, ">", 2, 3⟩ _ _ _ _ _ _ rfl (.tighter (by decide) a)
    (.tighter (by decide) power)
  refine ⟨⟨live, short⟩, (parse_eq_ok_iff_phrase live short .start).2 ⟨1, ?_, .inr (by decide)⟩⟩
  rw [tokens]
  exact .tighter (by decide) above

end Source

end DerivativeEngine
